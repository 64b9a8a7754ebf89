import Mathlib.Data.List.Basic
import Mathlib.Data.Nat.Bitwise
import Mathlib.Tactic

/-!
# Machinery/Bytes — masks, big-endian words and base-128 lengths

Facts about single bytes that any wire format needs: the two masks of a base-128 digit, the two
bytes of a 16-bit word, and the **length field** `IsLengthField f v` — up to `k` continuation
digits (top bit set) closed by one digit with the top bit clear, least significant digit first.
A length field is self-delimiting (`IsLengthField.unique`), which is what makes a stream of
length-prefixed frames parse in one way only.
-/

namespace Tr50.Machinery

/-! ## Masks -/

theorem toNat_and_127 (d : UInt8) : (d &&& 127).toNat = d.toNat % 128 := by
  rw [UInt8.toNat_and]
  exact Nat.and_two_pow_sub_one_eq_mod d.toNat 7

/-- The continuation bit is the range test. -/
theorem and_128_eq_zero_iff (d : UInt8) : d &&& 128 = 0 ↔ d.toNat < 128 := by
  revert d
  have h : ∀ n : Fin 256, UInt8.ofFin n &&& 128 = 0 ↔ (UInt8.ofFin n).toNat < 128 := by
    decide +kernel
  exact fun d => h d.toFin

theorem and_128_ne_zero_iff (d : UInt8) : d &&& 128 ≠ 0 ↔ 128 ≤ d.toNat := by
  rw [ne_eq, and_128_eq_zero_iff, not_lt]

/-- Setting the continuation bit of a digit adds `128`. -/
theorem toNat_ofNat_or_128 {n : ℕ} (h : n < 128) : (UInt8.ofNat n ||| 0x80).toNat = n + 128 := by
  rw [UInt8.toNat_or, UInt8.toNat_ofNat_of_lt' (by simp only [UInt8.size]; omega)]
  have h2 := Nat.two_pow_add_eq_or_of_lt (i := 7) h 1
  rw [mul_one, Nat.or_comm] at h2
  exact h2.symm.trans (add_comm _ _)

/-! ## 16-bit words -/

/-- The word with high byte `hi` and low byte `lo`. -/
def word16 (hi lo : UInt8) : UInt16 := (hi.toUInt16 <<< 8) ||| lo.toUInt16

/-- The two bytes of a word, high byte first. -/
def be16 (n : UInt16) : List UInt8 := [(n >>> 8).toUInt8, n.toUInt8]

@[simp] theorem length_be16 (n : UInt16) : (be16 n).length = 2 := rfl

theorem toNat_word16 (hi lo : UInt8) : (word16 hi lo).toNat = hi.toNat * 256 + lo.toNat := by
  have hhi := hi.toNat_lt
  have hlo : lo.toNat < 2 ^ 8 := lo.toNat_lt
  have hshift : (hi.toUInt16 <<< 8).toNat = hi.toNat * 256 := by
    rw [UInt16.toNat_shiftLeft, UInt8.toNat_toUInt16]
    change hi.toNat <<< 8 % 2 ^ 16 = _
    rw [Nat.shiftLeft_eq, Nat.mod_eq_of_lt (by omega)]
  rw [word16, UInt16.toNat_or, hshift, UInt8.toNat_toUInt16, mul_comm]
  exact (Nat.two_pow_add_eq_or_of_lt hlo hi.toNat).symm

theorem toNat_shiftRight_8 (n : UInt16) : (n >>> 8).toNat = n.toNat / 256 := by
  rw [UInt16.toNat_shiftRight]
  exact Nat.shiftRight_eq_div_pow n.toNat 8

/-- A word is its two bytes. -/
theorem word16_be16 (n : UInt16) : word16 (n >>> 8).toUInt8 n.toUInt8 = n := by
  have hn := n.toNat_lt
  refine UInt16.toNat_inj.mp ?_
  rw [toNat_word16, UInt16.toNat_toUInt8, UInt16.toNat_toUInt8, toNat_shiftRight_8]
  omega

/-- …and two bytes are those of their word. -/
theorem be16_word16 (hi lo : UInt8) : be16 (word16 hi lo) = [hi, lo] := by
  have hhi := hi.toNat_lt
  have hlo := lo.toNat_lt
  have h1 : (word16 hi lo >>> 8).toUInt8 = hi := by
    refine UInt8.toNat_inj.mp ?_
    rw [UInt16.toNat_toUInt8, toNat_shiftRight_8, toNat_word16]
    omega
  have h2 : (word16 hi lo).toUInt8 = lo := by
    refine UInt8.toNat_inj.mp ?_
    rw [UInt16.toNat_toUInt8, toNat_word16]
    omega
  rw [be16, h1, h2]

/-! ## Length fields -/

/-- `f` encodes `v` in base 128, least significant digit first, every digit but the last with its
top bit set. -/
inductive IsLengthField : List UInt8 → ℕ → Prop
  | last {d : UInt8} (h : d.toNat < 128) : IsLengthField [d] d.toNat
  | more {d : UInt8} {f : List UInt8} {v : ℕ} (h : 128 ≤ d.toNat) (hf : IsLengthField f v) :
      IsLengthField (d :: f) (d.toNat % 128 + 128 * v)

namespace IsLengthField

variable {f g : List UInt8} {v w : ℕ}

theorem ne_nil (h : IsLengthField f v) : f ≠ [] := by cases h <;> simp

theorem length_pos (h : IsLengthField f v) : 0 < f.length :=
  List.length_pos_of_ne_nil h.ne_nil

/-- A field of `n` digits stays below `128 ^ n`. -/
theorem lt_pow (h : IsLengthField f v) : v < 128 ^ f.length := by
  induction h with
  | last h => simpa using h
  | @more d f v _ _ ih =>
      have hd : d.toNat % 128 < 128 := Nat.mod_lt _ (by omega)
      rw [List.length_cons, pow_succ]
      omega

/-- Four digits carry at most 28 bits. -/
theorem lt_two_pow (h : IsLengthField f v) (h4 : f.length ≤ 4) : v < 2 ^ 28 :=
  h.lt_pow.trans_le (le_trans (Nat.pow_le_pow_right (by omega) h4) (by norm_num))

/-- **Length fields are self-delimiting**: of two fields that start the same bytes, both are the
same field. -/
theorem unique {r s : List UInt8} (h : IsLengthField f v) (h' : IsLengthField g w)
    (heq : f ++ r = g ++ s) : f = g ∧ v = w ∧ r = s := by
  induction h generalizing g w with
  | @last d hd =>
      cases h' with
      | last _ => simp_all
      | more hd' _ =>
          obtain ⟨rfl, -⟩ := List.cons.inj heq
          omega
  | @more d f v hd _ ih =>
      cases h' with
      | last hd' =>
          obtain ⟨rfl, -⟩ := List.cons.inj heq
          omega
      | more hd' hg =>
          obtain ⟨rfl, htail⟩ := List.cons.inj heq
          obtain ⟨rfl, rfl, rfl⟩ := ih hg htail
          exact ⟨rfl, rfl, rfl⟩

/-- One of the digits does not carry the continuation bit. -/
theorem exists_stop (h : IsLengthField f v) : ∃ d ∈ f, d.toNat < 128 := by
  induction h with
  | last h => exact ⟨_, List.mem_singleton_self _, h⟩
  | more _ _ ih =>
      obtain ⟨d, hd, hstop⟩ := ih
      exact ⟨d, List.mem_cons_of_mem _ hd, hstop⟩

end IsLengthField

/-- The shortest length field of a value. -/
def lengthField (v : ℕ) : List UInt8 :=
  if v < 128 then [UInt8.ofNat v] else (UInt8.ofNat (v % 128) ||| 0x80) :: lengthField (v / 128)
termination_by v
decreasing_by omega

theorem lengthField_of_lt {v : ℕ} (h : v < 128) : lengthField v = [UInt8.ofNat v] := by
  rw [lengthField, if_pos h]

theorem lengthField_of_le {v : ℕ} (h : 128 ≤ v) :
    lengthField v = (UInt8.ofNat (v % 128) ||| 0x80) :: lengthField (v / 128) := by
  rw [lengthField, if_neg (by omega)]

theorem isLengthField_lengthField (v : ℕ) : IsLengthField (lengthField v) v := by
  induction v using Nat.strong_induction_on with
  | _ v ih =>
    by_cases h : v < 128
    · have hd : (UInt8.ofNat v).toNat = v :=
        UInt8.toNat_ofNat_of_lt' (by simp only [UInt8.size]; omega)
      have hlast := IsLengthField.last (d := UInt8.ofNat v) (by rwa [hd])
      rwa [hd, ← lengthField_of_lt h] at hlast
    · have hd := toNat_ofNat_or_128 (Nat.mod_lt v (show 0 < 128 by omega))
      have hmore := IsLengthField.more (by omega) (ih (v / 128) (by omega))
        (d := UInt8.ofNat (v % 128) ||| 0x80)
      rw [hd] at hmore
      rw [lengthField_of_le (by omega)]
      convert hmore using 1
      omega

/-- A value in `[128 ^ k, 128 ^ (k + 1))` takes `k + 1` digits. -/
theorem length_lengthField : ∀ (k : ℕ) {v : ℕ}, (k = 0 ∨ 128 ^ k ≤ v) → v < 128 ^ (k + 1) →
    (lengthField v).length = k + 1
  | 0, v, _, hv => by rw [lengthField_of_lt (by simpa using hv)]; rfl
  | k + 1, v, hlo, hv => by
      have hlo' : 128 ^ (k + 1) ≤ v := hlo.resolve_left (by omega)
      have hpow : 0 < 128 ^ k := by positivity
      rw [pow_succ] at hlo' hv
      rw [lengthField_of_le (by omega), List.length_cons, length_lengthField k (Or.inr (by omega))
        (by omega)]

end Tr50.Machinery
