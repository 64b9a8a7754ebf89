import Mathlib.Tactic

/-!
# Machinery/Decimal — numbers as text

Decimal digits, most significant first, and the text of an integer.  A number reads back from its
digits (`decimalValue_digits`).
-/

namespace Tr50.Machinery

/-- Decimal digits. -/
def IsDecimal (digits : List UInt8) : Prop := digits ≠ [] ∧ ∀ c ∈ digits, 48 ≤ c ∧ c ≤ 57

/-- A value with one more digit behind it. -/
def decimalStep (n : ℕ) (c : UInt8) : ℕ := 10 * n + (c - 48).toNat

/-- The value of a row of digits. -/
def decimalValue (digits : List UInt8) : ℕ := digits.foldl decimalStep 0

/-- The digits of a number. -/
def decimalDigits (n : ℕ) : List UInt8 :=
  if n < 10 then [UInt8.ofNat (48 + n)]
  else decimalDigits (n / 10) ++ [UInt8.ofNat (48 + n % 10)]
termination_by n
decreasing_by omega

/-- The text of an integer. -/
def decimalText (n : ℤ) : List UInt8 :=
  if n < 0 then 45 :: decimalDigits n.natAbs else decimalDigits n.natAbs

theorem decimalDigits_of_lt {n : ℕ} (h : n < 10) : decimalDigits n = [UInt8.ofNat (48 + n)] := by
  rw [decimalDigits, if_pos h]

theorem decimalDigits_of_le {n : ℕ} (h : 10 ≤ n) :
    decimalDigits n = decimalDigits (n / 10) ++ [UInt8.ofNat (48 + n % 10)] := by
  rw [decimalDigits, if_neg (by omega)]

theorem length_decimalDigits_le {k : ℕ} (hk : 0 < k) {n : ℕ} (h : n < 10 ^ k) :
    (decimalDigits n).length ≤ k := by
  induction k generalizing n with
  | zero => omega
  | succ k ih =>
    by_cases hn : n < 10
    · rw [decimalDigits_of_lt hn, List.length_singleton]
      omega
    · have hpos : 0 < k := by
        rcases k.eq_zero_or_pos with rfl | hpos
        · omega
        · exact hpos
      have hhigh := ih hpos (n := n / 10) (by rw [pow_succ] at h; omega)
      rw [decimalDigits_of_le (not_lt.mp hn), List.length_append, List.length_singleton]
      omega

/-- The character of a digit. -/
theorem digit_char {d : ℕ} (h : d < 10) :
    48 ≤ UInt8.ofNat (48 + d) ∧ UInt8.ofNat (48 + d) ≤ 57 ∧
      (UInt8.ofNat (48 + d) - 48).toNat = d := by
  have hall : ∀ d : Fin 10, 48 ≤ UInt8.ofNat (48 + d) ∧ UInt8.ofNat (48 + d) ≤ 57 ∧
      (UInt8.ofNat (48 + d) - 48).toNat = d := by decide
  exact hall ⟨d, h⟩

/-- The digits of a number are digits… -/
theorem isDecimal_digits (n : ℕ) : IsDecimal (decimalDigits n) := by
  induction n using Nat.strong_induction_on with
  | _ n ih =>
    by_cases hn : n < 10
    · rw [decimalDigits_of_lt hn]
      refine ⟨List.cons_ne_nil _ _, fun c hc => ?_⟩
      obtain rfl := List.mem_singleton.mp hc
      exact ⟨(digit_char hn).1, (digit_char hn).2.1⟩
    · have hd : n % 10 < 10 := Nat.mod_lt _ (by decide)
      rw [decimalDigits_of_le (not_lt.mp hn)]
      refine ⟨by simp, fun c hc => ?_⟩
      rcases List.mem_append.mp hc with hc | hc
      · exact (ih (n / 10) (by omega)).2 c hc
      · obtain rfl := List.mem_singleton.mp hc
        exact ⟨(digit_char hd).1, (digit_char hd).2.1⟩

/-- **…and read as that number.** -/
theorem decimalValue_digits (n : ℕ) : decimalValue (decimalDigits n) = n := by
  induction n using Nat.strong_induction_on with
  | _ n ih =>
    by_cases hn : n < 10
    · rw [decimalDigits_of_lt hn, decimalValue, List.foldl_cons, List.foldl_nil, decimalStep,
        (digit_char hn).2.2]
      omega
    · have hhigh := ih (n / 10) (by omega)
      rw [decimalValue] at hhigh
      rw [decimalDigits_of_le (not_lt.mp hn), decimalValue, List.foldl_append, hhigh,
        List.foldl_cons, List.foldl_nil, decimalStep, (digit_char (Nat.mod_lt _ (by decide))).2.2]
      omega

/-- A positive number does not begin with a zero. -/
theorem head_digits {n : ℕ} (h : 0 < n) : ∃ c digits, decimalDigits n = c :: digits ∧ 49 ≤ c := by
  induction n using Nat.strong_induction_on with
  | _ n ih =>
    by_cases hn : n < 10
    · have hall : ∀ d : Fin 10, 0 < d.1 → 49 ≤ UInt8.ofNat (48 + d) := by decide
      exact ⟨_, [], decimalDigits_of_lt hn, hall ⟨n, hn⟩ h⟩
    · obtain ⟨c, digits, hdigits, hc⟩ := ih (n / 10) (by omega) (by omega)
      refine ⟨c, digits ++ [UInt8.ofNat (48 + n % 10)], ?_, hc⟩
      rw [decimalDigits_of_le (not_lt.mp hn), hdigits, List.cons_append]

end Tr50.Machinery
