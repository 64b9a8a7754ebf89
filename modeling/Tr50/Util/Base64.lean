import Tr50.Machinery.Base64
import Tr50.Util.Memory

/-!
# Util/Base64 — the encoder of the proxy's credentials

`base64_encode` of `util/linux/linux.tcp_proxy.c`.  It computes the length of its result in `inlen`,
the variable that its loop then goes by: it reads as many bytes as the result is to have characters,
and writes the coding of those (`base64Encode_eq`), past the end of what it has been given and of
what it has allocated.
-/

namespace Tr50

open Machinery

/-- `g_base64_charset` -/
def base64Charset : List UInt8 :=
  "ABCDEFGHIJKLMNOPQRSTUVWXYZabcdefghijklmnopqrstuvwxyz0123456789+/".toList.map
    fun c => UInt8.ofNat c.toNat

/-- An entry of `g_base64_charset`. -/
def base64CharsetAt (output : UInt8) : UInt8 := base64Charset.getD output.toNat 0

/-- The six bits each of `output`. -/
def base64Output (input0 input1 input2 : UInt8) : List UInt8 :=
  [input0 >>> 2, ((input0 &&& 0x03) <<< 4) + (input1 >>> 4),
    ((input1 &&& 0x0f) <<< 2) + (input2 >>> 6), input2 &&& 0x3f]

/-- The loop of `base64_encode` and the padding behind it: what is stored in `tmp`, one character
after the other, with `inlen` bytes to be read from `input` on. -/
def base64Loop (mem : ℕ → UInt8) : (inlen input : ℕ) → List UInt8
  | 0, _ => []
  | 1, input =>
    ((base64Output (mem input) 0 0).take 2).map base64CharsetAt ++ [base64Pad, base64Pad]
  | 2, input =>
    ((base64Output (mem input) (mem (input + 1)) 0).take 3).map base64CharsetAt ++ [base64Pad]
  | inlen + 3, input =>
    (base64Output (mem input) (mem (input + 1)) (mem (input + 2))).map base64CharsetAt
      ++ base64Loop mem inlen (input + 3)

/-- What `base64_encode` does once it has its memory: how many bytes it reads and how many it has
allocated, and what it stores in front of the terminator. -/
structure Base64Run where
  read : ℕ
  outlen : ℤ
  text : List UInt8
deriving DecidableEq, Repr

/-- `base64_encode` of `inlen` bytes of the memory, where `malloc` gives what it is asked for;
`none` where the computation of the length leaves the `int`s. -/
def base64Encode (mem : ℕ → UInt8) (inlen : ℕ) : Option Base64Run := do
  let inlen ← intOf (inlen * 4)
  let inlen := inlen.tdiv 3
  let inlen ← intAdd inlen (4 - inlen.tmod 4)
  let outlen ← intAdd inlen 1
  return ⟨inlen.toNat, outlen, base64Loop mem inlen.toNat 0⟩

/-! ## The characters -/

theorem base64CharsetAt_of_lt : ∀ n : Fin 64, base64CharsetAt (UInt8.ofNat n) = base64Char n := by
  decide +kernel

theorem base64CharsetAt_eq {output : UInt8} {n : ℕ} (h : output.toNat = n) (hn : n < 64) :
    base64CharsetAt output = base64Char n := by
  have hofNat : output = UInt8.ofNat n := by rw [← h, UInt8.ofNat_toNat]
  rw [hofNat]
  exact base64CharsetAt_of_lt ⟨n, hn⟩

theorem toNat_shiftRight_two (a : UInt8) : (a >>> 2).toNat = a.toNat / 4 :=
  Nat.shiftRight_eq_div_pow a.toNat 2

theorem toNat_shiftRight_four (a : UInt8) : (a >>> 4).toNat = a.toNat / 16 :=
  Nat.shiftRight_eq_div_pow a.toNat 4

theorem toNat_shiftRight_six (a : UInt8) : (a >>> 6).toNat = a.toNat / 64 :=
  Nat.shiftRight_eq_div_pow a.toNat 6

theorem toNat_and_0x03 (a : UInt8) : (a &&& 0x03).toNat = a.toNat % 4 :=
  Nat.and_two_pow_sub_one_eq_mod a.toNat 2

theorem toNat_and_0x0f (a : UInt8) : (a &&& 0x0f).toNat = a.toNat % 16 :=
  Nat.and_two_pow_sub_one_eq_mod a.toNat 4

theorem toNat_and_0x3f (a : UInt8) : (a &&& 0x3f).toNat = a.toNat % 64 :=
  Nat.and_two_pow_sub_one_eq_mod a.toNat 6

theorem toNat_shiftLeft_of_lt {a : UInt8} {n : ℕ} (hn : n < 8) (h : a.toNat * 2 ^ n < 256) :
    (a <<< UInt8.ofNat n).toNat = a.toNat * 2 ^ n := by
  rw [UInt8.toNat_shiftLeft, UInt8.toNat_ofNat', Nat.mod_mod_of_dvd, Nat.mod_eq_of_lt hn,
    Nat.shiftLeft_eq, Nat.mod_eq_of_lt h]
  decide

/-- **The four characters of three bytes.** -/
theorem map_base64Output (a b c : UInt8) :
    (base64Output a b c).map base64CharsetAt =
      [base64Char (a.toNat / 4), base64Char (a.toNat % 4 * 16 + b.toNat / 16),
        base64Char (b.toNat % 16 * 4 + c.toNat / 64), base64Char (c.toNat % 64)] := by
  have ha := a.toNat_lt
  have hb := b.toNat_lt
  have hc := c.toNat_lt
  have h1 : (((a &&& 0x03) <<< 4) + (b >>> 4)).toNat = a.toNat % 4 * 16 + b.toNat / 16 := by
    have hshift : ((a &&& 0x03) <<< 4).toNat = a.toNat % 4 * 16 := by
      rw [← toNat_and_0x03]
      exact toNat_shiftLeft_of_lt (n := 4) (by decide) (by rw [toNat_and_0x03]; norm_num; omega)
    rw [UInt8.toNat_add, hshift, toNat_shiftRight_four, Nat.mod_eq_of_lt (by omega)]
  have h2 : (((b &&& 0x0f) <<< 2) + (c >>> 6)).toNat = b.toNat % 16 * 4 + c.toNat / 64 := by
    have hshift : ((b &&& 0x0f) <<< 2).toNat = b.toNat % 16 * 4 := by
      rw [← toNat_and_0x0f]
      exact toNat_shiftLeft_of_lt (n := 2) (by decide) (by rw [toNat_and_0x0f]; norm_num; omega)
    rw [UInt8.toNat_add, hshift, toNat_shiftRight_six, Nat.mod_eq_of_lt (by omega)]
  rw [base64Output, List.map_cons, List.map_cons, List.map_cons, List.map_cons, List.map_nil,
    base64CharsetAt_eq (toNat_shiftRight_two a) (by omega), base64CharsetAt_eq h1 (by omega),
    base64CharsetAt_eq h2 (by omega), base64CharsetAt_eq (toNat_and_0x3f c) (by omega)]

/-! ## What is read and what is written -/

/-- The bytes of the memory from `input` on. -/
def readBytes (mem : ℕ → UInt8) (input inlen : ℕ) : List UInt8 :=
  (List.range' input inlen).map mem

/-- **The loop writes the coding of what it reads.**  Induction along the loop, three bytes a
time. -/
theorem base64Loop_eq (mem : ℕ → UInt8) (inlen input : ℕ) :
    base64Loop mem inlen input = base64 (readBytes mem input inlen) := by
  induction inlen, input using base64Loop.induct with
  | case1 input => rfl
  | case2 input =>
    rw [base64Loop, List.map_take, map_base64Output]
    rfl
  | case3 input =>
    rw [base64Loop, List.map_take, map_base64Output]
    rfl
  | case4 inlen input ih =>
    rw [base64Loop, map_base64Output, ih]
    rfl

/-- The length the result is given: `n * 4 / 3` and up to the next multiple of four above it. -/
def base64Sizeof (n : ℕ) : ℕ := (n * 4 / 3 / 4 + 1) * 4

theorem lt_base64Sizeof (n : ℕ) : n < base64Sizeof n := by
  rw [base64Sizeof]
  omega

/-- **`base64_encode` goes by the length of its result**: it reads as many bytes as that and writes
their coding. -/
theorem base64Encode_eq (mem : ℕ → UInt8) {n : ℕ} {run : Base64Run}
    (h : base64Encode mem n = some run) :
    run = ⟨base64Sizeof n, base64Sizeof n + 1, base64 (readBytes mem 0 (base64Sizeof n))⟩ := by
  simp only [base64Encode, bind, Option.bind_eq_some_iff, pure, Option.some.injEq] at h
  obtain ⟨len, hlen, len', hlen', outlen, hout, rfl⟩ := h
  have hpos : (0 : ℤ) ≤ n * 4 := by omega
  rw [intOf_eq_some hlen, Int.tdiv_eq_ediv_of_nonneg hpos,
    Int.tmod_eq_emod_of_nonneg (Int.ediv_nonneg hpos (by decide))] at hlen'
  have hsize : len' = base64Sizeof n := by
    rw [intAdd_eq_some hlen', base64Sizeof]
    omega
  rw [intAdd_eq_some hout, hsize, Int.toNat_natCast, base64Loop_eq]

/-! ## The credentials are not coded -/

/-- The purpose: exactly the bytes given are read, the text is their coding, and it and its
terminator fit into what was allocated. -/
def Encodes (mem : ℕ → UInt8) (n : ℕ) : Prop :=
  ∃ run, base64Encode mem n = some run ∧ run.read = n ∧
    run.text = base64 (readBytes mem 0 n) ∧ (run.text.length + 1 : ℤ) ≤ run.outlen

/-- **Whatever it is given, more is read than that and more is written than there is room for.** -/
theorem base64Encode_overruns (mem : ℕ → UInt8) {n : ℕ} {run : Base64Run}
    (h : base64Encode mem n = some run) : n < run.read ∧ run.outlen < run.text.length + 1 := by
  rw [base64Encode_eq mem h]
  refine ⟨lt_base64Sizeof n, ?_⟩
  rw [length_base64, readBytes, List.length_map, List.length_range', base64Sizeof]
  push_cast
  omega

theorem not_encodes (mem : ℕ → UInt8) (n : ℕ) : ¬ Encodes mem n := by
  rintro ⟨run, hrun, hread, -, -⟩
  exact absurd hread (base64Encode_overruns mem hrun).1.ne'

/-- `a:b` in a memory of letters: eight bytes are read, and twelve characters and the terminator
written where nine bytes were allocated. -/
theorem not_encodes_credentials : ¬ ∀ (mem : ℕ → UInt8) (n : ℕ), Encodes mem n := by
  intro h
  obtain ⟨run, hrun, -, -, hfits⟩ := h (fun _ => 97) 3
  have hrun' : base64Encode (fun _ => 97) 3 = some ⟨8, 9, base64 (List.replicate 8 97)⟩ := by decide
  rw [hrun', Option.some.injEq] at hrun
  subst hrun
  exact absurd hfits (by decide)

end Tr50
