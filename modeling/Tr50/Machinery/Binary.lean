import Mathlib.Data.Int.Log
import Mathlib.Data.Rat.Floor
import Mathlib.Tactic

/-!
# Machinery/Binary — binary floating point

Numbers `m * 2 ^ e` with a significand `m` of bounded size, and the rounding of any rational to the
nearest of them, a tie to the even significand.  The value of a float is a rational, an infinity or
no number at all; a zero has no sign.

A representable number is rounded to itself (`roundTo_of_representable`), and what comes out of a
rounding is representable (`representable_roundTo`).
-/

namespace Tr50.Machinery

/-- Significands of `precision` bits, exponents from `emin` on, magnitudes below `2 ^ emax`. -/
structure BinaryFormat where
  precision : ℕ
  emin : ℤ
  emax : ℤ
  precision_pos : 0 < precision

def binary64 : BinaryFormat := ⟨53, -1074, 1024, by decide⟩

/-- The numbers with a significand of the format, whatever their magnitude. -/
def Representable (F : BinaryFormat) (q : ℚ) : Prop :=
  ∃ m e : ℤ, |m| < 2 ^ F.precision ∧ F.emin ≤ e ∧ q = m * 2 ^ e

/-- The nearest integer, of two the even one. -/
def roundHalfEven (q : ℚ) : ℤ :=
  if q - ⌊q⌋ < 1 / 2 ∨ q - ⌊q⌋ = 1 / 2 ∧ Even ⌊q⌋ then ⌊q⌋ else ⌊q⌋ + 1

/-- The exponent at which a number has `precision` bits. -/
def exponentOf (F : BinaryFormat) (q : ℚ) : ℤ := max (Int.log 2 |q| + 1 - F.precision) F.emin

/-- The nearest number with a significand of the format. -/
def roundTo (F : BinaryFormat) (q : ℚ) : ℚ :=
  roundHalfEven (q / 2 ^ exponentOf F q) * 2 ^ exponentOf F q

/-- A float. -/
inductive BinaryFloat
  | finite (q : ℚ)
  | infinite (negative : Bool)
  | nan
deriving DecidableEq

namespace BinaryFloat

/-- The float of a rational: too large a number is infinite. -/
def ofRat (F : BinaryFormat) (q : ℚ) : BinaryFloat :=
  if 2 ^ F.emax ≤ |roundTo F q| then .infinite (q < 0) else .finite (roundTo F q)

def mul (F : BinaryFormat) : BinaryFloat → BinaryFloat → BinaryFloat
  | .finite a, .finite b => ofRat F (a * b)
  | .finite a, .infinite n => if a = 0 then .nan else .infinite (xor (a < 0) n)
  | .infinite n, .finite b => if b = 0 then .nan else .infinite (xor n (b < 0))
  | .infinite m, .infinite n => .infinite (xor m n)
  | _, _ => .nan

def add (F : BinaryFormat) : BinaryFloat → BinaryFloat → BinaryFloat
  | .finite a, .finite b => ofRat F (a + b)
  | .finite _, .infinite n => .infinite n
  | .infinite n, .finite _ => .infinite n
  | .infinite m, .infinite n => if m = n then .infinite m else .nan
  | _, _ => .nan

def neg : BinaryFloat → BinaryFloat
  | .finite q => .finite (-q)
  | .infinite n => .infinite !n
  | .nan => .nan

def sub (F : BinaryFormat) (a b : BinaryFloat) : BinaryFloat := add F a (neg b)

def abs : BinaryFloat → BinaryFloat
  | .finite q => .finite |q|
  | .infinite _ => .infinite false
  | .nan => .nan

def floor : BinaryFloat → BinaryFloat
  | .finite q => .finite ⌊q⌋
  | x => x

/-- `<=`, which is false of what is no number. -/
def le : BinaryFloat → BinaryFloat → Bool
  | .finite a, .finite b => a ≤ b
  | .infinite m, .finite _ => m
  | .finite _, .infinite n => !n
  | .infinite m, .infinite n => m || !n
  | _, _ => false

def lt (a b : BinaryFloat) : Bool := le a b && !le b a

/-- The integer part, if it is from `lo` up to below `hi`. -/
def toInteger (lo hi : ℤ) : BinaryFloat → Option ℤ
  | .finite q =>
    let n := if 0 ≤ q then ⌊q⌋ else ⌈q⌉
    if lo ≤ n ∧ n < hi then some n else none
  | _ => none

end BinaryFloat

/-! ## Rounding to an integer -/

theorem floor_le_roundHalfEven (q : ℚ) : ⌊q⌋ ≤ roundHalfEven q := by
  unfold roundHalfEven
  split_ifs <;> omega

theorem roundHalfEven_le_ceil (q : ℚ) : roundHalfEven q ≤ ⌈q⌉ := by
  unfold roundHalfEven
  split_ifs with h
  · exact Int.floor_le_ceil q
  · refine Int.add_one_le_of_lt (Int.lt_ceil.mpr ?_)
    refine lt_of_le_of_ne (Int.floor_le q) fun hq => h (Or.inl ?_)
    rw [hq, sub_self]
    norm_num

theorem roundHalfEven_intCast (n : ℤ) : roundHalfEven n = n := by
  refine le_antisymm ?_ ?_
  · exact (roundHalfEven_le_ceil _).trans (Int.ceil_intCast n).le
  · exact (Int.floor_intCast n).ge.trans (floor_le_roundHalfEven _)

theorem abs_roundHalfEven_le {q : ℚ} {n : ℤ} (h : |q| ≤ n) : |roundHalfEven q| ≤ n := by
  obtain ⟨hlo, hhi⟩ := abs_le.mp h
  refine abs_le.mpr ⟨?_, (roundHalfEven_le_ceil q).trans (Int.ceil_le.mpr hhi)⟩
  refine le_trans (Int.le_floor.mpr ?_) (floor_le_roundHalfEven q)
  push_cast
  exact hlo

/-! ## Rounding to a significand -/

section Rounding

variable (F : BinaryFormat) {q : ℚ}

theorem abs_div_exponentOf_le (q : ℚ) : |q / 2 ^ exponentOf F q| ≤ ((2 ^ F.precision : ℤ) : ℚ) := by
  have hpos : (0 : ℚ) < 2 ^ exponentOf F q := by positivity
  rw [abs_div, abs_of_pos hpos, div_le_iff₀ hpos]
  have hlog : |q| < (2 : ℚ) ^ (Int.log 2 |q| + 1) := by
    exact_mod_cast Int.lt_zpow_succ_log_self (b := 2) (by decide) |q|
  refine hlog.le.trans ?_
  push_cast
  rw [← zpow_natCast, ← zpow_add₀ (by norm_num)]
  refine zpow_le_zpow_right₀ (by norm_num) ?_
  have := le_max_left (Int.log 2 |q| + 1 - F.precision) F.emin
  rw [exponentOf]
  omega

/-- **What comes out of a rounding is representable.** -/
theorem representable_roundTo (q : ℚ) : Representable F (roundTo F q) := by
  have hle := abs_roundHalfEven_le (abs_div_exponentOf_le F q)
  have hemin : F.emin ≤ exponentOf F q := le_max_right _ _
  unfold roundTo
  generalize roundHalfEven (q / 2 ^ exponentOf F q) = m at hle ⊢
  generalize exponentOf F q = e at hemin
  rcases hle.lt_or_eq with hlt | heq
  · exact ⟨m, e, hlt, hemin, rfl⟩
  · -- the rounding has gone up to the next power of two
    obtain ⟨p, hp⟩ : ∃ p, F.precision = p + 1 :=
      Nat.exists_eq_succ_of_ne_zero F.precision_pos.ne'
    rw [hp, pow_succ] at heq
    obtain ⟨k, rfl⟩ : ∃ k, m = k * 2 := by
      rcases abs_choice m with h | h <;> rw [h] at heq
      · exact ⟨2 ^ p, heq⟩
      · exact ⟨-2 ^ p, by linarith⟩
    refine ⟨k, e + 1, ?_, by omega, ?_⟩
    · rw [abs_mul] at heq
      rw [hp, pow_succ]
      have : (0 : ℤ) < 2 ^ p := by positivity
      norm_num at heq
      omega
    · rw [zpow_add₀ (by norm_num), zpow_one]
      push_cast
      ring

/-- The exponent of a representable number is not above that of its significand. -/
theorem exponentOf_le {m k : ℤ} (hm0 : m ≠ 0) (hm : |m| < 2 ^ F.precision) (hk : F.emin ≤ k) :
    exponentOf F (m * 2 ^ k) ≤ k := by
  have hpow : (0 : ℚ) < 2 ^ k := by positivity
  have habs : |(m * 2 ^ k : ℚ)| = |(m : ℚ)| * 2 ^ k := by rw [abs_mul, abs_of_pos hpow]
  have hpos : 0 < |(m * 2 ^ k : ℚ)| := by
    rw [habs]
    have : (m : ℚ) ≠ 0 := by exact_mod_cast hm0
    positivity
  have hlog : (2 : ℚ) ^ Int.log 2 |(m * 2 ^ k : ℚ)| ≤ |(m * 2 ^ k : ℚ)| := by
    exact_mod_cast Int.zpow_log_le_self (b := 2) (by decide) hpos
  have hlt : |(m * 2 ^ k : ℚ)| < 2 ^ (F.precision + k) := by
    rw [habs, zpow_add₀ (by norm_num), zpow_natCast]
    exact mul_lt_mul_of_pos_right (by exact_mod_cast hm) hpow
  have hexp := (zpow_lt_zpow_iff_right₀ (by norm_num)).mp (hlog.trans_lt hlt)
  rw [exponentOf]
  omega

/-- **A representable number is rounded to itself.** -/
theorem roundTo_of_representable (h : Representable F q) : roundTo F q = q := by
  obtain ⟨m, k, hm, hk, rfl⟩ := h
  obtain ⟨n, hn⟩ : ∃ n : ℤ, (m * 2 ^ k : ℚ) / 2 ^ exponentOf F (m * 2 ^ k) = n := by
    rcases eq_or_ne m 0 with rfl | hm0
    · exact ⟨0, by simp⟩
    · have hle := exponentOf_le F hm0 hm hk
      obtain ⟨j, hj⟩ := Int.eq_ofNat_of_zero_le (sub_nonneg.mpr hle)
      refine ⟨m * 2 ^ j, ?_⟩
      rw [mul_div_assoc, ← zpow_sub₀ (by norm_num), hj]
      push_cast
      rw [zpow_natCast]
  rw [roundTo, hn, roundHalfEven_intCast, ← hn, div_mul_cancel₀]
  positivity

/-- **An integer is rounded to an integer.** -/
theorem roundTo_intCast (n : ℤ) : ∃ v : ℤ, roundTo F n = v := by
  by_cases he : exponentOf F n ≤ 0
  · obtain ⟨j, hj⟩ := Int.eq_ofNat_of_zero_le (neg_nonneg.mpr he)
    have hscaled : (n : ℚ) / 2 ^ exponentOf F n = ((n * 2 ^ j : ℤ) : ℚ) := by
      rw [div_eq_mul_inv, ← zpow_neg, hj]
      push_cast
      rw [zpow_natCast]
    refine ⟨n, ?_⟩
    rw [roundTo, hscaled, roundHalfEven_intCast, ← hscaled, div_mul_cancel₀]
    positivity
  · obtain ⟨j, hj⟩ := Int.eq_ofNat_of_zero_le (not_le.mp he).le
    refine ⟨roundHalfEven (n / 2 ^ exponentOf F n) * 2 ^ j, ?_⟩
    rw [roundTo, hj]
    push_cast
    rw [zpow_natCast]

theorem roundTo_nonneg (h : 0 ≤ q) : 0 ≤ roundTo F q := by
  have hfloor : 0 ≤ ⌊q / 2 ^ exponentOf F q⌋ := Int.floor_nonneg.mpr (by positivity)
  have hround := hfloor.trans (floor_le_roundHalfEven _)
  unfold roundTo
  have : (0 : ℚ) ≤ roundHalfEven (q / 2 ^ exponentOf F q) := by exact_mod_cast hround
  positivity

/-- A rounding does not go past a power of two. -/
theorem abs_roundTo_le {k : ℤ} (h0 : q ≠ 0) (h : |q| < 2 ^ k) (hk : F.precision + F.emin ≤ k) :
    |roundTo F q| ≤ 2 ^ k := by
  have hlog : (2 : ℚ) ^ Int.log 2 |q| ≤ |q| := by
    exact_mod_cast Int.zpow_log_le_self (b := 2) (by decide) (abs_pos.mpr h0)
  have hexp := (zpow_lt_zpow_iff_right₀ (by norm_num)).mp (hlog.trans_lt h)
  have hle : exponentOf F q ≤ k - F.precision := by
    rw [exponentOf]
    omega
  have hround : |(roundHalfEven (q / 2 ^ exponentOf F q) : ℚ)| ≤ 2 ^ F.precision := by
    exact_mod_cast abs_roundHalfEven_le (abs_div_exponentOf_le F q)
  have hpos : (0 : ℚ) < 2 ^ exponentOf F q := by positivity
  rw [roundTo, abs_mul, abs_of_pos hpos]
  calc |(roundHalfEven (q / 2 ^ exponentOf F q) : ℚ)| * 2 ^ exponentOf F q
      ≤ 2 ^ F.precision * 2 ^ (k - F.precision) :=
        mul_le_mul hround (zpow_le_zpow_right₀ (by norm_num) hle) hpos.le (by positivity)
    _ = 2 ^ k := by
        rw [← zpow_natCast, ← zpow_add₀ (by norm_num)]
        congr 1
        omega

end Rounding

section Representable

variable {F : BinaryFormat} {q : ℚ}

theorem Representable.neg (h : Representable F q) : Representable F (-q) := by
  obtain ⟨m, e, hm, he, rfl⟩ := h
  exact ⟨-m, e, by rwa [abs_neg], he, by push_cast; ring⟩

/-- **A number of the format is a float.** -/
theorem ofRat_of_representable (h : Representable F q) (hmax : |q| < 2 ^ F.emax) :
    BinaryFloat.ofRat F q = .finite q := by
  rw [BinaryFloat.ofRat, roundTo_of_representable F h, if_neg (not_le.mpr hmax)]

/-- The integers of a format: a significand and zeros behind it. -/
theorem representable_intCast_iff (hemin : F.emin ≤ 0) (n : ℤ) :
    Representable F n ↔ ∃ (m : ℤ) (k : ℕ), |m| < 2 ^ F.precision ∧ n = m * 2 ^ k := by
  constructor
  · rintro ⟨m, e, hm, -, hn⟩
    rcases le_or_gt 0 e with he | he
    · obtain ⟨k, rfl⟩ := Int.eq_ofNat_of_zero_le he
      exact ⟨m, k, hm, by exact_mod_cast hn⟩
    · obtain ⟨k, hk⟩ := Int.eq_ofNat_of_zero_le (neg_nonneg.mpr he.le)
      obtain rfl : e = -k := by omega
      have hm' : m = n * 2 ^ k := by
        have : (m : ℚ) = n * 2 ^ k := by
          rw [hn, zpow_neg, zpow_natCast]
          field_simp
        exact_mod_cast this
      refine ⟨n, 0, lt_of_le_of_lt ?_ hm, by rw [pow_zero, mul_one]⟩
      rw [hm', abs_mul]
      exact le_mul_of_one_le_right (abs_nonneg n) (Int.one_le_abs (by positivity))
  · rintro ⟨m, k, hm, rfl⟩
    exact ⟨m, k, hm, hemin.trans (Int.natCast_nonneg k), by push_cast; rfl⟩

end Representable

end Tr50.Machinery
