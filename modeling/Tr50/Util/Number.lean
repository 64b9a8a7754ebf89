import Tr50.Machinery.Binary
import Tr50.Machinery.Decimal
import Tr50.Util.Json
import Tr50.Util.Memory

/-!
# Util/Number — the numbers of the JSON module

`parse_number`, `print_number` and what goes with them in `tr50.json.c`.  A number is kept four
times over, as a `double` and as three integers.  An integer is read digit by digit into a
`long long`, and then multiplied by its sign, which is a `double`: it comes back rounded to 53 bits
(`roundTrips_iff`).
-/

namespace Tr50

open Machinery

/-! ## Doubles -/

/-- `double` -/
abbrev Double := BinaryFloat

/-- An integer converted to a `double`. -/
def toDouble (n : ℤ) : Double := .ofRat binary64 n

/-- `DBL_EPSILON` -/
def dblEpsilon : Double := .finite (2 ^ (-52 : ℤ))

/-- `pow(10.0, k)` -/
def pow10 (k : ℤ) : Double := .ofRat binary64 (10 ^ k)

/-- The value of a `long long` expression. -/
def longOf (n : ℤ) : Option ℤ := if -2 ^ 63 ≤ n ∧ n < 2 ^ 63 then some n else none

/-- A `double` converted to a `long long`; out of its range that is undefined. -/
def toLongLong (d : Double) : Option ℤ := d.toInteger (-2 ^ 63) (2 ^ 63)

/-! ## The number of an item -/

/-- What a `JSON` item of type `JSON_NUMBER` keeps. -/
structure JsonNumber where
  valuedouble : Double
  valueint : ℤ
  valueuint : ℤ
  valuelonglong : ℤ

/-- `tr50_json_create_integer` -/
def tr50JsonCreateInteger (num : ℤ) : JsonNumber where
  valuedouble := toDouble num
  valueint := toInt32 num
  valueuint := num % 2 ^ 32
  valuelonglong := num

/-! ## Reading -/

/-- The digits of an integer, and the text behind them. -/
def parseInteger : (ln : ℤ) → List UInt8 → Option (ℤ × List UInt8)
  | ln, [] => some (ln, [])
  | ln, c :: num =>
    if isDigit c then
      (longOf (ln * 10)).bind fun ln => (longOf (ln + (signedChar c - 48))).bind fun ln =>
        parseInteger ln num
    else some (ln, c :: num)

/-- One character of a fraction. -/
def fractionStep (n : Double) (c : UInt8) : Double :=
  .add binary64 (.mul binary64 n (.finite 10)) (.finite (signedChar c - 48))

/-- The digits of a fraction, and the text behind them. -/
def parseFraction : (n : Double) → (scale : ℤ) → List UInt8 → Double × ℤ × List UInt8
  | n, scale, [] => (n, scale, [])
  | n, scale, c :: num =>
    if isDigit c then parseFraction (fractionStep n c) (scale - 1) num else (n, scale, c :: num)

/-- The digits of an exponent, and the text behind them. -/
def parseExponent : (subscale : ℤ) → List UInt8 → Option (ℤ × List UInt8)
  | subscale, [] => some (subscale, [])
  | subscale, c :: num =>
    if isDigit c then
      (intOf (subscale * 10)).bind fun subscale => (intOf (subscale + (signedChar c - 48))).bind
        fun subscale => parseExponent subscale num
    else some (subscale, c :: num)

/-- The integer in front: its sign, its value and the text behind it. -/
def numberInteger (num : List UInt8) : Option (ℤ × ℤ × List UInt8) :=
  let (sign, num) := if deref num = ch '-' then (-1, num.tail) else (1, num)
  let num := if deref num = ch '0' then num.tail else num
  if ch '1' ≤ deref num ∧ deref num ≤ ch '9' then
    (parseInteger 0 num).map fun (ln, num) => (sign, ln, num)
  else some (sign, 0, num)

/-- The fraction: whether there is one, the `double` with it, its scale and the text behind it. -/
def numberFraction (n : Double) (num : List UInt8) : Bool × Double × ℤ × List UInt8 :=
  if deref num = ch '.' then
    -- the character behind the point is not looked at
    let num := num.tail
    let (n, scale, num) := parseFraction (fractionStep n (deref num)) (-1) num.tail
    (true, n, scale, num)
  else (false, n, 0, num)

/-- The exponent: whether there is one, its value and the text behind it. -/
def numberExponent (num : List UInt8) : Option (Bool × ℤ × List UInt8) :=
  if deref num = ch 'e' ∨ deref num = ch 'E' then
    let num := num.tail
    let (signsubscale, num) :=
      if deref num = ch '+' then (1, num.tail)
      else if deref num = ch '-' then (-1, num.tail) else (1, num)
    (parseExponent 0 num).map fun (subscale, num) => (true, subscale * signsubscale, num)
  else some (false, 0, num)

/-- The values of an item: those of the integer where there is nothing else, or of the `double`. -/
def numberValues (flag : Bool) (ln : ℤ) (n : Double) : Option JsonNumber :=
  if flag = false then some ⟨n, toInt32 ln, ln % 2 ^ 32, ln⟩
  else do
    let valueint ← n.toInteger (-2 ^ 31) (2 ^ 31)
    let valuelonglong ← toLongLong n
    let valueuint ← n.toInteger 0 (2 ^ 32)
    return ⟨n, valueint, valueuint, valuelonglong⟩

/-- `parse_number`: the number and the text behind it. -/
def parseNumberItem (num : List UInt8) : Option (JsonNumber × List UInt8) := do
  let (sign, ln, num) ← numberInteger num
  let (fraction, n, scale, num) := numberFraction (toDouble ln) num
  let (exponent, subscale, num) ← numberExponent num
  let ln ← toLongLong (.mul binary64 (.finite sign) (toDouble ln))
  let n := BinaryFloat.mul binary64 (.mul binary64 (.finite sign) n) (pow10 (scale + subscale))
  let item ← numberValues (fraction || exponent) ln n
  return (item, num)

/-! ## Printing -/

/-- `print_number`; `sprintf` is what the library makes of a `double` with the format. -/
def printNumber (sprintf : List Char → Double → List UInt8) (item : JsonNumber) : List UInt8 :=
  let d := item.valuedouble
  if (BinaryFloat.sub binary64 (toDouble item.valuelonglong) d).abs.le dblEpsilon then
    decimalText item.valuelonglong
  else if (BinaryFloat.sub binary64 d.floor d).abs.le dblEpsilon then sprintf ['%', '.', '0', 'f'] d
  else if d.abs.lt (.ofRat binary64 (1 / 10 ^ 6)) || (BinaryFloat.finite (10 ^ 9)).lt d.abs then
    sprintf ['%', 'e'] d
  else sprintf ['%', 'f'] d

/-! ## The look-up -/

/-- `tr50_json_get_object_item_as_longlong`: NULL, or the value of the item as `parse_number` has
left it. -/
def tr50JsonGetObjectItemAsLonglong (object : Option Json) (string : List UInt8) :
    Option (Option ℤ) :=
  match tr50JsonGetObjectItem object string with
  | some (.number text) => (parseNumberItem text).map fun (item, _) => some item.valuelonglong
  | _ => some none

/-! ## The text that is read -/

theorem parseInteger_rest {num rest : List UInt8} {ln v : ℤ}
    (h : parseInteger ln num = some (v, rest)) : rest = skipDigits num := by
  induction num generalizing ln with
  | nil =>
    obtain ⟨-, rfl⟩ := Prod.mk.inj (Option.some.inj h)
    rfl
  | cons c num ih =>
    rw [parseInteger] at h
    split_ifs at h with hc
    · obtain ⟨_, -, h⟩ := Option.bind_eq_some_iff.mp h
      obtain ⟨_, -, h⟩ := Option.bind_eq_some_iff.mp h
      rw [ih h, skipDigits, skipDigits, List.dropWhile_cons_of_pos hc]
    · obtain ⟨-, rfl⟩ := Prod.mk.inj (Option.some.inj h)
      rw [skipDigits, List.dropWhile_cons_of_neg hc]

theorem parseFraction_rest (num : List UInt8) (n : Double) (scale : ℤ) :
    (parseFraction n scale num).2.2 = skipDigits num := by
  induction num generalizing n scale with
  | nil => rfl
  | cons c num ih =>
    rw [parseFraction]
    split_ifs with hc
    · rw [ih, skipDigits, skipDigits, List.dropWhile_cons_of_pos hc]
    · rw [skipDigits, List.dropWhile_cons_of_neg hc]

theorem parseExponent_rest {num rest : List UInt8} {subscale v : ℤ}
    (h : parseExponent subscale num = some (v, rest)) : rest = skipDigits num := by
  induction num generalizing subscale with
  | nil =>
    obtain ⟨-, rfl⟩ := Prod.mk.inj (Option.some.inj h)
    rfl
  | cons c num ih =>
    rw [parseExponent] at h
    split_ifs at h with hc
    · obtain ⟨_, -, h⟩ := Option.bind_eq_some_iff.mp h
      obtain ⟨_, -, h⟩ := Option.bind_eq_some_iff.mp h
      rw [ih h, skipDigits, skipDigits, List.dropWhile_cons_of_pos hc]
    · obtain ⟨-, rfl⟩ := Prod.mk.inj (Option.some.inj h)
      rw [skipDigits, List.dropWhile_cons_of_neg hc]

/-- A digit in front is one of those that are skipped. -/
theorem skipDigits_tail {num : List UInt8} (h : ch '1' ≤ deref num ∧ deref num ≤ ch '9') :
    skipDigits num = skipDigits num.tail := by
  cases num with
  | nil => exact absurd h (by decide)
  | cons c num =>
    have hdigit : isDigit c := by
      simp only [isDigit, decide_eq_true_eq]
      exact ⟨UInt8.le_trans (by decide : ch '0' ≤ ch '1') h.1, h.2⟩
    rw [skipDigits, List.dropWhile_cons_of_pos hdigit, List.tail_cons, skipDigits]

theorem numberInteger_rest {num rest : List UInt8} {sign ln : ℤ}
    (h : numberInteger num = some (sign, ln, rest)) : rest = integerRest num := by
  have hdigits : ∀ {sign' : ℤ} {num : List UInt8}, (if ch '1' ≤ deref num ∧ deref num ≤ ch '9' then
      (parseInteger 0 num).map fun (ln, num) => (sign', ln, num) else some (sign', 0, num))
        = some (sign, ln, rest) →
      rest = if ch '1' ≤ deref num ∧ deref num ≤ ch '9' then skipDigits num.tail else num := by
    intro sign' num h
    split_ifs at h ⊢ with hd
    · obtain ⟨⟨v, rest'⟩, hparse, hpair⟩ := Option.map_eq_some_iff.mp h
      obtain ⟨-, -, rfl⟩ : sign' = sign ∧ v = ln ∧ rest' = rest := by simpa using hpair
      rw [parseInteger_rest hparse, skipDigits_tail hd]
    · simp only [Option.some.injEq, Prod.mk.injEq] at h
      exact h.2.2.symm
  simp only [numberInteger] at h
  rw [integerRest]
  by_cases hminus : deref num = ch '-'
  · simp only [if_pos hminus] at h ⊢
    exact hdigits h
  · simp only [if_neg hminus] at h ⊢
    exact hdigits h

theorem numberFraction_rest (n : Double) (num : List UInt8) :
    (numberFraction n num).2.2.2 = fractionRest num := by
  simp only [numberFraction, fractionRest]
  split_ifs
  · rw [parseFraction_rest, ← List.drop_one, ← List.drop_one, List.drop_drop]
  · rfl

theorem numberExponent_rest {num rest : List UInt8} {exponent : Bool} {subscale : ℤ}
    (h : numberExponent num = some (exponent, subscale, rest)) : rest = exponentRest num := by
  have hdigits : ∀ {sign : ℤ} {num : List UInt8}, ((parseExponent 0 num).map fun (subscale, num) =>
      (true, subscale * sign, num)) = some (exponent, subscale, rest) → rest = skipDigits num := by
    intro sign num h
    obtain ⟨⟨v, rest'⟩, hparse, hpair⟩ := Option.map_eq_some_iff.mp h
    obtain ⟨-, -, rfl⟩ : true = exponent ∧ v * sign = subscale ∧ rest' = rest := by
      simpa using hpair
    exact parseExponent_rest hparse
  simp only [numberExponent] at h
  rw [exponentRest]
  by_cases he : deref num = ch 'e' ∨ deref num = ch 'E'
  · rw [if_pos he] at h ⊢
    by_cases hplus : deref num.tail = ch '+'
    · rw [if_pos (Or.inl hplus)]
      simp only [if_pos hplus] at h
      exact hdigits h
    · by_cases hminus : deref num.tail = ch '-'
      · rw [if_pos (Or.inr hminus)]
        simp only [if_neg hplus, if_pos hminus] at h
        exact hdigits h
      · rw [if_neg (not_or.mpr ⟨hplus, hminus⟩)]
        simp only [if_neg hplus, if_neg hminus] at h
        exact hdigits h
  · rw [if_neg he] at h ⊢
    simp only [Option.some.injEq, Prod.mk.injEq] at h
    exact h.2.2.symm

/-- **What is read of a number does not depend on what is kept of it.** -/
theorem parseNumberItem_rest {num rest : List UInt8} {item : JsonNumber}
    (h : parseNumberItem num = some (item, rest)) : rest = parseNumber num := by
  simp only [parseNumberItem, Option.bind_eq_bind, Option.bind_eq_some_iff, Option.pure_def,
    Option.some.injEq, Prod.mk.injEq, Prod.exists] at h
  obtain ⟨sign, ln, num₁, hinteger, exponent, subscale, num₂, hexponent, _, -, _, -, -, rfl⟩ := h
  rw [parseNumber_eq, numberExponent_rest hexponent, numberFraction_rest,
    numberInteger_rest hinteger]

/-! ## Decimal text -/

theorem le_foldl_decimalStep (digits : List UInt8) (n : ℕ) : n ≤ digits.foldl decimalStep n := by
  induction digits generalizing n with
  | nil => exact le_rfl
  | cons c digits ih =>
    refine le_trans ?_ (ih (decimalStep n c))
    rw [decimalStep]
    omega

theorem signedChar_digit {c : UInt8} (h : 48 ≤ c ∧ c ≤ 57) :
    signedChar c - 48 = ((c - 48).toNat : ℤ) := by
  have hle : (48 : UInt8).toNat ≤ c.toNat := h.1
  have hge : c.toNat ≤ (57 : UInt8).toNat := h.2
  rw [UInt8.toNat_sub_of_le c 48 h.1, signedChar, if_pos (lt_of_le_of_lt hge (by decide))]
  exact (Int.natCast_sub hle).symm

theorem longOf_natCast (n : ℕ) : longOf n = if n < 2 ^ 63 then some (n : ℤ) else none := by
  rw [longOf]
  exact if_congr (by omega) rfl rfl

/-- The digits that are read, unless the accumulator overflows. -/
theorem parseInteger_digits {digits : List UInt8} (hdigits : ∀ c ∈ digits, 48 ≤ c ∧ c ≤ 57) {n : ℕ}
    (hn : n < 2 ^ 63) :
    parseInteger n digits = (longOf (digits.foldl decimalStep n : ℕ)).map fun ln => (ln, []) := by
  induction digits generalizing n with
  | nil => rw [List.foldl_nil, longOf_natCast, if_pos hn, parseInteger, Option.map_some]
  | cons c digits ih =>
    have hc := hdigits c List.mem_cons_self
    have hdigit : isDigit c = true := by
      simp only [isDigit, decide_eq_true_eq]
      exact hc
    have hsum : (n : ℤ) * 10 + (signedChar c - 48) = (decimalStep n c : ℕ) := by
      rw [signedChar_digit hc, decimalStep]
      push_cast
      ring
    have hmul : (n : ℤ) * 10 = ((10 * n : ℕ) : ℤ) := by
      push_cast
      ring
    have hle : 10 * n ≤ decimalStep n c := Nat.le_add_right _ _
    rw [parseInteger, if_pos hdigit, List.foldl_cons, hmul, longOf_natCast]
    by_cases hstep : decimalStep n c < 2 ^ 63
    · rw [if_pos (hle.trans_lt hstep), Option.bind_some, ← hmul, hsum, longOf_natCast, if_pos hstep,
        Option.bind_some]
      exact ih (fun c hc => hdigits c (List.mem_cons_of_mem _ hc)) hstep
    · have hrest : ¬ digits.foldl decimalStep (decimalStep n c) < 2 ^ 63 :=
        fun h => hstep ((le_foldl_decimalStep digits _).trans_lt h)
      rw [longOf_natCast, if_neg hrest, Option.map_none]
      split_ifs with h10
      · rw [Option.bind_some, ← hmul, hsum, longOf_natCast, if_neg hstep, Option.bind_none]
      · rw [Option.bind_none]

/-- The digits of a number behind a sign. -/
theorem numberInteger_digits (sign : ℤ) (n : ℕ) :
    (let num := if deref (decimalDigits n) = ch '0' then (decimalDigits n).tail else decimalDigits n
      if ch '1' ≤ deref num ∧ deref num ≤ ch '9' then
        (parseInteger 0 num).map fun (ln, num) => (sign, ln, num)
      else some (sign, 0, num)) = (longOf n).map fun ln => (sign, ln, []) := by
  rcases Nat.eq_zero_or_pos n with rfl | hn
  · rw [decimalDigits_of_lt (by decide)]
    rfl
  · obtain ⟨c, digits, hdigits, hc⟩ := head_digits hn
    have hdecimal := (isDecimal_digits n).2
    have hvalue := decimalValue_digits n
    have hparse := parseInteger_digits hdecimal (n := 0) (by decide)
    rw [decimalValue] at hvalue
    rw [hvalue] at hparse
    rw [hdigits] at hdecimal hparse ⊢
    have hc9 := (hdecimal c List.mem_cons_self).2
    have hne : deref (c :: digits) ≠ ch '0' := by
      rintro h0
      rw [show c = ch '0' from h0] at hc
      exact absurd hc (by decide)
    simp only [if_neg hne]
    rw [if_pos ⟨hc, hc9⟩, show (0 : ℤ) = ((0 : ℕ) : ℤ) from rfl, hparse, Option.map_map]
    rfl

/-- The integer that is read of the text of an integer. -/
theorem numberInteger_text (n : ℤ) :
    numberInteger (decimalText n) =
      (longOf n.natAbs).map fun ln => (if n < 0 then -1 else 1, ln, []) := by
  by_cases hn : n < 0
  · rw [decimalText, if_pos hn, numberInteger]
    simp only [if_pos hn]
    exact numberInteger_digits (-1) n.natAbs
  · have hminus : deref (decimalDigits n.natAbs) ≠ ch '-' := by
      have hdecimal := isDecimal_digits n.natAbs
      cases hdigits : decimalDigits n.natAbs with
      | nil => exact absurd hdigits hdecimal.1
      | cons c digits =>
        rintro h0
        have hc := (hdecimal.2 c (by rw [hdigits]; exact List.mem_cons_self)).1
        rw [show c = ch '-' from h0] at hc
        exact absurd hc (by decide)
    rw [decimalText, if_neg hn, numberInteger]
    simp only [if_neg hn, if_neg hminus]
    exact numberInteger_digits 1 n.natAbs

theorem numberFraction_nil (n : Double) : numberFraction n [] = (false, n, 0, []) := rfl

theorem numberExponent_nil : numberExponent [] = some (false, 0, []) := rfl

/-- What `valuelonglong` becomes of the digits of a number behind a sign. -/
def signedLong (sign : ℤ) (ln : ℕ) : Option ℤ :=
  (longOf ln).bind fun ln => toLongLong (.mul binary64 (.finite sign) (toDouble ln))

/-- **What is kept of the text of an integer.** -/
theorem parseNumberItem_text (n : ℤ) :
    (parseNumberItem (decimalText n)).map (fun p => (p.1.valuelonglong, p.2)) =
      (signedLong (if n < 0 then -1 else 1) n.natAbs).map fun v => (v, []) := by
  rw [parseNumberItem, numberInteger_text, signedLong]
  cases longOf n.natAbs with
  | none => rfl
  | some ln =>
    simp only [Option.map_some, Option.bind_eq_bind, Option.bind_some, numberFraction_nil,
      numberExponent_nil]
    generalize toLongLong _ = l
    cases l with
    | none => rfl
    | some v => rfl

/-! ## The long way round -/

theorem toDouble_eq {n : ℤ} (h : |n| ≤ 2 ^ 63) :
    ∃ v : ℤ, toDouble n = .finite v ∧ (v : ℚ) = roundTo binary64 n ∧ |v| ≤ 2 ^ 64 := by
  obtain ⟨v, hv⟩ := roundTo_intCast binary64 n
  have habs : |(v : ℚ)| ≤ 2 ^ (64 : ℤ) := by
    rcases eq_or_ne n 0 with rfl | h0
    · have hzero : (v : ℚ) = 0 := by
        rw [← hv]
        exact roundTo_of_representable binary64 ⟨0, 0, by decide, by decide, by norm_num⟩
      rw [hzero, abs_zero]
      positivity
    · rw [← hv]
      refine abs_roundTo_le binary64 (by exact_mod_cast h0) ?_ (by decide)
      have : |n| < 2 ^ 64 := h.trans_lt (by norm_num)
      exact_mod_cast this
  refine ⟨v, ?_, hv.symm, by exact_mod_cast habs⟩
  rw [toDouble, BinaryFloat.ofRat, hv, if_neg]
  refine not_le.mpr (habs.trans_lt ?_)
  exact zpow_lt_zpow_right₀ (by norm_num) (by decide)

/-- The multiplication by the sign is exact, but what it multiplies has been rounded. -/
theorem signedLong_eq {sign : ℤ} (hsign : sign = 1 ∨ sign = -1) {n : ℕ} (hn : n < 2 ^ 63) :
    ∃ v : ℤ, (v : ℚ) = roundTo binary64 n ∧ 0 ≤ v ∧ signedLong sign n = longOf (sign * v) := by
  have habs : |(n : ℤ)| ≤ 2 ^ 63 := by
    rw [Nat.abs_cast]
    exact_mod_cast hn.le
  obtain ⟨v, hdouble, hv, hmax⟩ := toDouble_eq habs
  have hv0 : 0 ≤ v := by
    have := roundTo_nonneg binary64 (q := ((n : ℤ) : ℚ)) (by positivity)
    rw [← hv] at this
    exact_mod_cast this
  have hrep : Representable binary64 ((sign * v : ℤ) : ℚ) := by
    have hround : Representable binary64 (v : ℚ) := by
      rw [hv]
      exact representable_roundTo binary64 _
    rcases hsign with rfl | rfl
    · rwa [one_mul]
    · rw [neg_one_mul, Int.cast_neg]
      exact hround.neg
  have hlt : |((sign * v : ℤ) : ℚ)| < 2 ^ binary64.emax := by
    have hsame : |sign * v| = |v| := by
      rcases hsign with rfl | rfl
      · rw [one_mul]
      · rw [neg_one_mul, abs_neg]
    rw [← Int.cast_abs, hsame]
    have hcast : ((|v| : ℤ) : ℚ) ≤ 2 ^ (64 : ℤ) := by exact_mod_cast hmax
    exact hcast.trans_lt (zpow_lt_zpow_right₀ (by norm_num) (by decide))
  have hmul : BinaryFloat.mul binary64 (.finite sign) (toDouble n) =
      .finite ((sign * v : ℤ) : ℚ) := by
    rw [show toDouble n = .finite v from hdouble, BinaryFloat.mul, ← Int.cast_mul]
    exact ofRat_of_representable hrep hlt
  refine ⟨v, by exact_mod_cast hv, hv0, ?_⟩
  rw [signedLong, longOf_natCast, if_pos hn, Option.bind_some, hmul, toLongLong,
    BinaryFloat.toInteger]
  simp only [Int.floor_intCast, Int.ceil_intCast, ite_self]
  rfl

theorem longOf_eq_some {n v : ℤ} : longOf n = some v ↔ n = v ∧ -2 ^ 63 ≤ v ∧ v < 2 ^ 63 := by
  rw [longOf]
  split_ifs with h
  · rw [Option.some_inj]
    exact ⟨fun hv => ⟨hv, hv ▸ h⟩, And.left⟩
  · exact iff_of_false (by simp) fun hv => h (hv.1 ▸ hv.2)

theorem roundTo_eq_self_iff {F : BinaryFormat} {q : ℚ} : roundTo F q = q ↔ Representable F q :=
  ⟨fun h => h ▸ representable_roundTo F q, roundTo_of_representable F⟩

/-- **The sign is put back exactly where the number needs no rounding.** -/
theorem signedLong_text_iff {n : ℤ} (hn : -2 ^ 63 ≤ n ∧ n < 2 ^ 63) :
    signedLong (if n < 0 then -1 else 1) n.natAbs = some n ↔
      n ≠ -2 ^ 63 ∧ Representable binary64 n := by
  rcases eq_or_ne n (-2 ^ 63) with rfl | hmin
  · -- the accumulator overflows
    rw [signedLong, longOf_natCast, if_neg (by decide), Option.bind_none]
    exact iff_of_false (Option.some_ne_none _).symm fun h => h.1 rfl
  · have habs : n.natAbs < 2 ^ 63 := by omega
    have hsigned : n = (if n < 0 then -1 else 1) * (n.natAbs : ℤ) := by
      split_ifs <;> omega
    have hsign : (if n < 0 then (-1 : ℤ) else 1) = 1 ∨ (if n < 0 then (-1 : ℤ) else 1) = -1 := by
      split_ifs <;> simp
    have hrep : Representable binary64 n ↔ Representable binary64 (n.natAbs : ℚ) := by
      rw [Nat.cast_natAbs]
      rcases abs_choice n with h | h
      · rw [h]
      · rw [h, Int.cast_neg]
        exact ⟨Representable.neg, fun h => by simpa using h.neg⟩
    obtain ⟨v, hv, -, hlong⟩ := signedLong_eq hsign habs
    rw [hlong, longOf_eq_some, and_iff_left hn, and_iff_right hmin, hrep, ← roundTo_eq_self_iff,
      ← hv]
    have hcast : (v : ℚ) = (n.natAbs : ℚ) ↔ v = (n.natAbs : ℤ) := by
      rw [← Int.cast_natCast, Int.cast_inj]
    rw [hcast]
    generalize (if n < 0 then (-1 : ℤ) else 1) = sign at hsign hsigned
    rcases hsign with rfl | rfl <;> omega

/-! ## The text of an integer -/

/-- **An integer is printed in decimal.** -/
theorem printNumber_integer (sprintf : List Char → Double → List UInt8) {n : ℤ}
    (hn : -2 ^ 63 ≤ n ∧ n < 2 ^ 63) :
    printNumber sprintf (tr50JsonCreateInteger n) = decimalText n := by
  obtain ⟨v, hv, -⟩ := toDouble_eq (n := n) (abs_le.mpr ⟨hn.1, hn.2.le⟩)
  have hzero : BinaryFloat.ofRat binary64 0 = .finite 0 :=
    ofRat_of_representable ⟨0, 0, by decide, by decide, by norm_num⟩ (by rw [abs_zero]; positivity)
  rw [printNumber]
  refine if_pos ?_
  simp only [tr50JsonCreateInteger, hv, BinaryFloat.sub, BinaryFloat.neg, BinaryFloat.add,
    add_neg_cancel, hzero, BinaryFloat.abs, abs_zero, dblEpsilon, BinaryFloat.le]
  exact decide_eq_true (by positivity)

theorem hasPrefix_of_ne {a : Char} {c : UInt8} (h : ch a ≠ c) (s : List Char) (text : List UInt8) :
    hasPrefix (a :: s) (c :: text) = false := by
  rw [hasPrefix, cstring, List.map_cons, List.isPrefixOf_cons_cons, beq_false_of_ne h,
    Bool.false_and]

/-- What is recognised as a number, up to the end of the text. -/
theorem tr50JsonParse_number {text : List UInt8}
    (hfirst : deref text = ch '-' ∨ isDigit (deref text)) (hpoint : ¬ EndsInPoint text)
    (hrest : parseNumber text = []) : tr50JsonParse text = some (.number text) := by
  cases text with
  | nil => exact absurd hfirst (by decide)
  | cons c text =>
    have hrange : ch '-' ≤ c ∧ c ≤ ch '9' := by
      rcases hfirst with hminus | hdigit
      · rw [show c = ch '-' from hminus]
        decide
      · have hdigit : isDigit c = true := hdigit
        simp only [isDigit, decide_eq_true_eq] at hdigit
        exact ⟨UInt8.le_trans (by decide : ch '-' ≤ ch '0') hdigit.1, hdigit.2⟩
    have hbelow : ∀ a : Char, ch '9' < ch a → ch a ≠ c :=
      fun a ha h => absurd (h ▸ ha) (UInt8.not_lt.mpr hrange.2)
    have hskip : skip (c :: text) = c :: text := by
      refine List.dropWhile_cons_of_neg ?_
      simp only [decide_eq_true_eq, not_and]
      exact fun _ => UInt8.not_le.mpr (UInt8.lt_of_lt_of_le (by decide) hrange.1)
    have hquote : c ≠ ch '"' := fun h => absurd (h ▸ hrange.1) (by decide)
    rw [tr50JsonParse, hskip, parseValue, hasPrefix_of_ne (hbelow 'n' (by decide)),
      hasPrefix_of_ne (hbelow 'f' (by decide)), hasPrefix_of_ne (hbelow 't' (by decide))]
    simp only [Bool.false_eq_true, if_false]
    rw [if_neg (show deref (c :: text) ≠ ch '"' from hquote), if_pos hfirst, if_neg hpoint]
    simp only [hrest, List.length_nil, Nat.sub_zero, List.take_length, Option.map_some]

/-! ## The round trip -/

/-- What is printed for an integer is its decimal form; that is read as a number, whose value is the
integer again, and so is what is looked up. -/
def RoundTrips (sprintf : List Char → Double → List UInt8) (n : ℤ) : Prop :=
  printNumber sprintf (tr50JsonCreateInteger n) = decimalText n ∧
  tr50JsonParse (decimalText n) = some (.number (decimalText n)) ∧
  (∃ item, parseNumberItem (decimalText n) = some (item, []) ∧ item.valuelonglong = n) ∧
  ∀ object string, tr50JsonGetObjectItem object string = some (.number (decimalText n)) →
    tr50JsonGetObjectItemAsLonglong object string = some (some n)

/-- The text of an integer begins like a number. -/
theorem deref_decimalText (n : ℤ) :
    deref (decimalText n) = ch '-' ∨ isDigit (deref (decimalText n)) := by
  rw [decimalText]
  split_ifs with hn
  · exact Or.inl rfl
  · have hdecimal := isDecimal_digits n.natAbs
    cases hdigits : decimalDigits n.natAbs with
    | nil => exact absurd hdigits hdecimal.1
    | cons c digits =>
      refine Or.inr (decide_eq_true ?_)
      exact hdecimal.2 c (by rw [hdigits]; exact List.mem_cons_self)

/-- The digits that are read are all there is. -/
theorem not_endsInPoint_decimalText {n : ℤ} {item : JsonNumber} {rest : List UInt8}
    (h : parseNumberItem (decimalText n) = some (item, rest)) : ¬ EndsInPoint (decimalText n) := by
  simp only [parseNumberItem, Option.bind_eq_bind, Option.bind_eq_some_iff, Prod.exists] at h
  obtain ⟨sign, ln, num, hinteger, -⟩ := h
  have hrest := numberInteger_rest hinteger
  rw [numberInteger_text] at hinteger
  obtain ⟨_, -, hpair⟩ := Option.map_eq_some_iff.mp hinteger
  obtain rfl : [] = num := (Prod.mk.inj (Prod.mk.inj hpair).2).2
  rintro ⟨hpoint, -⟩
  rw [← hrest] at hpoint
  exact absurd hpoint (by decide)

/-- What is read of it is all of it, and the sign is put back as it can be. -/
theorem parseNumberItem_text_iff (n : ℤ) :
    (∃ item, parseNumberItem (decimalText n) = some (item, []) ∧ item.valuelonglong = n) ↔
      signedLong (if n < 0 then -1 else 1) n.natAbs = some n := by
  have htext := parseNumberItem_text n
  constructor
  · rintro ⟨item, hitem, hvalue⟩
    rw [hitem, Option.map_some, hvalue, eq_comm, Option.map_eq_some_iff] at htext
    obtain ⟨v, hv, hpair⟩ := htext
    rw [hv, (Prod.mk.inj hpair).1]
  · intro h
    rw [h, Option.map_some, Option.map_eq_some_iff] at htext
    obtain ⟨⟨item, rest⟩, hitem, hpair⟩ := htext
    obtain ⟨hvalue, rfl⟩ := Prod.mk.inj hpair
    exact ⟨item, hitem, hvalue⟩

/-- **An integer survives exactly where a `double` holds it**: a significand of 53 bits with zeros
behind it.  The least integer has one, but it does not fit before its sign. -/
theorem roundTrips_iff (sprintf : List Char → Double → List UInt8) {n : ℤ}
    (hn : -2 ^ 63 ≤ n ∧ n < 2 ^ 63) :
    RoundTrips sprintf n ↔ n ≠ -2 ^ 63 ∧ ∃ (m : ℤ) (k : ℕ), |m| < 2 ^ 53 ∧ n = m * 2 ^ k := by
  have hexact := signedLong_text_iff hn
  rw [← parseNumberItem_text_iff, representable_intCast_iff (by decide)] at hexact
  refine Iff.trans ⟨fun h => h.2.2.1, fun h => ?_⟩ hexact
  obtain ⟨item, hitem, hvalue⟩ := h
  refine ⟨printNumber_integer sprintf hn, ?_, ⟨item, hitem, hvalue⟩, ?_⟩
  · exact tr50JsonParse_number (deref_decimalText n) (not_endsInPoint_decimalText hitem)
      (parseNumberItem_rest hitem).symm
  · intro object string hget
    rw [tr50JsonGetObjectItemAsLonglong, hget]
    simp only [hitem, Option.map_some, hvalue]

/-- The largest integer that survives, 1023 below the largest there is. -/
theorem roundTrips_iff_largest : RoundTrips (fun _ _ => []) 9223372036854774784 :=
  (roundTrips_iff (fun _ _ => []) ⟨by decide, by decide⟩).mpr
    ⟨by decide, 2 ^ 53 - 1, 10, by decide, by decide⟩

/-- The first integer that does not survive: it is read as one less. -/
theorem not_roundTrips : (-2 ^ 63 : ℤ) ≤ 9007199254740993 ∧ (9007199254740993 : ℤ) < 2 ^ 63 ∧
    ¬ RoundTrips (fun _ _ => []) 9007199254740993 := by
  have hrange : (-2 ^ 63 : ℤ) ≤ 9007199254740993 ∧ (9007199254740993 : ℤ) < 2 ^ 63 :=
    ⟨by decide, by decide⟩
  refine ⟨hrange.1, hrange.2, fun h => ?_⟩
  have hrep := ((signedLong_text_iff hrange).mp ((parseNumberItem_text_iff _).mp h.2.2.1)).2
  obtain ⟨m, k, hm, hk⟩ := (representable_intCast_iff (by decide) _).mp hrep
  cases k with
  | zero =>
    rw [pow_zero, mul_one] at hk
    subst hk
    exact absurd hm (by decide)
  | succ k =>
    -- it is odd
    rw [pow_succ, ← mul_assoc] at hk
    omega

end Tr50
