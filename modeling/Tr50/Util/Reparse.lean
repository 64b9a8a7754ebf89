import Mathlib.Data.List.DropRight
import Tr50.Util.Print

/-!
# Util/Reparse — what is printed, read again

The text of an item parses to the item, whether it is printed with blanks or without
(`tr50JsonParse_text`), as long as its numbers print as numbers and its members have names.  A
string comes back without the control characters that have no escape of their own; an item without
such characters comes back as it was, and no other does (`tr50JsonParse_print_iff`).
-/

namespace Tr50

open Machinery

/-! ## Strings -/

/-- A character that is printed, as it is or behind a backslash. -/
def isPrinted (c : UInt8) : Bool := isPlain c || (escapeOf c).isSome

/-- What is left of a string when it is read again. -/
def kept (str : List UInt8) : List UInt8 := (cut str).filter isPrinted

/-- An escape is undone. -/
theorem unescape_escapeOf {c e : UInt8} (h : escapeOf c = some e) :
    e ≠ ch 'u' ∧ e ≠ 0 ∧ unescape e = c := by
  unfold escapeOf at h
  split_ifs at h <;> subst_vars <;> cases h <;> decide

/-- The text of a character is read as that character. -/
theorem parseStringLoop_escaped {c : UInt8} (hc : isPrinted c) (fuel : ℕ) (rest : List UInt8)
    (uc : UInt32) : parseStringLoop (fuel + 1) (escaped c ++ rest) uc
      = (parseStringLoop fuel rest uc).map fun p => (c :: p.1, p.2) := by
  by_cases hplain : isPlain c
  · simp only [isPlain, ne_eq, decide_eq_true_eq] at hplain
    have hend : ¬ (deref (c :: rest) = ch '"' ∨ deref (c :: rest) ≤ 31) :=
      not_or.mpr ⟨hplain.2.1, UInt8.not_le.mpr hplain.1⟩
    have hback : deref (c :: rest) ≠ ch '\\' := hplain.2.2
    have htext : escaped c ++ rest = c :: rest := by simp [escaped, isPlain, hplain]
    rw [htext]
    simp only [parseStringLoop, if_neg hend, if_pos hback]
    rfl
  · obtain ⟨e, he⟩ : ∃ e, escapeOf c = some e :=
      Option.isSome_iff_exists.mp (by simpa [isPrinted, hplain] using hc)
    obtain ⟨hu, he0, hunescape⟩ := unescape_escapeOf he
    have htext : escaped c ++ rest = ch '\\' :: e :: rest := by simp [escaped, hplain, he]
    have hend : ¬ (deref (ch '\\' :: e :: rest) = ch '"' ∨ deref (ch '\\' :: e :: rest) ≤ 31) :=
      (by decide : ¬ (ch '\\' = ch '"' ∨ ch '\\' ≤ 31))
    have hback : ¬ deref (ch '\\' :: e :: rest) ≠ ch '\\' := not_not.mpr rfl
    have hu' : ¬ deref (ch '\\' :: e :: rest).tail = ch 'u' := hu
    have he0' : ¬ deref (ch '\\' :: e :: rest).tail = 0 := he0
    rw [htext]
    simp only [parseStringLoop, if_neg hend, if_neg hback, if_neg he0', if_neg hu']
    rw [show deref (ch '\\' :: e :: rest).tail = e from rfl, hunescape]
    rfl

/-- …and counted as one. -/
theorem parseStringLen_escaped {c : UInt8} (hc : isPrinted c) (fuel : ℕ) (rest : List UInt8) :
    parseStringLen (fuel + 1) (escaped c ++ rest) = (parseStringLen fuel rest).map (· + 1) := by
  by_cases hplain : isPlain c
  · simp only [isPlain, ne_eq, decide_eq_true_eq] at hplain
    have hend : ¬ (deref (c :: rest) = ch '"' ∨ deref (c :: rest) ≤ 31) :=
      not_or.mpr ⟨hplain.2.1, UInt8.not_le.mpr hplain.1⟩
    have hback : deref (c :: rest) ≠ ch '\\' := hplain.2.2
    have htext : escaped c ++ rest = c :: rest := by simp [escaped, isPlain, hplain]
    rw [htext]
    simp only [parseStringLen, if_neg hend, if_pos hback]
    rfl
  · obtain ⟨e, he⟩ : ∃ e, escapeOf c = some e :=
      Option.isSome_iff_exists.mp (by simpa [isPrinted, hplain] using hc)
    have htext : escaped c ++ rest = ch '\\' :: e :: rest := by simp [escaped, hplain, he]
    have hend : ¬ (deref (ch '\\' :: e :: rest) = ch '"' ∨ deref (ch '\\' :: e :: rest) ≤ 31) :=
      (by decide : ¬ (ch '\\' = ch '"' ∨ ch '\\' ≤ 31))
    have hback : ¬ deref (ch '\\' :: e :: rest) ≠ ch '\\' := not_not.mpr rfl
    have he0 : ¬ deref (ch '\\' :: e :: rest).tail = 0 := (unescape_escapeOf he).2.1
    rw [htext]
    simp only [parseStringLen, if_neg hend, if_neg hback, if_neg he0]
    rfl

theorem escaped_eq_nil {c : UInt8} (hc : ¬ isPrinted c) : escaped c = [] := by
  simp only [isPrinted, Bool.or_eq_true, not_or, Bool.not_eq_true] at hc
  simp [escaped, hc.1, Option.not_isSome_iff_eq_none.mp (Bool.not_eq_true _ ▸ hc.2)]

theorem escaped_ne_nil {c : UInt8} (hc : isPrinted c) : 1 ≤ (escaped c).length := by
  unfold escaped
  split_ifs with hplain
  · exact le_rfl
  · obtain ⟨e, he⟩ : ∃ e, escapeOf c = some e :=
      Option.isSome_iff_exists.mp (by simpa [isPrinted, hplain] using hc)
    simp [he]

/-- Both loops come to the end of what was printed. -/
theorem parseStringLoop_flatMap (str rest : List UInt8) (uc : UInt32) :
    ∀ {fuel : ℕ}, (str.flatMap escaped).length < fuel →
      parseStringLoop fuel (str.flatMap escaped ++ ch '"' :: rest) uc
        = some (str.filter isPrinted, ch '"' :: rest)
      ∧ parseStringLen fuel (str.flatMap escaped ++ ch '"' :: rest)
        = some (str.filter isPrinted).length := by
  induction str with
  | nil =>
    intro fuel hfuel
    obtain ⟨fuel, rfl⟩ := Nat.exists_eq_succ_of_ne_zero (Nat.ne_of_gt hfuel)
    rw [List.flatMap_nil, List.nil_append, parseStringLoop, parseStringLen]
    exact ⟨if_pos (Or.inl rfl), if_pos (Or.inl rfl)⟩
  | cons c str ih =>
    intro fuel hfuel
    rw [List.flatMap_cons, List.length_append] at hfuel
    rw [List.flatMap_cons, List.append_assoc]
    by_cases hc : isPrinted c
    · have hpos := escaped_ne_nil hc
      obtain ⟨fuel, rfl⟩ := Nat.exists_eq_succ_of_ne_zero (Nat.ne_of_gt (Nat.zero_lt_of_lt hfuel))
      obtain ⟨hloop, hlen⟩ := @ih fuel (by omega)
      rw [parseStringLoop_escaped hc, parseStringLen_escaped hc, hloop, hlen,
        List.filter_cons_of_pos hc]
      exact ⟨rfl, rfl⟩
    · rw [escaped_eq_nil hc] at hfuel ⊢
      rw [List.nil_append, List.filter_cons_of_neg hc]
      exact ih (by simpa using hfuel)

/-- **A string is read up to its quote, without the characters that were not printed.** -/
theorem parseString_quoted (str rest : List UInt8) :
    parseString (quoted str ++ rest) = some (kept str, rest) := by
  have hlength : ((cut str).flatMap escaped).length
      < (ch '"' :: ((cut str).flatMap escaped ++ ch '"' :: rest)).length := by
    simp only [List.length_cons, List.length_append]
    omega
  have htext : quoted str ++ rest = ch '"' :: ((cut str).flatMap escaped ++ ch '"' :: rest) := by
    simp [quoted]
  rw [htext, parseString, if_neg (show ¬ deref (ch '"' :: _) ≠ ch '"' from not_not.mpr rfl)]
  obtain ⟨hloop, hlen⟩ := parseStringLoop_flatMap (cut str) rest 0 hlength
  rw [List.tail_cons, hlen, hloop, Option.bind_some, Option.bind_some, if_neg (lt_irrefl _)]
  rfl

/-! ## Numbers -/

/-- A number as JSON has it: a sign, digits without a zero in front, a fraction, an exponent. -/
structure NumberParts where
  minus : Bool
  digits : List UInt8
  isDecimal : IsDecimal digits
  noZero : digits = [ch '0'] ∨ digits.head? ≠ some (ch '0')
  fraction : Option { ds : List UInt8 // IsDecimal ds }
  exponent : Option (Bool × { ds : List UInt8 // IsDecimal ds })

namespace NumberParts

def fractionText (p : NumberParts) : List UInt8 := p.fraction.elim [] fun ds => ch '.' :: ds.1

def exponentText (p : NumberParts) : List UInt8 :=
  p.exponent.elim [] fun e => ch 'e' :: (if e.1 then ch '-' else ch '+') :: e.2.1

def text (p : NumberParts) : List UInt8 :=
  (if p.minus then [ch '-'] else []) ++ (p.digits ++ (p.fractionText ++ p.exponentText))

end NumberParts

/-- What may follow a number. -/
def EndsNumber (rest : List UInt8) : Prop :=
  isDigit (deref rest) = false ∧ deref rest ≠ ch '.' ∧ deref rest ≠ ch 'e' ∧ deref rest ≠ ch 'E'

theorem skipDigits_append {digits rest : List UInt8} (h : ∀ c ∈ digits, 48 ≤ c ∧ c ≤ 57)
    (hrest : isDigit (deref rest) = false) : skipDigits (digits ++ rest) = rest := by
  rw [skipDigits, List.dropWhile_append_of_pos]
  · cases rest with
    | nil => rfl
    | cons c rest => exact List.dropWhile_cons_of_neg (by simpa [deref] using hrest)
  · intro c hc
    simp only [isDigit, decide_eq_true_eq]
    exact h c hc

theorem not_ends_digit {rest : List UInt8} (h : isDigit (deref rest) = false) :
    ¬ (ch '1' ≤ deref rest ∧ deref rest ≤ ch '9') := fun hd => by
  simp only [isDigit, decide_eq_false_iff_not] at h
  exact h ⟨UInt8.le_trans (by decide) hd.1, hd.2⟩

namespace NumberParts

variable (p : NumberParts) {rest : List UInt8}

/-- Digits, and what is behind them. -/
theorem digitsRest_digits (hrest : isDigit (deref rest) = false) :
    (let num := p.digits ++ rest
      let num := if deref num = ch '0' then num.tail else num
      if ch '1' ≤ deref num ∧ deref num ≤ ch '9' then skipDigits num.tail else num) = rest := by
  obtain ⟨hne, hdigits⟩ := p.isDecimal
  obtain ⟨c, ds, hds⟩ := List.exists_cons_of_ne_nil hne
  have hc := hdigits c (by rw [hds]; exact List.mem_cons_self)
  rcases p.noZero with hzero | hzero
  · simp only [hzero, List.singleton_append]
    rw [if_pos (show deref (ch '0' :: rest) = ch '0' from rfl), List.tail_cons,
      if_neg (not_ends_digit hrest)]
  · rw [hds] at hzero ⊢
    have hc0 : c ≠ ch '0' := by simpa using hzero
    have h1 : ch '1' ≤ c := by
      have hle : (ch '0').toNat ≤ c.toNat := hc.1
      have hne : c.toNat ≠ (ch '0').toNat := fun h => hc0 (UInt8.toNat_inj.mp h)
      show (ch '0').toNat + 1 ≤ c.toNat
      omega
    have hne0 : ¬ deref (c :: (ds ++ rest)) = ch '0' := hc0
    have hrange : ch '1' ≤ deref (c :: (ds ++ rest)) ∧ deref (c :: (ds ++ rest)) ≤ ch '9' :=
      ⟨h1, hc.2⟩
    simp only [List.cons_append]
    rw [if_neg hne0, if_pos hrange, List.tail_cons]
    exact skipDigits_append (fun d hd => hdigits d (by rw [hds]; exact List.mem_cons_of_mem c hd))
      hrest

theorem deref_digits_ne_minus (more : List UInt8) : deref (p.digits ++ more) ≠ ch '-' := by
  obtain ⟨hne, hdigits⟩ := p.isDecimal
  obtain ⟨c, ds, hds⟩ := List.exists_cons_of_ne_nil hne
  have hc := hdigits c (by rw [hds]; exact List.mem_cons_self)
  rw [hds]
  exact fun h => absurd ((show c = ch '-' from h) ▸ hc.1) (by decide)

theorem integerRest_digits (hrest : isDigit (deref rest) = false) :
    integerRest ((if p.minus then [ch '-'] else []) ++ (p.digits ++ rest)) = rest := by
  have hbehind := p.digitsRest_digits hrest
  cases p.minus with
  | true =>
    rw [if_pos rfl, List.singleton_append, integerRest]
    simp only [if_pos (show deref (ch '-' :: (p.digits ++ rest)) = ch '-' from rfl), List.tail_cons]
    exact hbehind
  | false =>
    rw [if_neg Bool.false_ne_true, List.nil_append, integerRest]
    simp only [if_neg (p.deref_digits_ne_minus rest)]
    exact hbehind

theorem fractionRest_text (hrest : isDigit (deref rest) = false) (hpoint : deref rest ≠ ch '.') :
    fractionRest (p.fractionText ++ rest) = rest := by
  unfold fractionRest fractionText
  cases p.fraction with
  | none => exact if_neg hpoint
  | some ds =>
    obtain ⟨ds, hne, hdigits⟩ := ds
    obtain ⟨d, ds, rfl⟩ := List.exists_cons_of_ne_nil hne
    rw [Option.elim_some, List.cons_append, List.cons_append,
      if_pos (show deref (ch '.' :: _) = ch '.' from rfl)]
    exact skipDigits_append (fun d hd => hdigits d (List.mem_cons_of_mem _ hd)) hrest

theorem exponentRest_text (hrest : EndsNumber rest) :
    exponentRest (p.exponentText ++ rest) = rest := by
  unfold exponentRest exponentText
  cases p.exponent with
  | none => exact if_neg (not_or.mpr hrest.2.2)
  | some e =>
    have hsign : (if e.1 then ch '-' else ch '+') = ch '+'
        ∨ (if e.1 then ch '-' else ch '+') = ch '-' := by cases e.1 <;> simp
    rw [Option.elim_some, List.cons_append, List.cons_append,
      if_pos (Or.inl (show deref (ch 'e' :: _) = ch 'e' from rfl)), List.tail_cons]
    generalize (if e.1 then ch '-' else ch '+') = sign at hsign
    have hsign' : deref (sign :: (e.2.1 ++ rest)) = ch '+'
        ∨ deref (sign :: (e.2.1 ++ rest)) = ch '-' := hsign
    rw [if_pos hsign', List.tail_cons]
    exact skipDigits_append e.2.2.2 hrest.1

/-- Neither part goes on with a digit. -/
theorem deref_exponentText (hrest : EndsNumber rest) :
    isDigit (deref (p.exponentText ++ rest)) = false ∧ deref (p.exponentText ++ rest) ≠ ch '.' := by
  unfold exponentText
  cases p.exponent with
  | none => exact ⟨hrest.1, hrest.2.1⟩
  | some e => exact ⟨rfl, by simp [deref]; decide⟩

theorem deref_fractionText (hrest : EndsNumber rest) :
    isDigit (deref (p.fractionText ++ (p.exponentText ++ rest))) = false := by
  unfold fractionText
  cases p.fraction with
  | none => exact (p.deref_exponentText hrest).1
  | some ds => rfl

/-- **A number is read to its end.** -/
theorem parseNumber_text (hrest : EndsNumber rest) : parseNumber (p.text ++ rest) = rest := by
  have hexponent := p.deref_exponentText hrest
  rw [parseNumber_eq, text, List.append_assoc, List.append_assoc, List.append_assoc,
    p.integerRest_digits (p.deref_fractionText hrest),
    p.fractionRest_text hexponent.1 hexponent.2, p.exponentRest_text hrest]

/-- …its point is not the last of it… -/
theorem not_endsInPoint_text (hrest : EndsNumber rest) : ¬ EndsInPoint (p.text ++ rest) := by
  rintro ⟨hpoint, hend⟩
  rw [text, List.append_assoc, List.append_assoc, List.append_assoc,
    p.integerRest_digits (p.deref_fractionText hrest)] at hpoint hend
  unfold fractionText at hpoint hend
  cases hfraction : p.fraction with
  | none =>
    rw [hfraction] at hpoint
    exact (p.deref_exponentText hrest).2 hpoint
  | some ds =>
    obtain ⟨ds, hne, hdigits⟩ := ds
    obtain ⟨d, ds, rfl⟩ := List.exists_cons_of_ne_nil hne
    rw [hfraction] at hend
    have hd := (hdigits d List.mem_cons_self).1
    rw [show d = 0 from hend] at hd
    exact absurd hd (by decide)

/-- …and begins like one. -/
theorem deref_text (more : List UInt8) :
    deref (p.text ++ more) = ch '-' ∨ isDigit (deref (p.text ++ more)) := by
  rw [text, List.append_assoc]
  split_ifs
  · exact Or.inl rfl
  · obtain ⟨hne, hdigits⟩ := p.isDecimal
    obtain ⟨c, ds, hds⟩ := List.exists_cons_of_ne_nil hne
    have hc := hdigits c (by rw [hds]; exact List.mem_cons_self)
    rw [hds]
    exact Or.inr (decide_eq_true hc)

end NumberParts

/-- The decimal form of an integer is a number. -/
def NumberParts.ofInt (n : ℤ) : NumberParts where
  minus := n < 0
  digits := decimalDigits n.natAbs
  isDecimal := isDecimal_digits _
  noZero := by
    rcases Nat.eq_zero_or_pos n.natAbs with h | h
    · rw [h]
      exact Or.inl (decimalDigits_of_lt (by decide))
    · obtain ⟨c, ds, hds, hc⟩ := head_digits h
      rw [hds]
      refine Or.inr fun h0 => ?_
      rw [Option.some.inj h0] at hc
      exact absurd hc (by decide)
  fraction := none
  exponent := none

theorem NumberParts.text_ofInt (n : ℤ) : (NumberParts.ofInt n).text = decimalText n := by
  simp only [text, ofInt, fractionText, exponentText, decimalText, Option.elim_none,
    List.append_nil, decide_eq_true_eq]
  split_ifs <;> rfl

/-! ## Items -/

namespace JsonItem

variable (sprintf : List Char → Double → List UInt8)

mutual

/-- Its numbers print as numbers, and its members have names. -/
def Readable : JsonItem → Prop
  | .null => True
  | .false => True
  | .true => True
  | .number n => ∃ p : NumberParts, printNumber sprintf n = p.text
  | .string _ => True
  | .array children => ItemsReadable children
  | .object children => NamedReadable children

def ItemsReadable : List JsonItem → Prop
  | [] => True
  | child :: children => Readable child ∧ ItemsReadable children

def NamedReadable : List (Option (List UInt8) × JsonItem) → Prop
  | [] => True
  | child :: children => (child.1.isSome ∧ Readable child.2) ∧ NamedReadable children

end

section

variable (f : List UInt8 → List UInt8)

mutual

/-- The item as it is read, when `f` is what becomes of its strings. -/
def json : JsonItem → Json
  | .null => .null
  | .false => .false
  | .true => .true
  | .number n => .number (printNumber sprintf n)
  | .string valuestring => .string (f valuestring)
  | .array children => .array (jsons children)
  | .object children => .object (namedJsons children)

def jsons : List JsonItem → List Json
  | [] => []
  | child :: children => json child :: jsons children

def namedJsons : List (Option (List UInt8) × JsonItem) → List (List UInt8 × Json)
  | [] => []
  | child :: children => (f (child.1.getD []), json child.2) :: namedJsons children

end

end

end JsonItem

/-! ## Blanks -/

def Blank (ws : List UInt8) : Prop := ∀ c ∈ ws, c ≠ 0 ∧ c ≤ 32

theorem blank_nil : Blank [] := fun _ h => absurd h List.not_mem_nil

theorem Blank.append {ws ws' : List UInt8} (h : Blank ws) (h' : Blank ws') : Blank (ws ++ ws') :=
  fun c hc => (List.mem_append.mp hc).elim (h c) (h' c)

/-- What is put in where the text is formatted. -/
theorem blank_ite (fmt : Bool) (n : ℕ) {c : UInt8} (hc : c ≠ 0 ∧ c ≤ 32) :
    Blank (if fmt then List.replicate n c else []) := by
  cases fmt with
  | false => exact blank_nil
  | true => exact fun d hd => by rwa [List.eq_of_mem_replicate hd]

theorem blank_ite_one (fmt : Bool) {c : UInt8} (hc : c ≠ 0 ∧ c ≤ 32) :
    Blank (if fmt then [c] else []) := blank_ite fmt 1 hc

theorem skip_blank {ws : List UInt8} (hws : Blank ws) {c : UInt8} (hc : 32 < c)
    (rest : List UInt8) : skip (ws ++ c :: rest) = c :: rest := by
  rw [skip, List.dropWhile_append_of_pos fun c hc => decide_eq_true (hws c hc)]
  exact List.dropWhile_cons_of_neg (by simpa using fun _ => hc)

theorem skip_cons {c : UInt8} (hc : 32 < c) (rest : List UInt8) : skip (c :: rest) = c :: rest :=
  skip_blank blank_nil hc rest

theorem skip_skip (ptr : List UInt8) : skip (skip ptr) = skip ptr := List.dropWhile_idempotent _ _

/-- The loops skip the blanks themselves. -/
theorem parseItems_skip (fuel : ℕ) (value : List UInt8) :
    parseItems fuel (skip value) = parseItems fuel value := by
  cases fuel with
  | zero => rfl
  | succ fuel => simp only [parseItems, skip_skip]

theorem parseMembers_skip (fuel : ℕ) (value : List UInt8) :
    parseMembers fuel (skip value) = parseMembers fuel value := by
  cases fuel with
  | zero => rfl
  | succ fuel => simp only [parseMembers, skip_skip]

/-! ## Loops -/

/-- The text of a value: it begins with no blank, and closes no array. -/
def BeginsValue (text : List UInt8) : Prop :=
  ∃ c rest, text = c :: rest ∧ 32 < c ∧ c ≠ ch ']'

section Loops

variable {fuel : ℕ} {ws tab entry rest more s : List UInt8} {child : Json}

theorem parseItems_last (hws : Blank ws) (hentry : BeginsValue entry)
    (hvalue : parseValue fuel (entry ++ ch ']' :: rest) = some (child, ch ']' :: rest)) :
    parseItems (fuel + 1) (ws ++ (entry ++ ch ']' :: rest)) = some ([child], ch ']' :: rest) := by
  obtain ⟨c, t, rfl, hc, -⟩ := hentry
  have hclose : skip (ch ']' :: rest) = ch ']' :: rest := skip_cons (by decide) rest
  have hcomma : ¬ deref (ch ']' :: rest) = ch ',' := (by decide : ¬ ch ']' = ch ',')
  simp only [parseItems, List.cons_append, skip_blank hws hc] at hvalue ⊢
  simp only [hvalue, Option.bind_eq_bind, Option.bind_some, hclose, if_neg hcomma, Option.pure_def]

theorem parseItems_more {children : List Json} (hws : Blank ws) (hentry : BeginsValue entry)
    (hvalue : parseValue fuel (entry ++ ch ',' :: more) = some (child, ch ',' :: more))
    (hitems : parseItems fuel more = some (children, rest)) :
    parseItems (fuel + 1) (ws ++ (entry ++ ch ',' :: more)) = some (child :: children, rest) := by
  obtain ⟨c, t, rfl, hc, -⟩ := hentry
  have hcomma : skip (ch ',' :: more) = ch ',' :: more := skip_cons (by decide) more
  have hmore : deref (ch ',' :: more) = ch ',' := rfl
  simp only [parseItems, List.cons_append, skip_blank hws hc] at hvalue ⊢
  simp only [hvalue, Option.bind_eq_bind, Option.bind_some, hcomma, if_pos hmore, List.tail_cons,
    hitems, Option.pure_def]

/-- A member up to its value. -/
theorem parseMembers_member (hws : Blank ws) (htab : Blank tab) (hentry : BeginsValue entry)
    (hvalue : parseValue fuel (entry ++ more) = some (child, more)) :
    parseMembers (fuel + 1) (ws ++ (quoted s ++ ch ':' :: (tab ++ (entry ++ more))))
      = if deref (skip more) = ch ',' then
          (parseMembers fuel (skip more).tail).map fun p => ((kept s, child) :: p.1, p.2)
        else some ([(kept s, child)], skip more) := by
  obtain ⟨c, t, rfl, hc, -⟩ := hentry
  have hname : skip (ws ++ (quoted s ++ ch ':' :: (tab ++ (c :: t ++ more))))
      = quoted s ++ ch ':' :: (tab ++ (c :: t ++ more)) := by
    rw [quoted, List.cons_append]
    exact skip_blank hws (by decide) _
  have hcolon : skip (ch ':' :: (tab ++ (c :: t ++ more))) = ch ':' :: (tab ++ (c :: t ++ more)) :=
    skip_cons (by decide) _
  have hne : ¬ deref (ch ':' :: (tab ++ (c :: t ++ more))) ≠ ch ':' := not_not.mpr rfl
  have hskip : skip (tab ++ (c :: t ++ more)) = c :: t ++ more := skip_blank htab hc _
  simp only [parseMembers, hname, parseString_quoted, Option.bind_eq_bind, Option.bind_some, hcolon,
    if_neg hne, List.tail_cons, hskip, hvalue]
  split_ifs
  · cases parseMembers fuel (skip more).tail <;> rfl
  · rfl

end Loops

/-! ## Texts -/

/-- Blanks end a number. -/
theorem endsNumber_blank {ws rest : List UInt8} {c : UInt8} (hws : Blank ws)
    (hc : EndsNumber (c :: rest)) : EndsNumber (ws ++ c :: rest) := by
  cases ws with
  | nil => exact hc
  | cons d ws =>
    have hd : d ≤ 32 := (hws d List.mem_cons_self).2
    have hne : ∀ b : UInt8, 32 < b → d ≠ b := fun b hb h =>
      absurd (h ▸ hd) (UInt8.not_le.mpr hb)
    refine ⟨?_, hne _ (by decide), hne _ (by decide), hne _ (by decide)⟩
    exact decide_eq_false fun h => absurd (UInt8.le_trans h.1 hd) (by decide)

theorem endsNumber_cons {c : UInt8}
    (hc : isDigit c = false ∧ c ≠ ch '.' ∧ c ≠ ch 'e' ∧ c ≠ ch 'E') (rest : List UInt8) :
    EndsNumber (c :: rest) := hc

/-- A text that begins with `c`. -/
theorem beginsValue_cons {c : UInt8} (hc : 32 < c ∧ c ≠ ch ']') (rest : List UInt8) :
    BeginsValue (c :: rest) := ⟨c, rest, rfl, hc⟩

theorem NumberParts.beginsValue_text (p : NumberParts) : BeginsValue p.text := by
  have hderef := p.deref_text []
  rw [List.append_nil] at hderef
  rcases htext : p.text with _ | ⟨c, rest⟩
  · rw [htext] at hderef
    exact absurd hderef (by decide)
  · rw [htext] at hderef
    refine beginsValue_cons ?_ rest
    rcases hderef with hc | hc
    · rw [show c = ch '-' from hc]
      decide
    · have hc : ch '0' ≤ c ∧ c ≤ ch '9' := of_decide_eq_true hc
      refine ⟨UInt8.lt_of_lt_of_le (by decide) hc.1, fun h => ?_⟩
      rw [h] at hc
      exact absurd hc.2 (by decide)

theorem hasPrefix_of_deref_ne {a : Char} {text : List UInt8} (h : deref text ≠ ch a)
    (s : List Char) : hasPrefix (a :: s) text = Bool.false := by
  cases text with
  | nil => rfl
  | cons c text => exact hasPrefix_of_ne h.symm s text

/-- **A number is read as it was printed.** -/
theorem NumberParts.parseValue_text (p : NumberParts) {rest : List UInt8} (hrest : EndsNumber rest)
    (fuel : ℕ) : parseValue (fuel + 1) (p.text ++ rest) = some (.number p.text, rest) := by
  have hderef := p.deref_text rest
  have hne : ∀ c : UInt8, c ≠ ch '-' → isDigit c = false → deref (p.text ++ rest) ≠ c := by
    rintro c hminus hdigit rfl
    exact hderef.elim hminus fun h => by simp [h] at hdigit
  have hnull := hasPrefix_of_deref_ne (hne (ch 'n') (by decide) (by decide)) ['u', 'l', 'l']
  have hfalse := hasPrefix_of_deref_ne (hne (ch 'f') (by decide) (by decide)) ['a', 'l', 's', 'e']
  have htrue := hasPrefix_of_deref_ne (hne (ch 't') (by decide) (by decide)) ['r', 'u', 'e']
  have hquote : deref (p.text ++ rest) ≠ ch '"' := hne _ (by decide) (by decide)
  simp only [parseValue, hnull, hfalse, htrue, if_neg hquote, if_pos hderef,
    if_neg (p.not_endsInPoint_text hrest), p.parseNumber_text hrest, List.length_append,
    Nat.add_sub_cancel, List.take_left', Bool.false_eq_true, if_false]

theorem parseValue_empty {fuel : ℕ} {more rest : List UInt8}
    (hmore : skip more = ch '\x7d' :: rest) :
    parseValue (fuel + 1) (ch '\x7b' :: more) = some (.object [], rest) := by
  have hobject : parseValue (fuel + 1) (ch '\x7b' :: more)
      = parseObject (parseMembers fuel) (ch '\x7b' :: more) := rfl
  rw [hobject, parseObject, parseChildren]
  simp only [List.tail_cons, hmore]
  exact if_pos rfl

namespace JsonItem

variable {sprintf : List Char → Double → List UInt8} {fmt : Bool}

theorem beginsValue_text : ∀ (depth : ℕ) {item : JsonItem}, item.Readable sprintf →
    BeginsValue (item.text sprintf fmt depth)
  | _, .null, _ => beginsValue_cons (by decide) _
  | _, .false, _ => beginsValue_cons (by decide) _
  | _, .true, _ => beginsValue_cons (by decide) _
  | _, .number _, ⟨p, hp⟩ => by
    rw [text, hp]
    exact p.beginsValue_text
  | _, .string _, _ => beginsValue_cons (by decide) _
  | _, .array _, _ => beginsValue_cons (by decide) _
  | _, .object _, _ => beginsValue_cons (by decide) _

theorem parseValue_quoted (str rest : List UInt8) (fuel : ℕ) :
    parseValue (fuel + 1) (quoted str ++ rest) = some (.string (kept str), rest) := by
  have hstring : parseValue (fuel + 1) (quoted str ++ rest)
      = (parseString (quoted str ++ rest)).map fun p => (.string p.1, p.2) := rfl
  rw [hstring, parseString_quoted, Option.map_some]

/-- An array is read by its items… -/
theorem parseValue_array {fuel : ℕ} {more rest : List UInt8} {children : List Json}
    (hmore : deref (skip more) ≠ ch ']')
    (hitems : parseItems fuel more = some (children, ch ']' :: rest)) :
    parseValue (fuel + 1) (ch '[' :: more) = some (.array children, rest) := by
  have harray : parseValue (fuel + 1) (ch '[' :: more)
      = parseArray (parseItems fuel) (ch '[' :: more) := rfl
  rw [harray, parseArray, parseChildren]
  simp only [List.tail_cons, if_neg hmore, parseItems_skip, hitems]
  exact if_pos rfl

/-- …and an object by its members. -/
theorem parseValue_object {fuel : ℕ} {more rest : List UInt8} {children : List (List UInt8 × Json)}
    (hmore : deref (skip more) ≠ ch '\x7d')
    (hmembers : parseMembers fuel more = some (children, ch '\x7d' :: rest)) :
    parseValue (fuel + 1) (ch '\x7b' :: more) = some (.object children, rest) := by
  have hobject : parseValue (fuel + 1) (ch '\x7b' :: more)
      = parseObject (parseMembers fuel) (ch '\x7b' :: more) := rfl
  rw [hobject, parseObject, parseChildren]
  simp only [List.tail_cons, if_neg hmore, parseMembers_skip, hmembers]
  exact if_pos rfl

/-- The first entry decides how an array begins. -/
theorem beginsValue_entriesText {entry : List UInt8} (hentry : BeginsValue entry) :
    ∀ entries : List (List UInt8), BeginsValue (entriesText fmt (entry :: entries))
  | [] => hentry
  | entry' :: entries => by
    obtain ⟨c, rest, rfl, hc⟩ := hentry
    exact beginsValue_cons hc _

/-- A member begins with its name, behind blanks. -/
theorem skip_memberText {ws : List UInt8} (hws : Blank ws) (depth : ℕ)
    (str entry rest : List UInt8) :
    deref (skip (ws ++ (memberText fmt depth (quoted str, entry) ++ rest))) = ch '"' := by
  rw [memberText, List.append_assoc, ← List.append_assoc, quoted, List.cons_append,
    List.cons_append, skip_blank (hws.append (blank_ite fmt depth (by decide))) (by decide)]
  rfl

mutual

/-- **The text of an item is read as the item**, whatever follows. -/
theorem parseValue_text : ∀ (depth : ℕ) (item : JsonItem), item.Readable sprintf →
    ∀ {r : List UInt8}, EndsNumber r → ∀ {n : ℕ},
      2 * (item.text sprintf fmt depth).length < n + 1 →
        parseValue (n + 1) (item.text sprintf fmt depth ++ r)
          = some (item.json sprintf kept, r)
  | _, .null, _, _, _, _, _ => rfl
  | _, .false, _, _, _, _, _ => rfl
  | _, .true, _, _, _, _, _ => rfl
  | _, .number _, ⟨p, hp⟩, _, hrest, fuel, _ => by
    rw [text, json, hp]
    exact p.parseValue_text hrest fuel
  | _, .string valuestring, _, rest, _, fuel, _ => parseValue_quoted valuestring rest fuel
  | _, .array [], _, _, _, _, _ => rfl
  | depth, .array (child :: children), h, rest, _, fuel, hfuel => by
    have hbegins :
        BeginsValue (entriesText fmt (texts sprintf fmt (depth + 1) (child :: children))) :=
      beginsValue_entriesText (beginsValue_text (depth + 1) h.1) _
    rw [texts] at hbegins
    obtain ⟨c, t, htext, hc⟩ := hbegins
    simp only [text, arrayText, List.length_cons, List.length_append] at hfuel
    have hitems := parseItems_texts (depth + 1) (child :: children) (List.cons_ne_nil _ _) h
      blank_nil (r := rest) (n := fuel) (by omega)
    simp only [text, arrayText, List.cons_append, List.append_assoc, json]
    refine parseValue_array ?_ hitems
    rw [texts, htext, List.cons_append, skip_cons hc.1]
    exact hc.2
  | depth, .object [], _, rest, _, fuel, _ => by
    have hblank :
        Blank ((if fmt then [10] else []) ++ if fmt then List.replicate depth 9 else []) :=
      (blank_ite_one fmt (by decide)).append (blank_ite fmt depth (by decide))
    have hclose := skip_blank hblank (show 32 < ch '\x7d' by decide) rest
    simp only [List.append_assoc] at hclose
    simp only [text, namedTexts, objectText, membersText, List.nil_append, List.append_assoc,
      List.cons_append, json, namedJsons, Nat.add_sub_cancel]
    exact parseValue_empty hclose
  | depth, .object ((none, child) :: children), h, _, _, _, _ => absurd h.1.1 Bool.false_ne_true
  | depth, .object ((some name, child) :: children), h, rest, _, fuel, hfuel => by
    simp only [text, objectText, List.length_cons, List.length_append] at hfuel
    have hmembers := parseMembers_texts (depth + 1) ((some name, child) :: children)
      (List.cons_ne_nil _ _) h (blank_ite_one fmt (c := 10) (by decide))
      (blank_ite fmt depth (c := 9) (by decide)) (r := rest) (n := fuel) (by omega)
    simp only [text, objectText, List.cons_append, List.append_assoc, List.nil_append, json,
      Nat.add_sub_cancel]
    refine parseValue_object ?_ hmembers
    simp only [namedTexts, membersText, nameText, Option.elim_some, List.append_assoc]
    rw [skip_memberText (blank_ite_one fmt (by decide))]
    decide

theorem parseItems_texts : ∀ (depth : ℕ) (children : List JsonItem), children ≠ [] →
    ItemsReadable sprintf children → ∀ {ws r : List UInt8}, Blank ws → ∀ {n : ℕ},
      2 * (entriesText fmt (texts sprintf fmt depth children)).length + 1 < n →
        parseItems n (ws ++ (entriesText fmt (texts sprintf fmt depth children)
          ++ ch ']' :: r)) = some (jsons sprintf kept children, ch ']' :: r)
  | _, [], hne, _, _, _, _, _, _ => absurd rfl hne
  | _, _, _, _, _, _, _, 0, hfuel => absurd hfuel (Nat.not_lt_zero _)
  | _, _, _, _, _, _, _, 1, hfuel => absurd hfuel (by omega)
  | depth, [child], _, h, _, _, hws, fuel + 2, hfuel =>
    parseItems_last hws (beginsValue_text depth h.1)
      (parseValue_text depth child h.1 (endsNumber_cons (by decide) _)
        (by simp only [texts, entriesText] at hfuel; omega))
  | depth, child :: child' :: children, _, h, _, rest, hws, fuel + 2, hfuel => by
    simp only [texts, entriesText, List.length_append, List.length_cons] at hfuel
    have hitems := parseItems_texts depth (child' :: children) (List.cons_ne_nil _ _) h.2
      (blank_ite_one fmt (c := ch ' ') (by decide)) (r := rest) (n := fuel + 1)
      (by simp only [texts]; omega)
    have hvalue := fun more => parseValue_text depth child h.1
      (endsNumber_cons (c := ch ',') (by decide) more)
      (show 2 * (text sprintf fmt depth child).length < fuel + 1 by omega)
    simp only [texts, entriesText, List.append_assoc, List.cons_append] at hitems ⊢
    exact parseItems_more hws (beginsValue_text depth h.1) (hvalue _) hitems

theorem parseMembers_texts : ∀ (depth : ℕ) (children : List (Option (List UInt8) × JsonItem)),
    children ≠ [] → NamedReadable sprintf children → ∀ {ws tail r : List UInt8},
      Blank ws → Blank tail → ∀ {n : ℕ},
        2 * (membersText fmt depth (namedTexts sprintf fmt depth children)).length < n →
          parseMembers n (ws ++ (membersText fmt depth (namedTexts sprintf fmt depth children)
            ++ (tail ++ ch '\x7d' :: r)))
              = some (namedJsons sprintf kept children, ch '\x7d' :: r)
  | _, [], hne, _, _, _, _, _, _, _, _ => absurd rfl hne
  | _, (none, _) :: _, _, h, _, _, _, _, _, _, _ => absurd h.1.1 Bool.false_ne_true
  | _, (some _, _) :: _, _, _, _, _, _, _, _, 0, hfuel => absurd hfuel (Nat.not_lt_zero _)
  | _, (some _, _) :: _, _, _, _, _, _, _, _, 1, hfuel => by
    -- a member has its colon
    simp only [namedTexts, membersText, memberText, List.length_append, List.length_cons] at hfuel
    omega
  | depth, [(some name, child)], _, h, ws, tail, rest, hws, htail, fuel + 2, hfuel => by
    simp only [namedTexts, membersText, memberText, List.length_append, List.length_cons] at hfuel
    have hblank : Blank ((if fmt then [10] else []) ++ tail) :=
      (blank_ite_one fmt (by decide)).append htail
    have hvalue := parseValue_text depth child h.1.2
      (endsNumber_blank hblank (endsNumber_cons (c := ch '\x7d') (by decide) rest))
      (show 2 * (text sprintf fmt depth child).length < fuel + 1 by omega)
    have hmember := parseMembers_member (s := name)
      (hws.append (blank_ite fmt depth (c := 9) (by decide)))
      (blank_ite_one fmt (c := 9) (by decide)) (beginsValue_text depth h.1.2) hvalue
    have hlast : ¬ deref (ch '\x7d' :: rest) = ch ',' := (by decide : ¬ ch '\x7d' = ch ',')
    rw [skip_blank hblank (by decide), if_neg hlast] at hmember
    simpa [namedTexts, membersText, memberText, nameText, namedJsons] using hmember
  | depth, (some name, child) :: child' :: children, _, h, ws, tail, rest, hws, htail,
      fuel + 2, hfuel => by
    have hlength := hfuel
    rw [namedTexts, membersText] at hlength
    simp only [memberText, List.length_append, List.length_cons] at hlength
    have hmembers := parseMembers_texts depth (child' :: children) (List.cons_ne_nil _ _) h.2
      (blank_ite_one fmt (c := 10) (by decide)) htail (r := rest) (n := fuel + 1) (by omega)
    have hvalue := fun more => parseValue_text depth child h.1.2
      (endsNumber_cons (c := ch ',') (by decide) more)
      (show 2 * (text sprintf fmt depth child).length < fuel + 1 by omega)
    have hmember := fun more => parseMembers_member (s := name)
      (hws.append (blank_ite fmt depth (c := 9) (by decide)))
      (blank_ite_one fmt (c := 9) (by decide)) (beginsValue_text depth h.1.2) (hvalue more)
    have hcomma : ∀ more, deref (ch ',' :: more) = ch ',' := fun _ => rfl
    have hnext : namedTexts sprintf fmt depth (child' :: children) ≠ [] := List.cons_ne_nil _ _
    simp only [skip_cons (show 32 < ch ',' by decide), if_pos (hcomma _), List.tail_cons,
      List.append_assoc] at hmember
    rw [namedTexts, membersText, if_pos hnext, memberText]
    simp only [List.append_assoc, List.cons_append, List.nil_append, nameText, Option.elim_some]
    rw [hmember, hmembers]
    rfl

end

/-- **The text of an item, read as a whole.** -/
theorem tr50JsonParse_text (depth : ℕ) {item : JsonItem} (h : item.Readable sprintf) :
    tr50JsonParse (item.text sprintf fmt depth) = some (item.json sprintf kept) := by
  have hbegins : BeginsValue (item.text sprintf fmt depth) := beginsValue_text depth h
  obtain ⟨c, t, htext, hc⟩ := hbegins
  have hskip : skip (item.text sprintf fmt depth) = item.text sprintf fmt depth := by
    rw [htext, skip_cons hc.1]
  have hends : EndsNumber [] := ⟨rfl, by decide, by decide, by decide⟩
  have hparse := parseValue_text depth item h hends
    (Nat.lt_succ_self (2 * (item.text sprintf fmt depth).length))
  rw [List.append_nil] at hparse
  rw [tr50JsonParse, hskip, hparse, Option.map_some]

end JsonItem

/-! ## What comes back -/

namespace JsonItem

/-- A string in which every character is printed. -/
def CleanString (str : List UInt8) : Prop := ∀ c ∈ cut str, isPrinted c

mutual

/-- No string or name of the item has a control character that is not printed. -/
def Clean : JsonItem → Prop
  | .null => True
  | .false => True
  | .true => True
  | .number _ => True
  | .string valuestring => CleanString valuestring
  | .array children => ItemsClean children
  | .object children => NamedClean children

def ItemsClean : List JsonItem → Prop
  | [] => True
  | child :: children => Clean child ∧ ItemsClean children

def NamedClean : List (Option (List UInt8) × JsonItem) → Prop
  | [] => True
  | child :: children =>
      (CleanString (child.1.getD []) ∧ Clean child.2) ∧ NamedClean children

end

theorem kept_eq_cut {str : List UInt8} : kept str = cut str ↔ CleanString str :=
  List.filter_eq_self

variable {sprintf : List Char → Double → List UInt8} {fmt : Bool}

mutual

theorem json_kept_eq : ∀ item : JsonItem,
    item.json sprintf kept = item.json sprintf cut ↔ item.Clean
  | .null => by simp [json, Clean]
  | .false => by simp [json, Clean]
  | .true => by simp [json, Clean]
  | .number n => by simp [json, Clean]
  | .string valuestring => by simp [json, Clean, kept_eq_cut]
  | .array children => by
    rw [json, json, Json.array.injEq, Clean]
    exact jsons_kept_eq children
  | .object children => by
    rw [json, json, Json.object.injEq, Clean]
    exact namedJsons_kept_eq children

theorem jsons_kept_eq : ∀ children : List JsonItem,
    jsons sprintf kept children = jsons sprintf cut children ↔ ItemsClean children
  | [] => by simp [jsons, ItemsClean]
  | child :: children => by
    rw [jsons, jsons, List.cons.injEq, ItemsClean]
    exact and_congr (json_kept_eq child) (jsons_kept_eq children)

theorem namedJsons_kept_eq : ∀ children : List (Option (List UInt8) × JsonItem),
    namedJsons sprintf kept children = namedJsons sprintf cut children ↔ NamedClean children
  | [] => by simp [namedJsons, NamedClean]
  | child :: children => by
    rw [namedJsons, namedJsons, List.cons.injEq, Prod.mk.injEq, NamedClean]
    exact and_congr (and_congr kept_eq_cut (json_kept_eq child.2)) (namedJsons_kept_eq children)

end

end JsonItem

end Tr50
