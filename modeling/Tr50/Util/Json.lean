import Mathlib.Tactic

/-!
# Util/Json — the JSON parser

`tr50.json.c`: `tr50_json_parse`, and the look-ups of items.  A `const char *` is the list of the
bytes from it on; behind the list there are only terminators (`deref`).  A result is `none` where
the parser gives up, and where what it does is undefined: it reads on behind the end of the text
from a last point or backslash, or from a `\u` without four characters; and it writes past the block
of a string that goes on behind its end, since a quote may be one of the four.  The recursion of the
parser is on fuel, and twice the length of the text is enough (`parseValue_fuel`).
-/

namespace Tr50

/-- A parsed value, by its children; a number keeps its text. -/
inductive Json
  | null
  | false
  | true
  | number (text : List UInt8)
  | string (valuestring : List UInt8)
  | array (children : List Json)
  | object (children : List (List UInt8 × Json))

/-! ## Text -/

/-- `*ptr` -/
def deref (ptr : List UInt8) : UInt8 := ptr.headD 0

/-- A character constant. -/
def ch (c : Char) : UInt8 := UInt8.ofNat c.toNat

/-- A string constant. -/
def cstring (s : List Char) : List UInt8 := s.map ch

/-- `strncmp(value, s, strlen(s)) == 0` -/
def hasPrefix (s : List Char) (value : List UInt8) : Bool := (cstring s).isPrefixOf value

def skip (ptr : List UInt8) : List UInt8 := ptr.dropWhile fun c => c ≠ 0 ∧ c ≤ 32

def isDigit (c : UInt8) : Bool := ch '0' ≤ c ∧ c ≤ ch '9'

def skipDigits (ptr : List UInt8) : List UInt8 := ptr.dropWhile isDigit

def tolower (c : UInt8) : UInt8 := if ch 'A' ≤ c ∧ c ≤ ch 'Z' then c + 32 else c

def hexDigit (c : UInt8) : Option UInt32 :=
  if isDigit c then some (c - ch '0').toUInt32
  else if ch 'a' ≤ tolower c ∧ tolower c ≤ ch 'f' then some (tolower c - ch 'a' + 10).toUInt32
  else none

/-- `sscanf(s, "%4x", &uc)`: what `uc` becomes, or `none` where nothing is converted.  Leading
blanks are skipped; a sign and `0x` are allowed and count as characters. -/
def sscanf4x (s : List UInt8) : Option UInt32 :=
  let field := (s.dropWhile fun c => c = 32 ∨ (9 ≤ c ∧ c ≤ 13)).take 4
  let (negative, field) :=
    if deref field = ch '-' then (Bool.true, field.tail)
    else if deref field = ch '+' then (Bool.false, field.tail) else (Bool.false, field)
  let hex := hasPrefix ['0', 'x'] field ∨ hasPrefix ['0', 'X'] field
  let digits := (if hex then field.drop 2 else field).map hexDigit |>.takeWhile Option.isSome
  if digits = [] ∧ ¬ hex then none
  else
    let value := digits.reduceOption.foldl (fun n d => n * 16 + d) 0
    some (if negative then 0 - value else value)

/-! ## Values -/

/-- How a number is read: the rest of the text behind it. -/
def parseNumber (num : List UInt8) : List UInt8 :=
  let num := if deref num = ch '-' then num.tail else num
  let num := if deref num = ch '0' then num.tail else num
  let num := if ch '1' ≤ deref num ∧ deref num ≤ ch '9' then skipDigits num.tail else num
  -- the character behind the point is not looked at
  let num := if deref num = ch '.' then skipDigits (num.drop 2) else num
  if deref num = ch 'e' ∨ deref num = ch 'E' then
    let num := num.tail
    skipDigits (if deref num = ch '+' ∨ deref num = ch '-' then num.tail else num)
  else num

/-- What a number leaves behind its integer. -/
def integerRest (num : List UInt8) : List UInt8 :=
  let num := if deref num = ch '-' then num.tail else num
  let num := if deref num = ch '0' then num.tail else num
  if ch '1' ≤ deref num ∧ deref num ≤ ch '9' then skipDigits num.tail else num

/-- A point, and the end of the text: `parse_number` takes the terminator for a digit. -/
def EndsInPoint (num : List UInt8) : Prop :=
  deref (integerRest num) = ch '.' ∧ deref (integerRest num).tail = 0

instance (num : List UInt8) : Decidable (EndsInPoint num) := inferInstanceAs (Decidable (_ ∧ _))

/-- UTF-8 of `uc` in one to three bytes, and what is left of `uc`. -/
def transcode (uc : UInt32) : List UInt8 × UInt32 :=
  if uc < 0x80 then ([uc.toUInt8], uc)
  else if uc < 0x800 then
    ([(uc >>> 6 ||| 0xC0).toUInt8, ((uc ||| 0x80) &&& 0xBF).toUInt8], uc >>> 6)
  else ([(uc >>> 12 ||| 0xE0).toUInt8, ((uc >>> 6 ||| 0x80) &&& 0xBF).toUInt8,
    ((uc ||| 0x80) &&& 0xBF).toUInt8], uc >>> 12)

/-- The character behind a backslash. -/
def unescape (c : UInt8) : UInt8 :=
  if c = ch 'b' then 8 else if c = ch 'f' then 12 else if c = ch 'n' then 10
  else if c = ch 'r' then 13 else if c = ch 't' then 9 else c

/-- How long a string gets: the first loop of `parse_string`. -/
def parseStringLen : (fuel : ℕ) → (ptr : List UInt8) → Option ℕ
  | 0, _ => some 0
  | fuel + 1, ptr =>
    let c := deref ptr
    if c = ch '"' ∨ c ≤ 31 then some 0
    else if c ≠ ch '\\' then (parseStringLen fuel ptr.tail).map (· + 1)
    else if deref ptr.tail = 0 then none
    else (parseStringLen fuel ptr.tail.tail).map (· + 1)

/-- The characters of a string up to its end, and the text from there on.  `uc` is what the last
`\u` left behind. -/
def parseStringLoop : (fuel : ℕ) → (ptr : List UInt8) → (uc : UInt32) →
    Option (List UInt8 × List UInt8)
  | 0, ptr, _ => some ([], ptr)
  | fuel + 1, ptr, uc =>
    let c := deref ptr
    if c = ch '"' ∨ c ≤ 31 then some ([], ptr)
    else if c ≠ ch '\\' then
      (parseStringLoop fuel ptr.tail uc).map fun p => (c :: p.1, p.2)
    else
      let ptr := ptr.tail
      let e := deref ptr
      if e = 0 then none
      else if e = ch 'u' then
        if (ptr.takeWhile (· ≠ 0)).length < 5 then none
        else
          let (bytes, uc) := transcode ((sscanf4x ptr.tail).getD uc)
          (parseStringLoop fuel (ptr.drop 5) uc).map fun p => (bytes ++ p.1, p.2)
      else (parseStringLoop fuel ptr.tail uc).map fun p => (unescape e :: p.1, p.2)

/-- An unescaped string; one that breaks off is accepted as it stands.  (`uc` is not initialised in
the source; it starts at `0` here.) -/
def parseString (str : List UInt8) : Option (List UInt8 × List UInt8) :=
  if deref str ≠ ch '"' then none
  else
    (parseStringLen str.length str.tail).bind fun len =>
    (parseStringLoop str.length str.tail 0).bind fun p =>
    if len < p.1.length then none
    else some (p.1, if deref p.2 = ch '"' then p.2.tail else p.2)

/-- What `parse_array` and `parse_object` share around their loops. -/
def parseChildren {β : Type} (close : Char) (item : List β → Json)
    (loop : List UInt8 → Option (List β × List UInt8)) (value : List UInt8) :
    Option (Json × List UInt8) :=
  let value := skip value.tail
  if deref value = ch close then some (item [], value.tail)
  else
    match loop value with
    | none => none
    | some (children, value) =>
      if deref value = ch close then some (item children, value.tail) else none

def parseArray : (List UInt8 → Option (List Json × List UInt8)) → List UInt8 →
    Option (Json × List UInt8) := parseChildren ']' .array

def parseObject : (List UInt8 → Option (List (List UInt8 × Json) × List UInt8)) → List UInt8 →
    Option (Json × List UInt8) := parseChildren '}' .object

mutual

def parseValue : (fuel : ℕ) → List UInt8 → Option (Json × List UInt8)
  | 0, _ => none
  | fuel + 1, value =>
    if hasPrefix ['n', 'u', 'l', 'l'] value then some (.null, value.drop 4)
    else if hasPrefix ['f', 'a', 'l', 's', 'e'] value then some (.false, value.drop 5)
    else if hasPrefix ['t', 'r', 'u', 'e'] value then some (.true, value.drop 4)
    else if deref value = ch '"' then (parseString value).map fun p => (.string p.1, p.2)
    else if deref value = ch '-' ∨ isDigit (deref value) then
      if EndsInPoint value then none
      else
        let rest := parseNumber value
        some (.number (value.take (value.length - rest.length)), rest)
    else if deref value = ch '[' then parseArray (parseItems fuel) value
    else if deref value = ch '{' then parseObject (parseMembers fuel) value
    else none

/-- The items of an array, separated by commas. -/
def parseItems : (fuel : ℕ) → List UInt8 → Option (List Json × List UInt8)
  | 0, _ => none
  | fuel + 1, value => do
    let (child, value) ← parseValue fuel (skip value)
    let value := skip value
    if deref value = ch ',' then
      let (children, value) ← parseItems fuel value.tail
      return (child :: children, value)
    else return ([child], value)

/-- The members of an object, separated by commas. -/
def parseMembers : (fuel : ℕ) → List UInt8 → Option (List (List UInt8 × Json) × List UInt8)
  | 0, _ => none
  | fuel + 1, value => do
    let (string, value) ← parseString (skip value)
    let value := skip value
    if deref value ≠ ch ':' then none
    let (child, value) ← parseValue fuel (skip value.tail)
    let value := skip value
    if deref value = ch ',' then
      let (children, value) ← parseMembers fuel value.tail
      return ((string, child) :: children, value)
    else return ([(string, child)], value)

end

/-- `tr50_json_parse` -/
def tr50JsonParse (value : List UInt8) : Option Json :=
  (parseValue (2 * value.length + 1) (skip value)).map Prod.fst

/-! ## Items -/

/-- The items of an array or object, with their names. -/
def Json.child : Json → List (Option (List UInt8) × Json)
  | .array children => children.map fun child => (none, child)
  | .object children => children.map fun p => (some p.1, p.2)
  | _ => []

def strCaseCmpLoop : List UInt8 → List UInt8 → ℤ
  | [], s2 => 0 - (tolower (deref s2)).toNat
  | c :: s1, s2 =>
    if tolower c = tolower (deref s2) then if c = 0 then 0 else strCaseCmpLoop s1 s2.tail
    else (tolower c).toNat - (tolower (deref s2)).toNat

/-- `0` for strings that differ in case at most; an item of an array has no name, and differs. -/
def tr50JsonStrCaseCmp (s1 : Option (List UInt8)) (s2 : List UInt8) : ℤ :=
  match s1 with
  | none => 1
  | some s1 => strCaseCmpLoop s1 s2

/-- `NULL` for a `NULL` array and behind the last item. -/
def tr50JsonGetArrayItem (array : Option Json) (item : ℤ) : Option Json := do
  let child ← (← array).child[item.toNat]?
  return child.2

def tr50JsonGetObjectItem (object : Option Json) (string : List UInt8) : Option Json := do
  let child ← (← object).child.find? fun c => tr50JsonStrCaseCmp c.1 string = 0
  return child.2

def tr50JsonGetObjectItemAsString (object : Option Json) (string : List UInt8) :
    Option (List UInt8) :=
  match tr50JsonGetObjectItem object string with
  | some (.string valuestring) => some valuestring
  | _ => none

def tr50JsonGetObjectItemAsBool (object : Option Json) (string : List UInt8) : Option Bool :=
  match tr50JsonGetObjectItem object string with
  | some .true => some true
  | some .false => some false
  | _ => none

/-- `tr50_json_get_object_item` with the name NULL: the first item that has none. -/
def tr50JsonGetUnnamedItem (object : Option Json) : Option Json := do
  let child ← (← object).child.find? fun c => c.1.isNone
  return child.2

/-! ## Progress -/

theorem length_skip_le (ptr : List UInt8) : (skip ptr).length ≤ ptr.length :=
  (List.dropWhile_suffix _).length_le

theorem length_skipDigits_le (ptr : List UInt8) : (skipDigits ptr).length ≤ ptr.length :=
  (List.dropWhile_suffix _).length_le

/-- A character other than the terminator is a byte of the text. -/
theorem length_tail_lt {ptr : List UInt8} (h : deref ptr ≠ 0) : ptr.tail.length < ptr.length := by
  cases ptr with
  | nil => exact absurd rfl h
  | cons c ptr => simp

theorem length_tail_le (ptr : List UInt8) : ptr.tail.length ≤ ptr.length := by
  rw [List.length_tail]
  exact Nat.sub_le _ _

/-- What a number leaves behind its fraction… -/
def fractionRest (num : List UInt8) : List UInt8 :=
  if deref num = ch '.' then skipDigits (num.drop 2) else num

/-- …and its exponent. -/
def exponentRest (num : List UInt8) : List UInt8 :=
  if deref num = ch 'e' ∨ deref num = ch 'E' then
    skipDigits
      (if deref num.tail = ch '+' ∨ deref num.tail = ch '-' then num.tail.tail else num.tail)
  else num

theorem parseNumber_eq (num : List UInt8) :
    parseNumber num = exponentRest (fractionRest (integerRest num)) := rfl

theorem length_exponentRest_le (num : List UInt8) : (exponentRest num).length ≤ num.length := by
  unfold exponentRest
  split_ifs
  · exact (length_skipDigits_le _).trans ((length_tail_le _).trans (length_tail_le _))
  · exact (length_skipDigits_le _).trans (length_tail_le _)
  · exact le_rfl

theorem length_fractionRest_le (num : List UInt8) : (fractionRest num).length ≤ num.length := by
  unfold fractionRest
  split_ifs
  · exact (length_skipDigits_le _).trans (by simp)
  · exact le_rfl

/-- The digits behind a sign and a zero. -/
theorem length_digitsRest_le (num : List UInt8) :
    (if ch '1' ≤ deref num ∧ deref num ≤ ch '9' then skipDigits num.tail else num).length
      ≤ num.length := by
  split_ifs
  · exact (length_skipDigits_le _).trans (length_tail_le _)
  · exact le_rfl

/-- An integer is at least one character… -/
theorem length_integerRest_lt {num : List UInt8} (h : deref num = ch '-' ∨ isDigit (deref num)) :
    (integerRest num).length < num.length := by
  have hne : deref num ≠ 0 := by
    rintro h0
    rw [h0] at h
    exact absurd h (by decide)
  have hlt := length_tail_lt hne
  rw [integerRest]
  by_cases hminus : deref num = ch '-'
  · rw [if_pos hminus]
    refine lt_of_le_of_lt ((length_digitsRest_le _).trans ?_) hlt
    split_ifs
    · exact length_tail_le _
    · exact le_rfl
  · rw [if_neg hminus]
    by_cases h0 : deref num = ch '0'
    · rw [if_pos h0]
      exact (length_digitsRest_le _).trans_lt hlt
    · rw [if_neg h0, if_pos ?_]
      · exact (length_skipDigits_le _).trans_lt hlt
      · have hdigit : isDigit (deref num) := h.resolve_left hminus
        simp only [isDigit, decide_eq_true_eq] at hdigit
        refine ⟨?_, hdigit.2⟩
        have h1 : (ch '0').toNat ≤ (deref num).toNat := hdigit.1
        have h2 : (deref num).toNat ≠ (ch '0').toNat := fun h => h0 (UInt8.toNat_inj.mp h)
        show (ch '0').toNat + 1 ≤ (deref num).toNat
        omega

/-- …and so is a number. -/
theorem length_parseNumber_lt {num : List UInt8} (h : deref num = ch '-' ∨ isDigit (deref num)) :
    (parseNumber num).length < num.length := by
  rw [parseNumber_eq]
  exact ((length_exponentRest_le _).trans (length_fractionRest_le _)).trans_lt
    (length_integerRest_lt h)

/-- A string stops in its text. -/
theorem length_parseStringLoop_le (fuel : ℕ) : ∀ {ptr : List UInt8} {uc : UInt32}
    {p : List UInt8 × List UInt8}, parseStringLoop fuel ptr uc = some p →
    p.2.length ≤ ptr.length := by
  induction fuel with
  | zero =>
    intro ptr uc p h
    obtain rfl := Option.some.inj h
    exact le_rfl
  | succ fuel ih =>
    intro ptr uc p h
    simp only [parseStringLoop] at h
    split_ifs at h
    · obtain rfl := Option.some.inj h
      exact le_rfl
    · obtain ⟨p, hloop, rfl⟩ := Option.map_eq_some_iff.mp h
      exact (ih hloop).trans (length_tail_le _)
    · obtain ⟨p, hloop, rfl⟩ := Option.map_eq_some_iff.mp h
      exact (ih hloop).trans ((List.drop_sublist _ _).length_le.trans (length_tail_le _))
    · obtain ⟨p, hloop, rfl⟩ := Option.map_eq_some_iff.mp h
      exact (ih hloop).trans ((length_tail_le _).trans (length_tail_le _))

/-- Its fuel is enough: more changes nothing. -/
theorem parseStringLoop_fuel (fuel : ℕ) : ∀ (fuel' : ℕ) (ptr : List UInt8) (uc : UInt32),
    ptr.length < fuel → ptr.length < fuel' →
    parseStringLoop fuel ptr uc = parseStringLoop fuel' ptr uc := by
  induction fuel with
  | zero => exact fun fuel' ptr uc h => absurd h (Nat.not_lt_zero _)
  | succ fuel ih =>
    intro fuel' ptr uc h h'
    obtain ⟨fuel', rfl⟩ := Nat.exists_eq_succ_of_ne_zero (Nat.ne_of_gt (Nat.zero_lt_of_lt h'))
    by_cases hend : deref ptr = ch '"' ∨ deref ptr ≤ 31
    · simp only [parseStringLoop, if_pos hend]
    · have hlt : ptr.tail.length < ptr.length :=
        length_tail_lt fun h0 => hend (Or.inr (by rw [h0]; decide))
      have hdrop : ∀ k, (ptr.tail.drop k).length ≤ ptr.tail.length :=
        fun k => (List.drop_sublist _ _).length_le
      have htail := length_tail_le ptr.tail
      simp only [parseStringLoop, if_neg hend]
      rw [ih fuel' ptr.tail uc (by omega) (by omega),
        ih fuel' (ptr.tail.drop 5) _ (by have := hdrop 5; omega) (by have := hdrop 5; omega),
        ih fuel' ptr.tail.tail uc (by omega) (by omega)]

/-- A string is at least its first quote. -/
theorem length_parseString_lt {str out rest : List UInt8} (h : parseString str = some (out, rest)) :
    rest.length < str.length := by
  unfold parseString at h
  split_ifs at h with hquote
  obtain ⟨len, -, h⟩ := Option.bind_eq_some_iff.mp h
  obtain ⟨p, hparse, h⟩ := Option.bind_eq_some_iff.mp h
  have hlt : str.tail.length < str.length :=
    length_tail_lt fun h0 => hquote (by rw [h0]; decide)
  have hloop := length_parseStringLoop_le str.length hparse
  split_ifs at h with hblock hend <;> obtain ⟨rfl, rfl⟩ := Prod.mk.inj (Option.some.inj h)
  · exact lt_of_le_of_lt ((length_tail_le _).trans hloop) hlt
  · exact lt_of_le_of_lt hloop hlt

/-- An array or object stops behind its first bracket if its loop stops in the text. -/
theorem length_parseChildren_lt {β : Type} {close : Char} {item : List β → Json}
    {loop : List UInt8 → Option (List β × List UInt8)} {value rest : List UInt8} {json : Json}
    (hne : deref value ≠ 0)
    (hloop : ∀ value children rest, loop value = some (children, rest) →
      rest.length ≤ value.length)
    (h : parseChildren close item loop value = some (json, rest)) :
    rest.length < value.length := by
  have hskip := (length_skip_le value.tail).trans_lt (length_tail_lt hne)
  simp only [parseChildren] at h
  split_ifs at h
  · obtain ⟨-, rfl⟩ := Prod.mk.inj (Option.some.inj h)
    exact (length_tail_le _).trans_lt hskip
  · split at h
    · cases h
    · rename_i children value' hchildren
      split_ifs at h
      obtain ⟨-, rfl⟩ := Prod.mk.inj (Option.some.inj h)
      exact (length_tail_le _).trans_lt ((hloop _ _ _ hchildren).trans_lt hskip)

/-- A value is at least one character… -/
theorem length_parseValue_succ {fuel : ℕ}
    (hitems : ∀ value children rest, parseItems fuel value = some (children, rest) →
      rest.length ≤ value.length)
    (hmembers : ∀ value children rest, parseMembers fuel value = some (children, rest) →
      rest.length ≤ value.length)
    {value rest : List UInt8} {json : Json} (h : parseValue (fuel + 1) value = some (json, rest)) :
    rest.length < value.length := by
  have hliteral : ∀ (s : List Char) (k : ℕ), hasPrefix s value → 0 < s.length → 0 < k →
      (value.drop k).length < value.length := by
    intro s k hs hpos hk
    have := (List.isPrefixOf_iff_prefix.mp hs).length_le
    simp only [cstring, List.length_map] at this
    rw [List.length_drop]
    omega
  simp only [parseValue] at h
  split_ifs at h with hnull hfalse htrue hstring hnumber hpoint harray hobject
  · obtain ⟨-, rfl⟩ := Prod.mk.inj (Option.some.inj h)
    exact hliteral _ _ hnull (by decide) (by decide)
  · obtain ⟨-, rfl⟩ := Prod.mk.inj (Option.some.inj h)
    exact hliteral _ _ hfalse (by decide) (by decide)
  · obtain ⟨-, rfl⟩ := Prod.mk.inj (Option.some.inj h)
    exact hliteral _ _ htrue (by decide) (by decide)
  · obtain ⟨⟨out, rest'⟩, hparse, h⟩ := Option.map_eq_some_iff.mp h
    obtain ⟨-, rfl⟩ := Prod.mk.inj h
    exact length_parseString_lt hparse
  · obtain ⟨-, rfl⟩ := Prod.mk.inj (Option.some.inj h)
    exact length_parseNumber_lt hnumber
  · exact length_parseChildren_lt (by rw [harray]; decide) hitems h
  · exact length_parseChildren_lt (by rw [hobject]; decide) hmembers h

/-- …items are a part of the text… -/
theorem length_parseItems_succ {fuel : ℕ}
    (hvalue : ∀ value json rest, parseValue fuel value = some (json, rest) →
      rest.length < value.length)
    (hitems : ∀ value children rest, parseItems fuel value = some (children, rest) →
      rest.length ≤ value.length)
    {value rest : List UInt8} {children : List Json}
    (h : parseItems (fuel + 1) value = some (children, rest)) : rest.length ≤ value.length := by
  simp only [parseItems] at h
  obtain ⟨⟨child, value₁⟩, hchild, h⟩ := Option.bind_eq_some_iff.mp h
  have h₁ := (length_skip_le value₁).trans
    ((hvalue _ _ _ hchild).le.trans (length_skip_le value))
  simp only at h
  split_ifs at h
  · obtain ⟨⟨children', value₂⟩, hrest, h⟩ := Option.bind_eq_some_iff.mp h
    obtain ⟨-, rfl⟩ := Prod.mk.inj (Option.some.inj h)
    exact (hitems _ _ _ hrest).trans ((length_tail_le _).trans h₁)
  · obtain ⟨-, rfl⟩ := Prod.mk.inj (Option.some.inj h)
    exact h₁

/-- …and so are members. -/
theorem length_parseMembers_succ {fuel : ℕ}
    (hvalue : ∀ value json rest, parseValue fuel value = some (json, rest) →
      rest.length < value.length)
    (hmembers : ∀ value children rest, parseMembers fuel value = some (children, rest) →
      rest.length ≤ value.length)
    {value rest : List UInt8} {children : List (List UInt8 × Json)}
    (h : parseMembers (fuel + 1) value = some (children, rest)) : rest.length ≤ value.length := by
  simp only [parseMembers] at h
  obtain ⟨⟨string, value₀⟩, hstring, h⟩ := Option.bind_eq_some_iff.mp h
  have h₀ := (length_skip_le value₀).trans
    ((length_parseString_lt hstring).le.trans (length_skip_le value))
  simp only at h
  split_ifs at h with hcolon
  · cases h
  obtain ⟨⟨child, value₁⟩, hchild, h⟩ := Option.bind_eq_some_iff.mp h
  have h₁ := (length_skip_le value₁).trans ((hvalue _ _ _ hchild).le.trans
    ((length_skip_le _).trans ((length_tail_le _).trans h₀)))
  simp only at h
  split_ifs at h
  · obtain ⟨⟨children', value₂⟩, hrest, h⟩ := Option.bind_eq_some_iff.mp h
    obtain ⟨-, rfl⟩ := Prod.mk.inj (Option.some.inj h)
    exact (hmembers _ _ _ hrest).trans ((length_tail_le _).trans h₁)
  · obtain ⟨-, rfl⟩ := Prod.mk.inj (Option.some.inj h)
    exact h₁

/-- **What is parsed is a part of the text**, and a value is at least one character. -/
theorem length_parse (fuel : ℕ) :
    (∀ value json rest, parseValue fuel value = some (json, rest) → rest.length < value.length)
    ∧ (∀ value children rest, parseItems fuel value = some (children, rest) →
      rest.length ≤ value.length)
    ∧ ∀ value children rest, parseMembers fuel value = some (children, rest) →
      rest.length ≤ value.length := by
  induction fuel with
  | zero => simp [parseValue, parseItems, parseMembers]
  | succ fuel ih =>
    obtain ⟨hvalue, hitems, hmembers⟩ := ih
    exact ⟨fun _ _ _ h => length_parseValue_succ hitems hmembers h,
      fun _ _ _ h => length_parseItems_succ hvalue hitems h,
      fun _ _ _ h => length_parseMembers_succ hvalue hmembers h⟩

/-- The loops agree as long as they agree on what is left behind the first bracket. -/
theorem parseChildren_congr {β : Type} {close : Char} {item : List β → Json}
    {loop loop' : List UInt8 → Option (List β × List UInt8)} {value : List UInt8}
    (h : loop (skip value.tail) = loop' (skip value.tail)) :
    parseChildren close item loop value = parseChildren close item loop' value := by
  simp only [parseChildren, h]

/-- One turn of the parser does with more fuel what it does with enough… -/
theorem parseValue_succ {fuel fuel' : ℕ} {value : List UInt8}
    (hitems : ∀ rest : List UInt8, rest.length < value.length →
      parseItems fuel rest = parseItems fuel' rest)
    (hmembers : ∀ rest : List UInt8, rest.length < value.length →
      parseMembers fuel rest = parseMembers fuel' rest) :
    parseValue (fuel + 1) value = parseValue (fuel' + 1) value := by
  have hskip : deref value ≠ 0 → (skip value.tail).length < value.length :=
    fun h => (length_skip_le value.tail).trans_lt (length_tail_lt h)
  simp only [parseValue]
  split_ifs with hnull hfalse htrue hstring hnumber hpoint harray hobject
  any_goals rfl
  · exact parseChildren_congr (hitems _ (hskip (by rw [harray]; decide)))
  · exact parseChildren_congr (hmembers _ (hskip (by rw [hobject]; decide)))

/-- …and so does one of the items… -/
theorem parseItems_succ {fuel fuel' : ℕ} {value : List UInt8}
    (hvalue : ∀ rest : List UInt8, rest.length ≤ value.length →
      parseValue fuel rest = parseValue fuel' rest)
    (hitems : ∀ rest : List UInt8, rest.length < value.length →
      parseItems fuel rest = parseItems fuel' rest) :
    parseItems (fuel + 1) value = parseItems (fuel' + 1) value := by
  have hskip := length_skip_le value
  simp only [parseItems]
  rw [hvalue (skip value) hskip]
  refine Option.bind_congr fun ⟨child, value₁⟩ hchild => ?_
  have h₁ := (length_skip_le value₁).trans_lt ((length_parse fuel').1 _ _ _ hchild)
  have htail := length_tail_le (skip value₁)
  simp only
  rw [hitems (skip value₁).tail (by omega)]

/-- …and of the members. -/
theorem parseMembers_succ {fuel fuel' : ℕ} {value : List UInt8}
    (hvalue : ∀ rest : List UInt8, rest.length ≤ value.length →
      parseValue fuel rest = parseValue fuel' rest)
    (hmembers : ∀ rest : List UInt8, rest.length < value.length →
      parseMembers fuel rest = parseMembers fuel' rest) :
    parseMembers (fuel + 1) value = parseMembers (fuel' + 1) value := by
  have hskip := length_skip_le value
  simp only [parseMembers]
  refine Option.bind_congr fun ⟨string, value₀⟩ hstring => ?_
  have h₀ := (length_skip_le value₀).trans_lt (length_parseString_lt hstring)
  have htail₀ := length_tail_le (skip value₀)
  have hskip₀ := length_skip_le (skip value₀).tail
  simp only
  rw [hvalue (skip (skip value₀).tail) (by omega)]
  split_ifs with hcolon
  · rfl
  refine Option.bind_congr fun ⟨child, value₁⟩ hchild => ?_
  have h₁ := (length_skip_le value₁).trans_lt ((length_parse fuel').1 _ _ _ hchild)
  have htail := length_tail_le (skip value₁)
  simp only
  rw [hmembers (skip value₁).tail (by omega)]

/-- **Twice the length of the text is fuel enough**: more changes nothing. -/
theorem parseValue_fuel (fuel : ℕ) :
    (∀ fuel' value, 2 * value.length < fuel → 2 * value.length < fuel' →
      parseValue fuel value = parseValue fuel' value)
    ∧ (∀ fuel' value, 2 * value.length + 1 < fuel → 2 * value.length + 1 < fuel' →
      parseItems fuel value = parseItems fuel' value)
    ∧ ∀ fuel' value, 2 * value.length + 1 < fuel → 2 * value.length + 1 < fuel' →
      parseMembers fuel value = parseMembers fuel' value := by
  induction fuel with
  | zero => exact ⟨fun _ _ h => by omega, fun _ _ h => by omega, fun _ _ h => by omega⟩
  | succ fuel ih =>
    obtain ⟨ihvalue, ihitems, ihmembers⟩ := ih
    refine ⟨fun fuel' value h h' => ?_, fun fuel' value h h' => ?_, fun fuel' value h h' => ?_⟩
    all_goals
      obtain ⟨fuel', rfl⟩ := Nat.exists_eq_succ_of_ne_zero (Nat.ne_of_gt (Nat.zero_lt_of_lt h'))
    · exact parseValue_succ (fun rest hrest => ihitems fuel' rest (by omega) (by omega))
        fun rest hrest => ihmembers fuel' rest (by omega) (by omega)
    · exact parseItems_succ (fun rest hrest => ihvalue fuel' rest (by omega) (by omega))
        fun rest hrest => ihitems fuel' rest (by omega) (by omega)
    · exact parseMembers_succ (fun rest hrest => ihvalue fuel' rest (by omega) (by omega))
        fun rest hrest => ihmembers fuel' rest (by omega) (by omega)

/-- What the parser returns, with any fuel that is enough. -/
theorem tr50JsonParse_eq {value : List UInt8} {fuel : ℕ} (h : 2 * value.length < fuel) :
    tr50JsonParse value = (parseValue fuel (skip value)).map Prod.fst := by
  have hskip := length_skip_le value
  rw [tr50JsonParse, (parseValue_fuel _).1 fuel (skip value) (by omega) (by omega)]

end Tr50
