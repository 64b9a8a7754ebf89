import Tr50.Machinery.Cursor
import Tr50.Util.Number

/-!
# Util/Print — the JSON printer

`tr50_json_print` of `tr50.json.c`, with the blocks that it writes: every printer counts first how
long its text gets, and stores it then without looking.  A result is `none` where this is undefined:
the code writes past its block, or a length is no `int`.  It is never NULL, which the code returns
only where there is no memory.

What is printed is `JsonItem.text` (`printValue_eq`), and the parser reads it back
(`tr50JsonParse_text`) — but for the characters that a string loses on its way (`escapeOf`).
-/

namespace Tr50

open Machinery

/-- A `JSON` item, by its children; a member of an object has a name, or `string` is NULL. -/
inductive JsonItem
  | null
  | false
  | true
  | number (n : JsonNumber)
  | string (valuestring : List UInt8)
  | array (children : List JsonItem)
  | object (children : List (Option (List UInt8) × JsonItem))

/-! ## Strings -/

/-- A character that is written as it is. -/
def isPlain (c : UInt8) : Bool := 31 < c ∧ c ≠ ch '"' ∧ c ≠ ch '\\'

/-- What is written behind a backslash; for another control character nothing is. -/
def escapeOf (c : UInt8) : Option UInt8 :=
  if c = ch '\\' then some (ch '\\') else if c = ch '"' then some (ch '"')
  else if c = 8 then some (ch 'b') else if c = 12 then some (ch 'f')
  else if c = 10 then some (ch 'n') else if c = 13 then some (ch 'r')
  else if c = 9 then some (ch 't') else none

/-- The first loop of `print_string_ptr`. -/
def printStringLen : (len : ℤ) → List UInt8 → Option ℤ
  | len, [] => some len
  | len, c :: str => do
    let len ← intAdd len 1
    if c < 32 ∨ c = ch '"' ∨ c = ch '\\' then
      let len ← intAdd len 1
      printStringLen len str
    else printStringLen len str

/-- One character of the second loop. -/
def printChar (s : Cursor) (c : UInt8) : Option Cursor :=
  if isPlain c then s.put c
  else
    match escapeOf c with
    | some e => (s.put (ch '\\')).bind (·.put e)
    -- eviscerate with prejudice
    | none => s.putBack (ch '\\')

/-- `print_string_ptr`; NULL gives the empty text, without quotes. -/
def printStringPtr : Option (List UInt8) → Option (List UInt8)
  | none => some []
  | some str => do
    let len ← printStringLen 0 (cut str)
    let size ← intAdd len 3
    let s ← (Cursor.start size.toNat).put (ch '"')
    let s ← (cut str).foldlM printChar s
    let s ← s.put (ch '"')
    s.finish

/-! ## Numbers -/

/-- Whether `print_number` takes the integer for the value. -/
def JsonNumber.isInteger (n : JsonNumber) : Bool :=
  (BinaryFloat.sub binary64 (toDouble n.valuelonglong) n.valuedouble).abs.le dblEpsilon

/-- The block of `print_number`: 2^64+1 can be represented in 21 chars, and the other is a nice
tradeoff. -/
def JsonNumber.block (n : JsonNumber) : ℕ := if n.isInteger then 21 else 64

/-- `print_number`, into its block; for a longer text (that of `1e300`) `sprintf` writes past the
end, and the block is returned all the same. -/
def printNumberBlock (sprintf : List Char → Double → List UInt8) (n : JsonNumber) :
    Option (List UInt8) :=
  if (printNumber sprintf n).length < n.block then some (printNumber sprintf n) else none

/-! ## Arrays and objects -/

/-- What `len` is raised by, entry by entry; the sum has to be an `int`. -/
def addLens (len : ℤ) (lens : List ℕ) : Option ℤ := intOf (len + lens.sum)

/-- The entries of an array. -/
def printEntries (fmt : Bool) : List (List UInt8) → Cursor → Option Cursor
  | [], s => some s
  | [entry], s => s.copy entry
  | entry :: entries, s => do
    let s ← s.copy entry
    let s ← s.put (ch ',')
    let s ← s.onlyIf fmt (·.put (ch ' '))
    let s ← s.terminate
    printEntries fmt entries s

/-- `print_array` of the texts of its children. -/
def printArray (fmt : Bool) (entries : List (List UInt8)) : Option (List UInt8) :=
  if entries = [] then some (cstring ['[', ']'])
  else do
    let len ← addLens 5 (entries.map fun entry => entry.length + 2 + if fmt then 1 else 0)
    let s ← (Cursor.start len.toNat).put (ch '[')
    let s ← s.terminate
    let s ← printEntries fmt entries s
    let s ← s.put (ch ']')
    s.finish

/-- `for (j=0;j<depth;j++) *ptr++='\t'` -/
def printTabs : (depth : ℕ) → Cursor → Option Cursor
  | 0, s => some s
  | depth + 1, s => (s.put 9).bind (printTabs depth)

/-- A member up to the comma. -/
def printMember (fmt : Bool) (depth : ℕ) (member : List UInt8 × List UInt8) (s : Cursor) :
    Option Cursor := do
  let s ← s.onlyIf fmt (printTabs depth)
  let s ← s.copy member.1
  let s ← s.put (ch ':')
  let s ← s.onlyIf fmt (·.put 9)
  s.copy member.2

/-- The members of an object. -/
def printMembers (fmt : Bool) (depth : ℕ) : List (List UInt8 × List UInt8) → Cursor → Option Cursor
  | [], s => some s
  | member :: members, s => do
    let s ← printMember fmt depth member s
    let s ← s.onlyIf (members ≠ []) (·.put (ch ','))
    let s ← s.onlyIf fmt (·.put 10)
    let s ← s.terminate
    printMembers fmt depth members s

/-- `print_object` of the names and texts of its children; `depth` is that of the members. -/
def printObject (fmt : Bool) (depth : ℕ) (members : List (List UInt8 × List UInt8)) :
    Option (List UInt8) := do
  let len ← addLens (7 + if fmt then (depth : ℤ) else 0)
    (members.map fun m => m.2.length + m.1.length + 2 + if fmt then 2 + depth else 0)
  let s ← (Cursor.start len.toNat).put (ch '\x7b')
  let s ← s.onlyIf fmt (·.put 10)
  let s ← s.terminate
  let s ← printMembers fmt depth members s
  let s ← s.onlyIf fmt (printTabs (depth - 1))
  let s ← s.put (ch '\x7d')
  s.finish

section Values

variable (sprintf : List Char → Double → List UInt8) (fmt : Bool)

mutual

/-- `print_value` -/
def printValue : (depth : ℕ) → JsonItem → Option (List UInt8)
  | _, .null => some (cstring ['n', 'u', 'l', 'l'])
  | _, .false => some (cstring ['f', 'a', 'l', 's', 'e'])
  | _, .true => some (cstring ['t', 'r', 'u', 'e'])
  | _, .number n => printNumberBlock sprintf n
  | _, .string valuestring => printStringPtr (some valuestring)
  | depth, .array children => (printItems (depth + 1) children).bind (printArray fmt)
  | depth, .object children =>
      (printNamed (depth + 1) children).bind (printObject fmt (depth + 1))

/-- The entries of an array. -/
def printItems : (depth : ℕ) → List JsonItem → Option (List (List UInt8))
  | _, [] => some []
  | depth, child :: children => do
    let entry ← printValue depth child
    let entries ← printItems depth children
    return entry :: entries

/-- The names and entries of an object. -/
def printNamed : (depth : ℕ) → List (Option (List UInt8) × JsonItem) →
    Option (List (List UInt8 × List UInt8))
  | _, [] => some []
  | depth, child :: children => do
    let name ← printStringPtr child.1
    let entry ← printValue depth child.2
    let members ← printNamed depth children
    return (name, entry) :: members

end

/-- `tr50_json_print`, and `tr50_json_print_unformatted`. -/
def tr50JsonPrint (item : JsonItem) : Option (List UInt8) := printValue sprintf false 0 item

end Values

/-! ## The text -/

/-- What is written for a character. -/
def escaped (c : UInt8) : List UInt8 :=
  if isPlain c then [c] else (escapeOf c).elim [] fun e => [ch '\\', e]

/-- A string, between quotes. -/
def quoted (str : List UInt8) : List UInt8 := ch '"' :: ((cut str).flatMap escaped ++ [ch '"'])

def nameText (name : Option (List UInt8)) : List UInt8 := name.elim [] quoted

def entriesText (fmt : Bool) : List (List UInt8) → List UInt8
  | [] => []
  | [entry] => entry
  | entry :: entries =>
      entry ++ (ch ',' :: ((if fmt then [ch ' '] else []) ++ entriesText fmt entries))

def arrayText (fmt : Bool) (entries : List (List UInt8)) : List UInt8 :=
  ch '[' :: (entriesText fmt entries ++ [ch ']'])

def memberText (fmt : Bool) (depth : ℕ) (member : List UInt8 × List UInt8) : List UInt8 :=
  (if fmt then List.replicate depth 9 else [])
    ++ (member.1 ++ (ch ':' :: ((if fmt then [9] else []) ++ member.2)))

def membersText (fmt : Bool) (depth : ℕ) : List (List UInt8 × List UInt8) → List UInt8
  | [] => []
  | member :: members =>
      memberText fmt depth member ++ ((if members ≠ [] then [ch ','] else [])
        ++ ((if fmt then [10] else []) ++ membersText fmt depth members))

def objectText (fmt : Bool) (depth : ℕ) (members : List (List UInt8 × List UInt8)) : List UInt8 :=
  ch '\x7b' :: ((if fmt then [10] else []) ++ (membersText fmt depth members
    ++ ((if fmt then List.replicate (depth - 1) 9 else []) ++ [ch '\x7d'])))

namespace JsonItem

variable (sprintf : List Char → Double → List UInt8) (fmt : Bool)

mutual

/-- The text of an item. -/
def text : (depth : ℕ) → JsonItem → List UInt8
  | _, .null => cstring ['n', 'u', 'l', 'l']
  | _, .false => cstring ['f', 'a', 'l', 's', 'e']
  | _, .true => cstring ['t', 'r', 'u', 'e']
  | _, .number n => printNumber sprintf n
  | _, .string valuestring => quoted valuestring
  | depth, .array children => arrayText fmt (texts (depth + 1) children)
  | depth, .object children => objectText fmt (depth + 1) (namedTexts (depth + 1) children)

def texts : (depth : ℕ) → List JsonItem → List (List UInt8)
  | _, [] => []
  | depth, child :: children => text depth child :: texts depth children

def namedTexts : (depth : ℕ) → List (Option (List UInt8) × JsonItem) →
    List (List UInt8 × List UInt8)
  | _, [] => []
  | depth, child :: children =>
      (nameText child.1, text depth child.2) :: namedTexts depth children

end

end JsonItem

/-! ## What fits -/

/-- What `print_string_ptr` counts for a character. -/
def charSize (c : UInt8) : ℕ := if c < 32 ∨ c = ch '"' ∨ c = ch '\\' then 2 else 1

/-- The block of a string. -/
def stringSize (str : List UInt8) : ℕ := ((cut str).map charSize).sum + 3

def arraySize (fmt : Bool) (entries : List (List UInt8)) : ℕ :=
  5 + (entries.map fun entry => entry.length + 2 + if fmt then 1 else 0).sum

def objectSize (fmt : Bool) (depth : ℕ) (members : List (List UInt8 × List UInt8)) : ℕ :=
  (7 + if fmt then depth else 0)
    + (members.map fun m => m.2.length + m.1.length + 2 + if fmt then 2 + depth else 0).sum

namespace JsonItem

variable (sprintf : List Char → Double → List UInt8) (fmt : Bool)

mutual

/-- Every length on the way is an `int`, and every number has room in its block. -/
def Fits : (depth : ℕ) → JsonItem → Prop
  | _, .null => True
  | _, .false => True
  | _, .true => True
  | _, .number n => (printNumber sprintf n).length < n.block
  | _, .string valuestring => stringSize valuestring < 2 ^ 31
  | depth, .array children => ItemsFit (depth + 1) children
      ∧ (children ≠ [] → arraySize fmt (texts sprintf fmt (depth + 1) children) < 2 ^ 31)
  | depth, .object children => NamedFit (depth + 1) children
      ∧ objectSize fmt (depth + 1) (namedTexts sprintf fmt (depth + 1) children) < 2 ^ 31

def ItemsFit : (depth : ℕ) → List JsonItem → Prop
  | _, [] => True
  | depth, child :: children => Fits depth child ∧ ItemsFit depth children

def NamedFit : (depth : ℕ) → List (Option (List UInt8) × JsonItem) → Prop
  | _, [] => True
  | depth, child :: children =>
      ((∀ name ∈ child.1, stringSize name < 2 ^ 31) ∧ Fits depth child.2) ∧ NamedFit depth children

end

end JsonItem

/-! ## Writing -/

section Writing

open Cursor

variable {n : ℕ} (fmt : Bool) (depth : ℕ)

theorem printChar_writes (c : UInt8) : Writes (Holds n) n (printChar · c) (escaped c) := by
  unfold printChar escaped
  by_cases hc : isPlain c
  · simpa only [hc, if_true] using Cursor.put_writes c
  · simp only [hc]
    cases escapeOf c with
    | some e => exact (Cursor.put_writes (ch '\\')).bind (Cursor.put_writes e)
    | none => exact putBack_writes (ch '\\')

theorem printEntries_writes : ∀ entries : List (List UInt8),
    Writes (Holds n) n (printEntries fmt entries) (entriesText fmt entries)
  | [] => Writes.nothing
  | [entry] => copy_writes entry
  | entry :: entry' :: entries => (copy_writes entry).bind ((Cursor.put_writes (ch ',')).bind
      ((onlyIf_writes (Cursor.put_writes (ch ' '))).bind
        (terminate_writes.bind (printEntries_writes (entry' :: entries)))))

theorem printTabs_writes : ∀ depth : ℕ,
    Writes (Holds n) n (printTabs depth) (List.replicate depth 9)
  | 0 => Writes.nothing
  | depth + 1 => (Cursor.put_writes 9).bind (printTabs_writes depth)

theorem printMember_writes (member : List UInt8 × List UInt8) :
    Writes (Holds n) n (printMember fmt depth member) (memberText fmt depth member) :=
  (onlyIf_writes (printTabs_writes depth)).bind ((copy_writes member.1).bind
    ((Cursor.put_writes (ch ':')).bind
      ((onlyIf_writes (Cursor.put_writes 9)).bind (copy_writes member.2))))

theorem printMembers_writes : ∀ members : List (List UInt8 × List UInt8),
    Writes (Holds n) n (printMembers fmt depth members) (membersText fmt depth members)
  | [] => Writes.nothing
  | member :: members => (printMember_writes fmt depth member).bind
      ((onlyIf_writes (Cursor.put_writes (ch ','))).bind
        ((onlyIf_writes (Cursor.put_writes 10)).bind
          (terminate_writes.bind (printMembers_writes members))))

end Writing

/-! ## Room -/

theorem length_escaped_le (c : UInt8) : (escaped c).length ≤ charSize c := by
  unfold escaped charSize
  by_cases hspecial : c < 32 ∨ c = ch '"' ∨ c = ch '\\'
  · rw [if_pos hspecial]
    split_ifs
    · simp
    · cases escapeOf c <;> simp
  · -- what is not special is plain
    simp only [not_or, UInt8.not_lt] at hspecial
    have hplain : isPlain c = true := by
      simp only [isPlain, ne_eq, decide_eq_true_eq]
      exact ⟨UInt8.lt_of_lt_of_le (by decide) hspecial.1, hspecial.2⟩
    rw [if_pos hplain, if_neg (by simpa only [not_or, UInt8.not_lt] using hspecial)]
    simp

theorem length_quoted_lt (str : List UInt8) : (quoted str).length < stringSize str := by
  have hchars : ∀ s : List UInt8, (s.flatMap escaped).length ≤ (s.map charSize).sum := fun s => by
    rw [List.length_flatMap]
    exact List.sum_le_sum fun c _ => length_escaped_le c
  have := hchars (cut str)
  simp only [quoted, stringSize, List.length_cons, List.length_append, List.length_nil]
  omega

theorem length_entriesText_le (fmt : Bool) : ∀ entries : List (List UInt8),
    (entriesText fmt entries).length
      ≤ (entries.map fun entry => entry.length + 2 + if fmt then 1 else 0).sum
  | [] => le_rfl
  | [entry] => by simp [entriesText]; omega
  | entry :: entry' :: entries => by
    have ih := length_entriesText_le fmt (entry' :: entries)
    have hspace : (if fmt then [ch ' '] else []).length ≤ if fmt then 1 else 0 := by
      split_ifs <;> simp
    simp only [entriesText, List.length_append, List.length_cons, List.map_cons,
      List.sum_cons] at ih ⊢
    omega

theorem length_arrayText_lt (fmt : Bool) (entries : List (List UInt8)) :
    (arrayText fmt entries).length < arraySize fmt entries := by
  have := length_entriesText_le fmt entries
  simp only [arrayText, arraySize, List.length_cons, List.length_append, List.length_nil]
  omega

theorem length_membersText_le (fmt : Bool) (depth : ℕ) :
    ∀ members : List (List UInt8 × List UInt8), (membersText fmt depth members).length ≤
      (members.map fun m => m.2.length + m.1.length + 2 + if fmt then 2 + depth else 0).sum
  | [] => le_rfl
  | member :: members => by
    have ih := length_membersText_le fmt depth members
    have hcomma : (if members ≠ [] then [ch ','] else []).length ≤ 1 := by split_ifs <;> simp
    simp only [membersText, memberText, List.length_append, List.length_cons, List.map_cons,
      List.sum_cons]
    generalize (if members ≠ [] then [ch ','] else []).length = comma at hcomma ⊢
    cases fmt <;> simp at ih ⊢ <;> omega

theorem length_objectText_lt (fmt : Bool) (depth : ℕ) (members : List (List UInt8 × List UInt8)) :
    (objectText fmt depth members).length < objectSize fmt depth members := by
  have := length_membersText_le fmt depth members
  simp only [objectText, objectSize, List.length_append, List.length_cons, List.length_nil]
  cases fmt <;> simp at this ⊢ <;> omega

/-! ## What is printed -/

theorem intAdd_natCast (m n : ℕ) : intAdd m n = intOf ((m + n : ℕ) : ℤ) := by
  rw [intAdd, intOf]
  push_cast
  rfl

/-- Lengths are added one after the other, or at once. -/
theorem intOf_bind_intAdd (m n : ℕ) :
    (intOf (m : ℤ)).bind (intAdd · n) = intOf ((m + n : ℕ) : ℤ) := by
  by_cases hm : m < 2 ^ 31
  · rw [intOf_of_mem (by omega), Option.bind_some, intAdd_natCast]
  · rw [intOf_of_ge (by omega), intOf_of_ge (by omega), Option.bind_none]

/-- The counting of a string is one sum. -/
theorem printStringLen_eq (str : List UInt8) (m : ℕ) :
    (intOf (m : ℤ)).bind (printStringLen · str) = intOf ((m + (str.map charSize).sum : ℕ) : ℤ) := by
  induction str generalizing m with
  | nil => simp [printStringLen]
  | cons c str ih =>
    have hone : ∀ (m : ℕ) (f : ℤ → Option ℤ),
        (intOf (m : ℤ)).bind (fun len => (intAdd len 1).bind f)
          = (intOf ((m + 1 : ℕ) : ℤ)).bind f := fun m f => by
      rw [← intOf_bind_intAdd, Option.bind_assoc]
      rfl
    simp only [printStringLen, Option.bind_eq_bind]
    rw [hone, List.map_cons, List.sum_cons, ← Nat.add_assoc, charSize]
    split_ifs
    · rw [hone, ih]
    · rw [ih]

theorem cut_zero_notMem (str : List UInt8) : 0 ∉ cut str := fun h => by
  simpa using List.mem_takeWhile_imp h

theorem quoted_zero_notMem (str : List UInt8) : 0 ∉ quoted str := by
  have hescaped : ∀ c : UInt8, c ≠ 0 → 0 ∉ escaped c := by
    intro c hc
    unfold escaped
    split_ifs
    · simpa using hc.symm
    · unfold escapeOf
      split_ifs <;> decide
  have hchars : 0 ∉ (cut str).flatMap escaped := by
    rw [List.mem_flatMap]
    rintro ⟨c, hc, h0⟩
    exact hescaped c (fun h => cut_zero_notMem str (h ▸ hc)) h0
  simp only [quoted, List.mem_cons, List.mem_append, List.not_mem_nil, or_false, not_or]
  exact ⟨by decide, hchars, by decide⟩

/-- **A string is printed in quotes**, unless its length is no `int`. -/
theorem printStringPtr_eq (str : List UInt8) : printStringPtr (some str)
    = if stringSize str < 2 ^ 31 then some (quoted str) else none := by
  have hlen := printStringLen_eq (cut str) 0
  have hsize := intOf_bind_intAdd ((cut str).map charSize).sum 3
  rw [intOf_of_mem (by decide), Option.bind_some, Nat.zero_add] at hlen
  simp only [printStringPtr, Option.bind_eq_bind]
  rw [show (0 : ℤ) = ((0 : ℕ) : ℤ) from rfl, hlen, ← Option.bind_assoc]
  rw [show (fun len => intAdd len 3) = (intAdd · ((3 : ℕ) : ℤ)) from rfl, hsize]
  change (intOf ((stringSize str : ℕ) : ℤ)).bind _ = _
  split_ifs with hfits
  · have hwrites := (Cursor.put_writes (n := stringSize str) (ch '"')).bind
      ((Writes.foldlM (cut str) fun c _ => printChar_writes c).bind (Cursor.put_writes (ch '"')))
    have hstring := Cursor.string_of_writes hwrites (length_quoted_lt str) (quoted_zero_notMem str)
    rw [intOf_of_mem (by omega), Option.bind_some, Int.toNat_natCast]
    simp only [Option.bind_assoc] at hstring
    exact hstring
  · rw [intOf_of_ge (by omega), Option.bind_none]

theorem entriesText_zero_notMem (fmt : Bool) : ∀ {entries : List (List UInt8)},
    (∀ entry ∈ entries, 0 ∉ entry) → 0 ∉ entriesText fmt entries
  | [], _ => by simp [entriesText]
  | [entry], h => h entry (List.mem_singleton_self _)
  | entry :: entry' :: entries, h => by
    have ih := entriesText_zero_notMem fmt fun e he => h e (List.mem_cons_of_mem entry he)
    have hspace : 0 ∉ if fmt then [ch ' '] else [] := by cases fmt <;> decide
    simp only [entriesText, List.mem_append, List.mem_cons, not_or] at ih ⊢
    exact ⟨h entry List.mem_cons_self, by decide, hspace, ih⟩

theorem membersText_zero_notMem (fmt : Bool) (depth : ℕ) :
    ∀ {members : List (List UInt8 × List UInt8)}, (∀ m ∈ members, 0 ∉ m.1 ∧ 0 ∉ m.2) →
      0 ∉ membersText fmt depth members
  | [], _ => by simp [membersText]
  | member :: members, h => by
    have ih := membersText_zero_notMem fmt depth fun m hm => h m (List.mem_cons_of_mem member hm)
    have htabs : 0 ∉ if fmt then List.replicate depth (9 : UInt8) else [] := by
      cases fmt <;> simp
    have htab : 0 ∉ if fmt then [(9 : UInt8)] else [] := by cases fmt <;> decide
    have hline : 0 ∉ if fmt then [(10 : UInt8)] else [] := by cases fmt <;> decide
    have hcomma : 0 ∉ if members ≠ [] then [ch ','] else [] := by split_ifs <;> decide
    have hmember := h member List.mem_cons_self
    simp only [membersText, memberText, List.mem_append, List.mem_cons, not_or]
    exact ⟨⟨htabs, hmember.1, by decide, htab, hmember.2⟩, hcomma, hline, ih⟩

/-- **The entries of an array are printed in brackets**, unless their length is no `int`. -/
theorem printArray_eq (fmt : Bool) {entries : List (List UInt8)} (hne : entries ≠ [])
    (h0 : ∀ entry ∈ entries, 0 ∉ entry) : printArray fmt entries
      = if arraySize fmt entries < 2 ^ 31 then some (arrayText fmt entries) else none := by
  rw [printArray, if_neg hne]
  simp only [addLens, Option.bind_eq_bind]
  change (intOf ((arraySize fmt entries : ℕ) : ℤ)).bind _ = _
  split_ifs with hfits
  · have hwrites := (Cursor.put_writes (n := arraySize fmt entries) (ch '[')).bind
      (Cursor.terminate_writes.bind ((printEntries_writes fmt entries).bind
        (Cursor.put_writes (ch ']'))))
    have hstring := Cursor.string_of_writes hwrites (length_arrayText_lt fmt entries) (by
      have := entriesText_zero_notMem fmt h0
      simp only [List.mem_append, List.mem_singleton, List.not_mem_nil, not_or]
      exact ⟨by decide, not_false, this, by decide⟩)
    simp only [Option.bind_assoc] at hstring
    rw [intOf_of_mem (by omega), Option.bind_some, Int.toNat_natCast]
    exact hstring
  · rw [intOf_of_ge (by omega), Option.bind_none]

/-- **…and the members of an object in braces.** -/
theorem printObject_eq (fmt : Bool) (depth : ℕ) {members : List (List UInt8 × List UInt8)}
    (h0 : ∀ m ∈ members, 0 ∉ m.1 ∧ 0 ∉ m.2) : printObject fmt depth members
      = if objectSize fmt depth members < 2 ^ 31 then some (objectText fmt depth members)
        else none := by
  have hsize : (7 + if fmt then (depth : ℤ) else 0)
      + ((members.map fun m => m.2.length + m.1.length + 2 + if fmt then 2 + depth else 0).sum : ℕ)
      = (objectSize fmt depth members : ℕ) := by
    rw [objectSize]
    cases fmt <;> push_cast <;> rfl
  simp only [printObject, addLens, Option.bind_eq_bind]
  rw [hsize]
  split_ifs with hfits
  · have hwrites := (Cursor.put_writes (n := objectSize fmt depth members) (ch '\x7b')).bind
      ((Cursor.onlyIf_writes (p := fmt = true) (Cursor.put_writes 10)).bind
        (Cursor.terminate_writes.bind
          ((printMembers_writes fmt depth members).bind
            ((Cursor.onlyIf_writes (p := fmt = true) (printTabs_writes (depth - 1))).bind
              (Cursor.put_writes (ch '\x7d'))))))
    have hstring := Cursor.string_of_writes hwrites (length_objectText_lt fmt depth members) (by
      have := membersText_zero_notMem fmt depth h0
      simp only [List.mem_append, List.mem_singleton, List.not_mem_nil, not_or]
      refine ⟨by decide, ?_, not_false, this, ?_, by decide⟩ <;> cases fmt <;> simp)
    simp only [Option.bind_assoc] at hstring
    rw [intOf_of_mem (by omega), Option.bind_some, Int.toNat_natCast]
    exact hstring
  · rw [intOf_of_ge (by omega), Option.bind_none]

theorem printNumber_zero_notMem {sprintf : List Char → Double → List UInt8}
    (hsprintf : ∀ f d, 0 ∉ sprintf f d) (n : JsonNumber) : 0 ∉ printNumber sprintf n := by
  simp only [printNumber]
  split_ifs
  · intro h
    have hdigits := isDecimal_digits n.valuelonglong.natAbs
    rw [decimalText] at h
    split_ifs at h
    · rcases List.mem_cons.mp h with h | h
      · exact absurd h (by decide)
      · exact absurd (hdigits.2 0 h).1 (by decide)
    · exact absurd (hdigits.2 0 h).1 (by decide)
  all_goals exact hsprintf _ _

namespace JsonItem

variable {sprintf : List Char → Double → List UInt8} {fmt : Bool}

mutual

/-- A text is a C string… -/
theorem text_zero_notMem (hsprintf : ∀ f d, 0 ∉ sprintf f d) : ∀ (depth : ℕ) (item : JsonItem),
    0 ∉ item.text sprintf fmt depth
  | _, .null => by simp only [text]; decide
  | _, .false => by simp only [text]; decide
  | _, .true => by simp only [text]; decide
  | _, .number n => printNumber_zero_notMem hsprintf n
  | _, .string valuestring => quoted_zero_notMem valuestring
  | depth, .array children => by
    have := entriesText_zero_notMem fmt (texts_zero_notMem hsprintf (depth + 1) children)
    simp only [text, arrayText, List.mem_cons, List.mem_append, List.not_mem_nil, or_false, not_or]
    exact ⟨by decide, this, by decide⟩
  | depth, .object children => by
    have := membersText_zero_notMem fmt (depth + 1)
      (namedTexts_zero_notMem hsprintf (depth + 1) children)
    simp only [text, objectText, List.mem_cons, List.mem_append, List.not_mem_nil, or_false, not_or]
    refine ⟨by decide, ?_, this, ?_, by decide⟩ <;> cases fmt <;> simp

theorem texts_zero_notMem (hsprintf : ∀ f d, 0 ∉ sprintf f d) :
    ∀ (depth : ℕ) (children : List JsonItem), ∀ entry ∈ texts sprintf fmt depth children, 0 ∉ entry
  | _, [] => by simp [texts]
  | depth, child :: children => by
    rw [texts, List.forall_mem_cons]
    exact ⟨text_zero_notMem hsprintf depth child, texts_zero_notMem hsprintf depth children⟩

theorem namedTexts_zero_notMem (hsprintf : ∀ f d, 0 ∉ sprintf f d) :
    ∀ (depth : ℕ) (children : List (Option (List UInt8) × JsonItem)),
      ∀ m ∈ namedTexts sprintf fmt depth children, 0 ∉ m.1 ∧ 0 ∉ m.2
  | _, [] => by simp [namedTexts]
  | depth, child :: children => by
    rw [namedTexts, List.forall_mem_cons]
    refine ⟨⟨?_, text_zero_notMem hsprintf depth child.2⟩,
      namedTexts_zero_notMem hsprintf depth children⟩
    cases child.1 with
    | none => exact List.not_mem_nil
    | some name => exact quoted_zero_notMem name

end

/-- A name is printed like a string, and NULL as nothing. -/
theorem printName_eq_some {name : Option (List UInt8)} {t : List UInt8} :
    printStringPtr name = some t ↔ (∀ s ∈ name, stringSize s < 2 ^ 31) ∧ t = nameText name := by
  cases name with
  | none => simp [printStringPtr, nameText, eq_comm]
  | some s =>
    have hall : (∀ s' ∈ some s, stringSize s' < 2 ^ 31) ↔ stringSize s < 2 ^ 31 := by simp
    rw [printStringPtr_eq, hall, Option.ite_none_right_eq_some, Option.some_inj, eq_comm (a := t)]
    rfl

theorem texts_eq_nil {depth : ℕ} {children : List JsonItem} :
    texts sprintf fmt depth children = [] ↔ children = [] := by
  cases children <;> simp [texts]

mutual

/-- **Where everything fits, the text of an item is printed, and otherwise nothing is.** -/
theorem printValue_eq_some (hsprintf : ∀ f d, 0 ∉ sprintf f d) :
    ∀ (depth : ℕ) (item : JsonItem) {t : List UInt8}, printValue sprintf fmt depth item = some t
      ↔ item.Fits sprintf fmt depth ∧ t = item.text sprintf fmt depth
  | _, .null, t => by simp [printValue, text, Fits, eq_comm]
  | _, .false, t => by simp [printValue, text, Fits, eq_comm]
  | _, .true, t => by simp [printValue, text, Fits, eq_comm]
  | _, .number n, t => by
    rw [printValue, printNumberBlock, Fits, text, Option.ite_none_right_eq_some, Option.some_inj,
      eq_comm (a := t)]
  | _, .string valuestring, t => by
    rw [printValue, printName_eq_some, Fits, text]
    simp [nameText]
  | depth, .array children, t => by
    have hentries : ∀ entry ∈ texts sprintf fmt (depth + 1) children, 0 ∉ entry :=
      texts_zero_notMem hsprintf (depth + 1) children
    simp only [printValue, Option.bind_eq_some_iff,
      printItems_eq_some hsprintf (depth + 1) children, Fits, text, and_assoc, exists_eq_left,
      exists_and_left]
    refine and_congr_right fun _ => ?_
    rcases eq_or_ne children [] with rfl | hne
    · simp [texts, printArray, arrayText, entriesText, cstring, eq_comm]
    · rw [printArray_eq fmt (mt texts_eq_nil.mp hne) hentries, Option.ite_none_right_eq_some,
        Option.some_inj, eq_comm (a := t), imp_iff_right hne]
  | depth, .object children, t => by
    have hmembers : ∀ m ∈ namedTexts sprintf fmt (depth + 1) children, 0 ∉ m.1 ∧ 0 ∉ m.2 :=
      namedTexts_zero_notMem hsprintf (depth + 1) children
    simp only [printValue, Option.bind_eq_some_iff,
      printNamed_eq_some hsprintf (depth + 1) children, Fits, text, and_assoc, exists_eq_left,
      exists_and_left]
    refine and_congr_right fun _ => ?_
    rw [printObject_eq fmt (depth + 1) hmembers, Option.ite_none_right_eq_some, Option.some_inj,
      eq_comm (a := t)]

theorem printItems_eq_some (hsprintf : ∀ f d, 0 ∉ sprintf f d) :
    ∀ (depth : ℕ) (children : List JsonItem) {ts : List (List UInt8)},
      printItems sprintf fmt depth children = some ts
        ↔ ItemsFit sprintf fmt depth children ∧ ts = texts sprintf fmt depth children
  | _, [], ts => by simp [printItems, texts, ItemsFit, eq_comm]
  | depth, child :: children, ts => by
    simp only [printItems, Option.bind_eq_bind, Option.bind_eq_some_iff,
      printValue_eq_some hsprintf depth child, printItems_eq_some hsprintf depth children,
      ItemsFit, texts, Option.pure_def, Option.some_inj]
    constructor
    · rintro ⟨entry, ⟨hentry, rfl⟩, entries, ⟨hentries, rfl⟩, rfl⟩
      exact ⟨⟨hentry, hentries⟩, rfl⟩
    · rintro ⟨⟨hentry, hentries⟩, rfl⟩
      exact ⟨_, ⟨hentry, rfl⟩, _, ⟨hentries, rfl⟩, rfl⟩

theorem printNamed_eq_some (hsprintf : ∀ f d, 0 ∉ sprintf f d) :
    ∀ (depth : ℕ) (children : List (Option (List UInt8) × JsonItem))
      {ms : List (List UInt8 × List UInt8)}, printNamed sprintf fmt depth children = some ms
        ↔ NamedFit sprintf fmt depth children ∧ ms = namedTexts sprintf fmt depth children
  | _, [], ms => by simp [printNamed, namedTexts, NamedFit, eq_comm]
  | depth, child :: children, ms => by
    simp only [printNamed, Option.bind_eq_bind, Option.bind_eq_some_iff, printName_eq_some,
      printValue_eq_some hsprintf depth child.2, printNamed_eq_some hsprintf depth children,
      NamedFit, namedTexts, Option.pure_def, Option.some_inj]
    constructor
    · rintro ⟨name, ⟨hname, rfl⟩, entry, ⟨hentry, rfl⟩, members, ⟨hmembers, rfl⟩, rfl⟩
      exact ⟨⟨⟨hname, hentry⟩, hmembers⟩, rfl⟩
    · rintro ⟨⟨⟨hname, hentry⟩, hmembers⟩, rfl⟩
      exact ⟨_, ⟨hname, rfl⟩, _, ⟨hentry, rfl⟩, _, ⟨hmembers, rfl⟩, rfl⟩

end

/-- **`tr50_json_print` stays in its blocks where every number does**, as long as the lengths are
`int`s; what it gives back is the text. -/
theorem tr50JsonPrint_eq_some (hsprintf : ∀ f d, 0 ∉ sprintf f d) {item : JsonItem}
    {t : List UInt8} : tr50JsonPrint sprintf item = some t
      ↔ item.Fits sprintf Bool.false 0 ∧ t = item.text sprintf Bool.false 0 :=
  printValue_eq_some hsprintf 0 item

/-- A quotation mark takes two characters in the text, and two in the count. -/
theorem tr50JsonPrint_eq_some_escaped : tr50JsonPrint (fun _ _ => [])
    (.object [(some [ch 'a'], .array [.true, .string [ch '"']])])
      = some (cstring ['\x7b', '"', 'a', '"', ':', '[', 't', 'r', 'u', 'e', ',', '"', '\\', '"',
          '"', ']', '\x7d']) :=
  (tr50JsonPrint_eq_some fun _ _ => List.not_mem_nil).mpr ⟨by
    simp only [Fits, NamedFit, ItemsFit]
    exact ⟨⟨⟨by decide, ⟨trivial, by decide, trivial⟩, fun _ => by decide⟩, trivial⟩, by decide⟩,
      by decide⟩

end JsonItem

end Tr50
