import Tr50.Machinery.Chunked

/-!
# Machinery/Lines — a text made of lines

Lines that hold no line end, each with one behind it (`joinLines`), and an empty line last.  Such a
text is cut where it ends (`cutLine_joinLines`).  A word is found in the first line that has it
(`search_line`), and one that ends in a line end at the end of a line (`infix_line_iff`).
-/

namespace Tr50.Machinery

/-- No line ends within. -/
def Unbroken (line : List UInt8) : Prop := ∀ c ∈ line, ¬ isLineEnd c

def joinLines (lines : List (List UInt8)) : List UInt8 := lines.flatMap (· ++ crlf)

/-- The text from the first place on where `word` stands. -/
def search (word text : List UInt8) : Option (List UInt8) := text.tails.find? (word.isPrefixOf ·)

section Lines

variable {line word rest : List UInt8} {lines : List (List UInt8)}

@[simp] theorem joinLines_nil : joinLines [] = [] := rfl

@[simp] theorem joinLines_cons :
    joinLines (line :: lines) = line ++ (crlf ++ joinLines lines) := by
  simp [joinLines]

@[simp] theorem joinLines_append {lines' : List (List UInt8)} :
    joinLines (lines ++ lines') = joinLines lines ++ joinLines lines' := List.flatMap_append

theorem Unbroken.tail {c : UInt8} (h : Unbroken (c :: line)) : Unbroken line :=
  fun c hc => h c (List.mem_cons_of_mem _ hc)

theorem Unbroken.of_suffix (h : Unbroken line) (hsuffix : word <:+ line) : Unbroken word :=
  fun c hc => h c (hsuffix.subset hc)

theorem Unbroken.ne_crlf {c : UInt8} (h : Unbroken line) (hc : c ∈ line) : c ≠ 13 ∧ c ≠ 10 := by
  constructor <;> rintro rfl <;> exact h _ hc rfl

theorem Unbroken.append (h : Unbroken line) (h' : Unbroken word) : Unbroken (line ++ word) :=
  fun c hc => (List.mem_append.mp hc).elim (h c) (h' c)

/-! ## Cutting -/

/-- A line that has bytes is passed over, whatever was seen before. -/
theorem cutLine_unbroken {ends seen : ℕ} (h : Unbroken line) (hne : line ≠ []) :
    cutLine ends seen (line ++ rest)
      = (cutLine ends 0 rest).map fun cut => (line ++ cut.1, cut.2) := by
  induction line generalizing seen with
  | nil => exact absurd rfl hne
  | cons c line ih =>
    rw [List.cons_append, cutLine, if_neg (h c List.mem_cons_self)]
    cases line with
    | nil => rfl
    | cons d line =>
      rw [ih h.tail (List.cons_ne_nil _ _), Option.map_map]
      rfl

theorem cutLine_two_crlf {rest : List UInt8} :
    cutLine 4 2 (crlf ++ rest) = some (crlf, rest) := rfl

theorem cutLine_zero_crlf {rest : List UInt8} :
    cutLine 4 0 (crlf ++ rest) = (cutLine 4 2 rest).map fun cut => (crlf ++ cut.1, cut.2) := by
  change ((cutLine 4 2 rest).map _).map _ = _
  rw [Option.map_map]
  rfl

/-- **A text of lines ends with its empty line.** -/
theorem cutLine_joinLines (rest : List UInt8)
    (h : ∀ line ∈ lines, Unbroken line ∧ line ≠ []) :
    cutLine 4 2 (joinLines lines ++ (crlf ++ rest)) = some (joinLines lines ++ crlf, rest) := by
  induction lines with
  | nil => exact cutLine_two_crlf
  | cons line lines ih =>
    obtain ⟨hline, hne⟩ := h line List.mem_cons_self
    rw [joinLines_cons, List.append_assoc, List.append_assoc, cutLine_unbroken hline hne,
      cutLine_zero_crlf, ih fun line hmem => h line (List.mem_cons_of_mem _ hmem)]
    simp

/-! ## Searching -/

theorem search_cons {c : UInt8} {text : List UInt8} :
    search word (c :: text)
      = if word <+: c :: text then some (c :: text) else search word text := by
  rw [search, List.tails_cons, List.find?_cons]
  by_cases h : word <+: c :: text
  · rw [if_pos h, List.isPrefixOf_iff_prefix.mpr h]
  · rw [if_neg h, Bool.eq_false_iff.mpr (mt List.isPrefixOf_iff_prefix.mp h)]
    rfl

theorem search_nil (hne : word ≠ []) : search word [] = none := by
  cases word with
  | nil => exact absurd rfl hne
  | cons c word => rfl

theorem search_eq_some {text found : List UInt8} (h : search word text = some found) :
    word <+: found ∧ found <:+ text :=
  ⟨List.isPrefixOf_iff_prefix.mp (List.find?_some h),
    (List.mem_tails _ _).mp (List.mem_of_find?_eq_some h)⟩

theorem search_isSome_iff {text : List UInt8} : (search word text).isSome ↔ word <:+: text := by
  rw [search, List.find?_isSome]
  constructor
  · rintro ⟨found, hmem, hbegins⟩
    exact List.infix_iff_prefix_suffix.mpr
      ⟨found, List.isPrefixOf_iff_prefix.mp hbegins, (List.mem_tails _ _).mp hmem⟩
  · intro h
    obtain ⟨found, hbegins, hsuffix⟩ := List.infix_iff_prefix_suffix.mp h
    exact ⟨found, (List.mem_tails _ _).mpr hsuffix, List.isPrefixOf_iff_prefix.mpr hbegins⟩

/-- Words without a line end do not reach past one. -/
theorem prefix_line_iff (hword : Unbroken word) :
    word <+: line ++ (crlf ++ rest) ↔ word <+: line := by
  induction word generalizing line with
  | nil => simp
  | cons c word ih =>
    cases line with
    | nil =>
      have hends := hword.ne_crlf List.mem_cons_self
      simp [crlf, hends.1]
    | cons d line =>
      rw [List.cons_append, List.cons_prefix_cons, List.cons_prefix_cons, ih hword.tail]

/-- **A word is found in a line that has it, or behind.** -/
theorem search_line (hword : Unbroken word) (hne : word ≠ []) :
    search word (line ++ (crlf ++ rest))
      = ((search word line).map (· ++ (crlf ++ rest))).or (search word rest) := by
  induction line with
  | nil =>
    obtain ⟨c, word, rfl⟩ := List.exists_cons_of_ne_nil hne
    have hends := hword.ne_crlf List.mem_cons_self
    rw [search_nil hne, List.nil_append, crlf, List.cons_append, search_cons,
      if_neg (by simp [hends.1]), List.cons_append, search_cons, if_neg (by simp [hends.2])]
    rfl
  | cons c line ih =>
    have hbegins := @prefix_line_iff (c :: line) word rest hword
    rw [List.cons_append] at hbegins
    rw [List.cons_append, search_cons, search_cons, ih]
    by_cases h : word <+: c :: line
    · rw [if_pos h, if_pos (hbegins.mpr h)]
      rfl
    · rw [if_neg h, if_neg (mt hbegins.mp h)]

/-- What is in front of the first line end, and the rest. -/
theorem takeWhile_line (hline : Unbroken line) :
    (line ++ (crlf ++ rest)).takeWhile (fun c => ¬ isLineEnd c) = line := by
  rw [List.takeWhile_append_of_pos fun c hc => by simpa using hline c hc]
  simp [crlf, isLineEnd]

theorem dropWhile_line (hline : Unbroken line) :
    (line ++ (crlf ++ rest)).dropWhile (fun c => ¬ isLineEnd c) = crlf ++ rest := by
  rw [List.dropWhile_append_of_pos fun c hc => by simpa using hline c hc]
  simp [crlf, isLineEnd]

/-- Line ends are skipped up to the next line. -/
theorem dropWhile_crlf : (crlf ++ rest).dropWhile isLineEnd = rest.dropWhile isLineEnd := rfl

theorem dropWhile_unbroken (hline : Unbroken line) (hne : line ≠ []) :
    (line ++ rest).dropWhile isLineEnd = line ++ rest := by
  obtain ⟨c, line, rfl⟩ := List.exists_cons_of_ne_nil hne
  rw [List.cons_append, List.dropWhile_cons_of_neg (hline c List.mem_cons_self)]

/-- **A word at a line's end** is that of this line, or behind. -/
theorem infix_line_iff (hword : Unbroken word) (hne : word ≠ []) (hline : Unbroken line) :
    word ++ crlf <:+: line ++ (crlf ++ rest) ↔ word <:+ line ∨ word ++ crlf <:+: rest := by
  induction line with
  | nil =>
    obtain ⟨c, word, rfl⟩ := List.exists_cons_of_ne_nil hne
    have hends := hword.ne_crlf List.mem_cons_self
    simp [crlf, List.infix_cons_iff, hends.1, hends.2]
  | cons c line ih =>
    have hwhole : word ++ crlf <+: c :: line ++ (crlf ++ rest) ↔ word = c :: line := by
      constructor
      · rintro ⟨behind, hbehind⟩
        rw [List.append_assoc] at hbehind
        rw [← takeWhile_line hword, hbehind, takeWhile_line hline]
      · rintro rfl
        rw [← List.append_assoc]
        exact List.prefix_append _ _
    calc word ++ crlf <:+: c :: line ++ (crlf ++ rest)
        ↔ word ++ crlf <+: c :: line ++ (crlf ++ rest)
          ∨ word ++ crlf <:+: line ++ (crlf ++ rest) := List.infix_cons_iff
      _ ↔ word = c :: line ∨ word <:+ line ∨ word ++ crlf <:+: rest :=
          or_congr hwhole (ih hline.tail)
      _ ↔ word <:+ c :: line ∨ word ++ crlf <:+: rest := by
          rw [List.suffix_cons_iff, or_assoc]

/-! ## Several lines -/

variable {text : List UInt8}

theorem search_joinLines (hword : Unbroken word) (hne : word ≠ [])
    (h : ∀ line ∈ lines, search word line = none) :
    search word (joinLines lines ++ text) = search word text := by
  induction lines with
  | nil => rfl
  | cons line lines ih =>
    rw [joinLines_cons, List.append_assoc, List.append_assoc, search_line hword hne,
      h line List.mem_cons_self, Option.map_none, Option.none_or,
      ih fun line hmem => h line (List.mem_cons_of_mem _ hmem)]

theorem infix_joinLines_iff (hword : Unbroken word) (hne : word ≠ [])
    (h : ∀ line ∈ lines, Unbroken line) :
    word ++ crlf <:+: joinLines lines ++ text
      ↔ (∃ line ∈ lines, word <:+ line) ∨ word ++ crlf <:+: text := by
  induction lines with
  | nil => simp
  | cons line lines ih =>
    rw [joinLines_cons, List.append_assoc, List.append_assoc,
      infix_line_iff hword hne (h line List.mem_cons_self),
      ih fun line hmem => h line (List.mem_cons_of_mem _ hmem), ← or_assoc]
    simp

/-- A word that ends in a line end is in no line. -/
theorem not_infix_unbroken (hline : Unbroken line) : ¬ word ++ crlf <:+: line := fun h =>
  hline 13 (h.subset (by simp [crlf])) rfl

/-- The first line that has a word, if one has it. -/
theorem search_cases (word : List UInt8) (lines : List (List UInt8)) :
    (∀ line ∈ lines, search word line = none)
      ∨ ∃ before line after found, lines = before ++ line :: after
        ∧ (∀ line ∈ before, search word line = none) ∧ search word line = some found := by
  induction lines with
  | nil => exact Or.inl fun line hmem => absurd hmem List.not_mem_nil
  | cons line lines ih =>
    cases hfound : search word line with
    | some found =>
      exact Or.inr ⟨[], line, lines, found, rfl, fun _ hmem => absurd hmem List.not_mem_nil, hfound⟩
    | none =>
      rcases ih with hnone | ⟨before, line', after, found, rfl, hbefore, hline'⟩
      · exact Or.inl (List.forall_mem_cons.mpr ⟨hfound, hnone⟩)
      · exact Or.inr ⟨line :: before, line', after, found, rfl,
          List.forall_mem_cons.mpr ⟨hfound, hbefore⟩, hline'⟩

end Lines

end Tr50.Machinery
