import Mathlib.Data.List.TakeWhile
import Mathlib.Tactic

/-!
# Machinery/Tokens — a string taken apart at separators

`runs sep l` are the maximal non-empty runs of what is no separator.  `strtok` finds the first of
them in a C string, and stores a NUL behind it: with that the runs that are left are those behind
the place where it stops (`strtok_finds`), and the ones that have been found stay where they are
(`Placed.strtok`).
-/

namespace Tr50.Machinery

variable {α : Type*} {sep : α → Bool} {l : List α}

/-! ## Runs -/

/-- The maximal non-empty runs of what is no separator. -/
def runs (sep : α → Bool) (l : List α) : List (List α) :=
  (l.splitOnP sep).filter fun run => !run.isEmpty

@[simp] theorem runs_nil : runs sep [] = [] := rfl

theorem runs_cons_sep {x : α} (hx : sep x) : runs sep (x :: l) = runs sep l := by
  rw [runs, List.splitOnP_cons_eq_if_modifyHead, if_pos hx]
  rfl

/-- Separators in front do not count. -/
theorem runs_append_seps : ∀ {gap : List α}, (∀ x ∈ gap, sep x) → runs sep (gap ++ l) = runs sep l
  | [], _ => rfl
  | x :: gap, hgap => by
    rw [List.cons_append, runs_cons_sep (hgap x List.mem_cons_self)]
    exact runs_append_seps fun y hy => hgap y (List.mem_cons_of_mem x hy)

theorem runs_eq_singleton {run : List α} (hrun : ∀ x ∈ run, sep x = false) (hne : run ≠ []) :
    runs sep run = [run] := by
  rw [runs, List.splitOnP_eq_singleton hrun, List.filter_cons, if_pos (by simp [hne]),
    List.filter_nil]

/-- A run ends at a separator. -/
theorem runs_append_cons {run : List α} (hrun : ∀ x ∈ run, sep x = false) (hne : run ≠ []) {x : α}
    (hx : sep x) : runs sep (run ++ x :: l) = run :: runs sep l := by
  rw [runs, List.splitOnP_append_cons_of_forall_mem hrun x hx, List.filter_cons,
    if_pos (by simp [hne]), runs]

/-- Either there are separators only, or a first run. -/
theorem exists_run (sep : α → Bool) (l : List α) :
    (∀ x ∈ l, sep x) ∨ ∃ gap run rest, l = gap ++ (run ++ rest) ∧ (∀ x ∈ gap, sep x)
      ∧ (∀ x ∈ run, sep x = false) ∧ run ≠ [] ∧ (∀ x ∈ rest.head?, sep x) := by
  induction l with
  | nil => exact Or.inl fun x hx => absurd hx List.not_mem_nil
  | cons x l ih =>
    by_cases hx : sep x
    · rcases ih with hseps | ⟨gap, run, rest, rfl, hgap, hrun⟩
      · exact Or.inl (List.forall_mem_cons.mpr ⟨hx, hseps⟩)
      · exact Or.inr ⟨x :: gap, run, rest, rfl, List.forall_mem_cons.mpr ⟨hx, hgap⟩, hrun⟩
    · refine Or.inr ⟨[], x :: l.takeWhile fun y => !sep y, l.dropWhile fun y => !sep y, ?_,
        fun y hy => absurd hy List.not_mem_nil, ?_, List.cons_ne_nil _ _, fun y hy => ?_⟩
      · rw [List.nil_append, List.cons_append, List.takeWhile_append_dropWhile]
      · exact List.forall_mem_cons.mpr ⟨by simpa using hx,
          fun y hy => by simpa using List.mem_takeWhile_imp hy⟩
      · have hstop := List.head?_dropWhile_not (fun y => !sep y) l
        rw [Option.mem_def.mp hy] at hstop
        simpa using hstop

/-- …and the runs are it and those behind the separator that ends it. -/
theorem runs_of_run {gap run rest : List α} (hgap : ∀ x ∈ gap, sep x)
    (hrun : ∀ x ∈ run, sep x = false) (hne : run ≠ []) (hrest : ∀ x ∈ rest.head?, sep x) :
    runs sep (gap ++ (run ++ rest)) = run :: runs sep rest.tail := by
  rw [runs_append_seps hgap]
  cases rest with
  | nil =>
    rw [List.append_nil]
    exact runs_eq_singleton hrun hne
  | cons x rest => exact runs_append_cons hrun hne (hrest x rfl)

theorem runs_eq_nil_iff : runs sep l = [] ↔ ∀ x ∈ l, sep x := by
  refine ⟨fun h => ?_, fun h => ?_⟩
  · rcases exists_run sep l with hseps | ⟨gap, run, rest, rfl, hgap, hrun, hne, hrest⟩
    · exact hseps
    · rw [runs_of_run hgap hrun hne hrest] at h
      cases h
  · have hruns := runs_append_seps (l := []) h
    rwa [List.append_nil] at hruns

/-! ## `strtok_r` -/

/-- What a call leaves: the string, the place of the token, and where the next call goes on. -/
structure Strtok where
  str : List UInt8
  token : Option ℕ
  reent : ℕ
deriving DecidableEq, Repr

/-- `strtok_r`, from the offset `s` on. -/
def strtok (sep : UInt8 → Bool) (str : List UInt8) (s : ℕ) : Strtok :=
  let rest := (str.drop s).takeWhile (· ≠ 0)
  let start := s + (rest.takeWhile sep).length
  let token := rest.dropWhile sep
  let stop := start + (token.takeWhile fun c => !sep c).length
  if token = [] then ⟨str, none, start⟩
  else if token.dropWhile (fun c => !sep c) = [] then ⟨str, some start, stop⟩
  else ⟨str.set stop 0, some start, stop + 1⟩

section Strtok

variable {sep : UInt8 → Bool} {str : List UInt8} {s : ℕ}

/-- It goes on from there… -/
theorem le_strtok_reent : s ≤ (strtok sep str s).reent := by
  simp only [strtok]
  split_ifs <;> simp only <;> omega

/-- …and leaves what is in front of it alone. -/
theorem strtok_take : (strtok sep str s).str.take s = str.take s := by
  simp only [strtok]
  split_ifs
  · rfl
  · rfl
  · exact List.take_set_of_le (by omega)

/-- The text stands at the offset `p` and has ended: with a NUL in front of `s`, or with the string
at `s`. -/
def Placed (str : List UInt8) (s p : ℕ) (text : List UInt8) : Prop :=
  text ++ [0] <+: (str.take s).drop p ∨ s = str.length ∧ str.drop p = text

variable {p : ℕ} {text gap run rest : List UInt8}

/-- A text that is placed is read. -/
theorem Placed.read (h : Placed str s p text) (htext : 0 ∉ text) :
    (str.drop p).takeWhile (· ≠ 0) = text := by
  have hall : ∀ c ∈ text, decide (c ≠ 0) = true := fun c hc =>
    decide_eq_true fun h0 => htext (h0 ▸ hc)
  rcases h with hfront | ⟨-, rfl⟩
  · have hdrop : (str.take s).drop p <+: str.drop p := by
      rw [List.drop_take]
      exact List.take_prefix _ _
    obtain ⟨behind, hbehind⟩ := hfront.trans hdrop
    rw [← hbehind, List.append_assoc, List.takeWhile_append_of_pos hall]
    simp
  · exact List.takeWhile_eq_self_iff.mpr hall

/-- What is behind its front is placed. -/
theorem Placed.drop (h : Placed str s p (gap ++ text)) : Placed str s (p + gap.length) text := by
  rcases h with hfront | ⟨hend, hdrop⟩
  · left
    have hgap := hfront.drop gap.length
    rwa [List.append_assoc, List.drop_left, List.drop_drop] at hgap
  · right
    exact ⟨hend, by rw [← List.drop_drop, hdrop, List.drop_left]⟩

/-- **What is placed stays.** -/
theorem Placed.strtok (sep : UInt8 → Bool) (h : Placed str s p text) :
    Placed (strtok sep str s).str (strtok sep str s).reent p text := by
  rcases h with hfront | ⟨rfl, hdrop⟩
  · left
    refine hfront.trans ?_
    rw [← @strtok_take sep]
    exact (List.take_prefix_take_left le_strtok_reent).drop p
  · right
    simp [Machinery.strtok, hdrop]

/-- Behind separators only there is nothing. -/
theorem strtok_nothing (h0 : 0 ∉ str.drop s) (hseps : ∀ c ∈ str.drop s, sep c) :
    (strtok sep str s).token = none ∧ (strtok sep str s).str = str := by
  have hrest : (str.drop s).takeWhile (· ≠ 0) = str.drop s :=
    List.takeWhile_eq_self_iff.mpr fun c hc => decide_eq_true fun h => h0 (h ▸ hc)
  have hdrop : (str.drop s).dropWhile sep = [] := List.dropWhile_eq_nil_iff.mpr hseps
  simp only [strtok, hrest, hdrop, if_true, and_self]

/-- The pieces that `strtok` looks at. -/
theorem strtok_pieces (hgap : ∀ c ∈ gap, sep c) (hrun : ∀ c ∈ run, sep c = false) (hne : run ≠ [])
    (hrest : ∀ c ∈ rest.head?, sep c) :
    (gap ++ (run ++ rest)).takeWhile sep = gap ∧ (gap ++ (run ++ rest)).dropWhile sep = run ++ rest
    ∧ (run ++ rest).takeWhile (fun c => !sep c) = run
    ∧ (run ++ rest).dropWhile (fun c => !sep c) = rest := by
  obtain ⟨c, run', rfl⟩ := List.exists_cons_of_ne_nil hne
  have hc : ¬ sep c := by simp [hrun c List.mem_cons_self]
  have hall : ∀ x ∈ c :: run', (!sep x) = true := fun x hx => by simp [hrun x hx]
  refine ⟨?_, ?_, ?_, ?_⟩
  · rw [List.takeWhile_append_of_pos hgap, List.cons_append, List.takeWhile_cons_of_neg hc,
      List.append_nil]
  · rw [List.dropWhile_append_of_pos hgap, List.cons_append, List.dropWhile_cons_of_neg hc]
  · rw [List.takeWhile_append_of_pos hall]
    cases rest with
    | nil => simp
    | cons x rest => simp [hrest x rfl]
  · rw [List.dropWhile_append_of_pos hall]
    cases rest with
    | nil => rfl
    | cons x rest => simp [hrest x rfl]

/-- The separator behind a run becomes a NUL. -/
theorem set_behind {x : UInt8} (hs : s ≤ str.length)
    (hstr : str.drop s = gap ++ (run ++ x :: rest)) :
    str.set (s + gap.length + run.length) 0 = (str.take s ++ ((gap ++ run) ++ [0])) ++ rest := by
  have hfront : (str.take s).length = s := List.length_take_of_le hs
  conv_lhs => rw [← List.take_append_drop s str, hstr, ← List.append_assoc gap]
  rw [List.set_append_right _ _ (by omega),
    List.set_append_right _ _ (by rw [List.length_append]; omega)]
  simp [hfront, Nat.add_assoc]

/-- **The first run is found**, and what is left is behind it. -/
theorem strtok_finds (hs : s ≤ str.length) (h0 : 0 ∉ str.drop s)
    (hstr : str.drop s = gap ++ (run ++ rest)) (hgap : ∀ c ∈ gap, sep c)
    (hrun : ∀ c ∈ run, sep c = false) (hne : run ≠ []) (hrest : ∀ c ∈ rest.head?, sep c) :
    let r := strtok sep str s
    r.token = some (s + gap.length) ∧ Placed r.str r.reent s (gap ++ run)
    ∧ r.str.drop r.reent = rest.tail ∧ r.reent ≤ r.str.length := by
  have hcut : (str.drop s).takeWhile (· ≠ 0) = gap ++ (run ++ rest) := by
    rw [← hstr]
    exact List.takeWhile_eq_self_iff.mpr fun c hc => decide_eq_true fun h => h0 (h ▸ hc)
  obtain ⟨htake, hdrop, htoken, hbehind⟩ := strtok_pieces hgap hrun hne hrest
  have hsome : run ++ rest ≠ [] := List.append_ne_nil_of_left_ne_nil hne rest
  have hlen := congrArg List.length hstr
  simp only [List.length_drop, List.length_append] at hlen
  simp only [strtok, hcut, htake, hdrop, htoken, hbehind, if_neg hsome]
  cases rest with
  | nil =>
    rw [List.length_nil] at hlen
    rw [if_pos rfl]
    have hend : s + gap.length + run.length = str.length := by omega
    refine ⟨rfl, Or.inr ⟨hend, ?_⟩, ?_, hend.le⟩
    · rw [hstr, List.append_nil]
    · exact List.drop_eq_nil_of_le hend.ge
  | cons x rest =>
    rw [List.length_cons] at hlen
    rw [if_neg (List.cons_ne_nil x rest)]
    have hfront : (str.take s).length = s := List.length_take_of_le hs
    have hsplit := set_behind hs hstr
    have hreent : s + gap.length + run.length + 1
        = (str.take s ++ ((gap ++ run) ++ [0])).length := by
      simp only [List.length_append, hfront, List.length_singleton]
      omega
    simp only [hsplit, hreent, List.tail_cons]
    generalize str.take s = front at hfront
    refine ⟨trivial, Or.inl ?_, List.drop_left, ?_⟩
    · rw [List.take_left, ← hfront, List.drop_left]
    · simp

/-- A run that has been found from `w` on: it is placed, with what is in front of it. -/
def Begun (sep : UInt8 → Bool) (str : List UInt8) (s w : ℕ) : Prop :=
  ∃ gap run, Placed str s w (gap ++ run) ∧ 0 ∉ gap ++ run ∧ (∀ c ∈ gap, sep c)
    ∧ (∀ c ∈ run, sep c = false) ∧ run ≠ []

theorem Begun.strtok {w : ℕ} (h : Begun sep str s w) :
    Begun sep (strtok sep str s).str (strtok sep str s).reent w := by
  obtain ⟨gap, run, hplaced, hrun⟩ := h
  exact ⟨gap, run, hplaced.strtok sep, hrun⟩

/-- **It is found again**, and the string stays as it is. -/
theorem Begun.again {w : ℕ} (h : Begun sep str s w) :
    (Machinery.strtok sep str w).str = str
      ∧ ∃ ptr, (Machinery.strtok sep str w).token = some ptr := by
  obtain ⟨gap, run, hplaced, h0, hgap, hrun, hne⟩ := h
  have hend : ∀ c ∈ ([] : List UInt8).head?, sep c := by simp
  obtain ⟨htake, hdrop, htoken, hbehind⟩ := strtok_pieces hgap hrun hne hend
  rw [List.append_nil] at htake hdrop htoken hbehind
  simp only [Machinery.strtok, hplaced.read h0, htake, hdrop, hbehind, if_neg hne, if_true,
    Option.some.injEq, exists_eq', and_self]

end Strtok

end Tr50.Machinery
