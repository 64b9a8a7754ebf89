import Mathlib.Data.List.TakeWhile
import Mathlib.Tactic

/-!
# Machinery/Fields — names kept in arrays

A text goes up to its first terminator.  Copied into an array it is padded with terminators, or cut
off: an array that it fills has none.  A comparison with such an array goes on behind it where the
array is the beginning of the other text (`compare_eq_none_iff`), and says where it does not whether
the two are the same (`compare_copy_eq_some`).

What is kept under names is looked up from the newest entry on: that is a map in which entries are
overwritten (`lastKept_eq_find?`).
-/

namespace Tr50.Machinery

/-! ## Texts in arrays -/

section Text

variable {α : Type*} [DecidableEq α] (stop : α)

/-- The text in front of the first terminator. -/
def upTo (text : List α) : List α := text.takeWhile (· ≠ stop)

/-- An array of `size` characters. -/
structure Field (α : Type*) (size : ℕ) where
  chars : List α
  length_eq : chars.length = size

/-- A comparison character by character; `none` is one that goes on behind the array. -/
def compareChars : List α → List α → Option Bool
  | [], _ => none
  | c :: chars, text =>
    if c ≠ text.headD stop then some false
    else if c = stop then some true else compareChars chars text.tail

namespace Field

variable {size : ℕ}

/-- A copy of a text, padded or cut off. -/
def copy (size : ℕ) (text : List α) : Field α size :=
  ⟨(upTo stop text).take size ++ List.replicate (size - (upTo stop text).length) stop, by
    simp only [List.length_append, List.length_take, List.length_replicate]
    omega⟩

theorem chars_copy (size : ℕ) (text : List α) : (copy stop size text).chars =
    (upTo stop text).take size ++ List.replicate (size - (upTo stop text).length) stop := rfl

def compare (field : Field α size) (text : List α) : Option Bool :=
  compareChars stop field.chars text

/-- The text does not fit, and agrees as far as it goes. -/
def Overrun (size : ℕ) (name text : List α) : Prop :=
  size ≤ (upTo stop name).length ∧ (upTo stop name).take size = (upTo stop text).take size

instance (size : ℕ) (name text : List α) : Decidable (Overrun stop size name text) :=
  inferInstanceAs (Decidable (_ ∧ _))

end Field

variable {stop}

theorem upTo_cons_of_ne {c : α} (h : c ≠ stop) (text : List α) :
    upTo stop (c :: text) = c :: upTo stop text :=
  List.takeWhile_cons_of_pos (by simpa using h)

theorem upTo_cons_stop (text : List α) : upTo stop (stop :: text) = [] :=
  List.takeWhile_cons_of_neg (by simp)

theorem notMem_upTo (text : List α) : stop ∉ upTo stop text :=
  fun h => by simpa using List.mem_takeWhile_imp h

theorem upTo_eq_self {text : List α} (h : stop ∉ text) : upTo stop text = text := by
  refine List.takeWhile_eq_self_iff.mpr fun c hc => ?_
  simpa using fun h0 : c = stop => h (h0 ▸ hc)

/-- A text whose first character is none has ended. -/
theorem upTo_of_headD {text : List α} (h : text.headD stop = stop) : upTo stop text = [] := by
  cases text with
  | nil => rfl
  | cons c text =>
    obtain rfl : c = stop := h
    exact upTo_cons_stop text

theorem upTo_of_headD_ne {text : List α} (h : text.headD stop ≠ stop) :
    upTo stop text = text.headD stop :: upTo stop text.tail := by
  cases text with
  | nil => exact absurd rfl h
  | cons c text => exact upTo_cons_of_ne h text

/-- **A comparison goes on behind an array that is the beginning of the text.** -/
theorem compareChars_eq_none_iff (chars text : List α) :
    compareChars stop chars text = none ↔
      stop ∉ chars ∧ chars = (upTo stop text).take chars.length := by
  induction chars generalizing text with
  | nil => simp [compareChars]
  | cons c chars ih =>
    rw [compareChars]
    by_cases hc : c = stop
    · subst hc
      refine iff_of_false ?_ fun h => h.1 List.mem_cons_self
      rcases ne_or_eq c (text.headD c) with hhead | hhead
      · rw [if_pos hhead]
        exact Option.some_ne_none _
      · rw [if_neg (not_not.mpr hhead), if_pos rfl]
        exact Option.some_ne_none _
    · by_cases hhead : c = text.headD stop
      · have htext : upTo stop text = c :: upTo stop text.tail := by
          rw [upTo_of_headD_ne fun h0 => hc (hhead.trans h0), ← hhead]
        rw [if_neg (not_not.mpr hhead), if_neg hc, ih, htext, List.length_cons,
          List.take_succ_cons, List.mem_cons, not_or, and_iff_right (Ne.symm hc),
          List.cons_inj_right]
      · rw [if_pos hhead]
        refine iff_of_false (by simp) fun h => hhead ?_
        have htake := h.2
        by_cases hend : text.headD stop = stop
        · rw [upTo_of_headD hend, List.take_nil] at htake
          exact absurd htake (List.cons_ne_nil _ _)
        · rw [upTo_of_headD_ne hend, List.length_cons, List.take_succ_cons] at htake
          exact (List.cons.inj htake).1

/-- **One that ends in the array says whether the texts are the same.** -/
theorem compareChars_eq_some {chars text : List α} {equal : Bool}
    (h : compareChars stop chars text = some equal) :
    equal = decide (upTo stop chars = upTo stop text) := by
  induction chars generalizing text with
  | nil => exact absurd h (by simp [compareChars])
  | cons c chars ih =>
    rw [compareChars] at h
    split_ifs at h with hhead hc
    · obtain rfl := Option.some.inj h
      refine (decide_eq_false fun heq => hhead ?_).symm
      by_cases hc : c = stop
      · subst hc
        rw [upTo_cons_stop] at heq
        by_contra hne
        rw [upTo_of_headD_ne (Ne.symm hne)] at heq
        exact absurd heq.symm (List.cons_ne_nil _ _)
      · rw [upTo_cons_of_ne hc] at heq
        by_cases hend : text.headD stop = stop
        · rw [upTo_of_headD hend] at heq
          exact absurd heq (List.cons_ne_nil _ _)
        · rw [upTo_of_headD_ne hend] at heq
          exact (List.cons.inj heq).1
    · obtain rfl := Option.some.inj h
      subst hc
      rw [upTo_cons_stop, upTo_of_headD (not_not.mp hhead).symm]
      simp
    · have hhead := not_not.mp hhead
      have htext : upTo stop text = c :: upTo stop text.tail := by
        rw [upTo_of_headD_ne fun h0 => hc (hhead.trans h0), ← hhead]
      rw [upTo_cons_of_ne hc, htext, ih h]
      simp only [List.cons.injEq, true_and]

namespace Field

variable {size : ℕ} (name text : List α)

/-- What fits is kept up to its end… -/
theorem upTo_copy_of_lt (h : (upTo stop name).length < size) :
    stop ∈ (copy stop size name).chars ∧
      upTo stop (copy stop size name).chars = upTo stop name := by
  obtain ⟨k, hk⟩ : ∃ k, size - (upTo stop name).length = k + 1 :=
    Nat.exists_eq_succ_of_ne_zero (by omega)
  rw [chars_copy, hk, List.take_of_length_le (by omega), List.replicate_succ]
  refine ⟨List.mem_append_right _ List.mem_cons_self, ?_⟩
  rw [upTo, List.takeWhile_append_of_pos fun c hc => ?_]
  · rw [List.takeWhile_cons_of_neg (by simp), List.append_nil]
  · simpa using fun h0 : c = stop => notMem_upTo name (h0 ▸ hc)

/-- …and of what does not fit there is no end. -/
theorem upTo_copy_of_le (h : size ≤ (upTo stop name).length) :
    (copy stop size name).chars = (upTo stop name).take size ∧
      stop ∉ (copy stop size name).chars := by
  have hchars : (copy stop size name).chars = (upTo stop name).take size := by
    rw [chars_copy, Nat.sub_eq_zero_of_le h, List.replicate_zero, List.append_nil]
  rw [hchars]
  exact ⟨rfl, fun h0 => notMem_upTo name (List.take_subset _ _ h0)⟩

/-- **A comparison with a copy goes on behind the array where the text overruns it.** -/
theorem compare_copy_eq_none_iff :
    (copy stop size name).compare stop text = none ↔ Overrun stop size name text := by
  rw [compare, compareChars_eq_none_iff, (copy stop size name).length_eq, Overrun]
  rcases lt_or_ge (upTo stop name).length size with hlt | hle
  · exact iff_of_false (fun h => h.1 (upTo_copy_of_lt name hlt).1) fun h => absurd h.1 (by omega)
  · obtain ⟨hchars, hstop⟩ := upTo_copy_of_le name hle
    rw [and_iff_right hstop, and_iff_right hle, hchars]

/-- Cutting off what does not fit makes no difference there. -/
theorem take_upTo_eq_iff {name text : List α} (h : ¬ Overrun stop size name text) :
    (upTo stop name).take size = upTo stop text ↔ upTo stop name = upTo stop text := by
  rcases lt_or_ge (upTo stop name).length size with hlt | hle
  · rw [List.take_of_length_le hlt.le]
  · have htake : (upTo stop name).take size ≠ (upTo stop text).take size := fun heq => h ⟨hle, heq⟩
    refine iff_of_false (fun heq => htake ?_) fun heq => htake (by rw [heq])
    rw [← heq, List.take_take, min_self]

/-- **Anywhere else it says whether the texts are the same.** -/
theorem compare_copy (h : ¬ Overrun stop size name text) :
    (copy stop size name).compare stop text = some (decide (upTo stop name = upTo stop text)) := by
  obtain ⟨equal, hequal⟩ := Option.ne_none_iff_exists'.mp
    (mt (compare_copy_eq_none_iff name text).mp h)
  rw [hequal, compareChars_eq_some hequal]
  rcases lt_or_ge (upTo stop name).length size with hlt | hle
  · rw [(upTo_copy_of_lt name hlt).2]
  · obtain ⟨hchars, hstop⟩ := upTo_copy_of_le name hle
    rw [upTo_eq_self hstop, hchars]
    exact congrArg some (decide_eq_decide.mpr (take_upTo_eq_iff h))

/-- What is too long for the array compares equal to nothing. -/
theorem compare_copy_ne_true {name text : List α} (h : Overrun stop size name text)
    (other : List α) : (copy stop size other).compare stop text ≠ some true := by
  intro htrue
  have hnot : ¬ Overrun stop size other text :=
    fun hover => absurd ((compare_copy_eq_none_iff other text).mpr hover) (by rw [htrue]; simp)
  rw [compare_copy other text hnot] at htrue
  have heq := of_decide_eq_true (Option.some.inj htrue)
  refine hnot ⟨?_, by rw [heq]⟩
  have hlength := congrArg List.length h.2
  rw [List.length_take_of_le h.1, List.length_take] at hlength
  rw [heq]
  omega

end Field

end Text

/-! ## Looking up -/

section Lookup

variable {ε : Type*}

/-- The first entry that compares equal; `none` if a comparison does not end. -/
def searchFirst (compare : ε → Option Bool) : List ε → Option (Option ε)
  | [] => some none
  | e :: entries => (compare e).bind fun equal =>
    if equal then some (some e) else searchFirst compare entries

theorem searchFirst_map {δ : Type*} (compare : ε → Option Bool) (f : δ → ε) (entries : List δ) :
    searchFirst compare (entries.map f)
      = (searchFirst (compare ∘ f) entries).map (Option.map f) := by
  induction entries with
  | nil => rfl
  | cons e entries ih =>
    rw [List.map_cons, searchFirst, searchFirst, ih, Function.comp_apply]
    cases compare (f e) with
    | none => rfl
    | some equal => cases equal <;> rfl

theorem searchFirst_eq_find? {compare : ε → Option Bool} {equal : ε → Bool} {entries : List ε}
    (h : ∀ e ∈ entries, compare e = some (equal e)) :
    searchFirst compare entries = some (entries.find? equal) := by
  induction entries with
  | nil => rfl
  | cons e entries ih =>
    rw [searchFirst, h e List.mem_cons_self, Option.bind_some,
      ih fun e he => h e (List.mem_cons_of_mem _ he)]
    cases hequal : equal e with
    | true => rw [if_pos rfl, List.find?_cons_of_pos hequal]
    | false => rw [if_neg Bool.false_ne_true, List.find?_cons_of_neg (by rw [hequal]; decide)]

/-- A comparison that does not end is reached, if nothing compares equal. -/
theorem searchFirst_eq_none {compare : ε → Option Bool} {entries : List ε}
    (hne : ∀ e ∈ entries, compare e ≠ some true) (h : ∃ e ∈ entries, compare e = none) :
    searchFirst compare entries = none := by
  induction entries with
  | nil => simp at h
  | cons e entries ih =>
    rw [searchFirst]
    cases hcompare : compare e with
    | none => rfl
    | some equal =>
      have hfalse : equal = false := by
        cases equal with
        | true => exact absurd hcompare (hne e List.mem_cons_self)
        | false => rfl
      obtain ⟨e', he', hnone⟩ := h
      rw [Option.bind_some, hfalse, if_neg Bool.false_ne_true]
      refine ih (fun e he => hne e (List.mem_cons_of_mem _ he)) ?_
      rcases List.mem_cons.mp he' with rfl | he'
      · rw [hcompare] at hnone
        exact absurd hnone (by simp)
      · exact ⟨e', he', hnone⟩

variable {κ γ : Type*} [DecidableEq κ]

/-- What is kept under each name, an entry overwriting those before it. -/
def lastKept (entries : List (κ × γ)) : κ → Option γ :=
  entries.foldl (fun kept e => Function.update kept e.1 (some e.2)) fun _ => none

/-- **It is what a search from the newest entry on finds.** -/
theorem lastKept_eq_find? (entries : List (κ × γ)) (name : κ) :
    lastKept entries name = (entries.reverse.find? fun e => e.1 = name).map Prod.snd := by
  induction entries using List.reverseRecOn with
  | nil => rfl
  | append_singleton entries e ih =>
    rw [lastKept, List.foldl_append, List.foldl_cons, List.foldl_nil, List.reverse_append,
      List.reverse_singleton, List.singleton_append]
    by_cases hname : e.1 = name
    · rw [List.find?_cons_of_pos (by simpa using hname), ← hname, Function.update_self,
        Option.map_some]
    · rw [List.find?_cons_of_neg (by simpa using hname), Function.update_of_ne (Ne.symm hname)]
      exact ih

end Lookup

end Tr50.Machinery
