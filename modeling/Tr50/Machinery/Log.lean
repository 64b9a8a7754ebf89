import Mathlib.Data.List.Infix
import Mathlib.Tactic

/-!
# Machinery/Log — what has been written down so far

A log grows at its head: `e :: past` is `past` once `e` has been written, and the logs that there
have been are its suffixes.  `Throughout p log` says that `p` held of each of them, `Always p log`
that each entry was written where `p` held of it and the log before it.  Both are checked entry by
entry (`throughout_cons`, `always_cons`), and so are kept by whatever writes only what it may.

`Owes asks answers log` says that the log ends in something asked and not answered since.
-/

namespace Tr50.Machinery

variable {ε : Type*}

/-- `p` has held of the log all along. -/
def Throughout (p : List ε → Prop) (log : List ε) : Prop := ∀ past, past <:+ log → p past

/-- Every entry has been written where `p` let it. -/
def Always (p : ε → List ε → Prop) (log : List ε) : Prop := ∀ e past, e :: past <:+ log → p e past

variable {p p' : List ε → Prop} {q q' : ε → List ε → Prop} {e : ε} {log past : List ε}

theorem throughout_nil : Throughout p [] ↔ p [] := by simp [Throughout]

/-- **One more entry, one more check.** -/
theorem throughout_cons : Throughout p (e :: log) ↔ p (e :: log) ∧ Throughout p log := by
  simp only [Throughout, List.suffix_cons_iff, forall_eq_or_imp]

theorem Throughout.self (h : Throughout p log) : p log := h log List.suffix_rfl

theorem always_nil : Always q [] := by simp [Always]

/-- …and the same for what is written. -/
theorem always_cons : Always q (e :: log) ↔ q e log ∧ Always q log := by
  constructor
  · exact fun h => ⟨h e log List.suffix_rfl,
      fun e' past hpast => h e' past (hpast.trans (List.suffix_cons e log))⟩
  · rintro ⟨he, hlog⟩ e' past hpast
    rcases List.suffix_cons_iff.mp hpast with heq | hpast
    · obtain ⟨rfl, rfl⟩ := List.cons.inj heq
      exact he
    · exact hlog e' past hpast

theorem Always.mono (h : Always q log) (hq : ∀ e past, q e past → q' e past) : Always q' log :=
  fun e past hpast => hq e past (h e past hpast)

/-! ## Questions and answers -/

variable {asks answers : ε → Prop}

/-- Something has been asked, and nothing answered since. -/
def Owes (asks answers : ε → Prop) (log : List ε) : Prop :=
  ∃ later e past, log = later ++ e :: past ∧ asks e ∧ ∀ e' ∈ later, ¬ answers e'

theorem not_owes_nil : ¬ Owes asks answers [] := by simp [Owes]

/-- **An answer is one to everything asked before.** -/
theorem not_owes_cons (hanswer : answers e) (hask : ¬ asks e) : ¬ Owes asks answers (e :: log) := by
  rintro ⟨later, e', past, heq, hasks, hnone⟩
  cases later with
  | nil =>
    obtain ⟨rfl, -⟩ := List.cons.inj heq
    exact hask hasks
  | cons e'' later =>
    obtain ⟨rfl, -⟩ := List.cons.inj heq
    exact hnone e List.mem_cons_self hanswer

/-- Where nothing is owed, every question has its answer. -/
theorem exists_answer (h : ¬ Owes asks answers log) {later : List ε}
    (heq : log = later ++ e :: past) (hask : asks e) : ∃ e' ∈ later, answers e' := by
  by_contra hnone
  push Not at hnone
  exact h ⟨later, e, past, heq, hask, hnone⟩

end Tr50.Machinery
