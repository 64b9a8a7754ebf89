import Tr50.Machinery.Runs

/-!
# Machinery/Observed — runs with an observer

An observer keeps a note beside the state, which no step reads: `note` says what becomes of it when
a step is taken.  It may see more of an action than the system does (`act`).  A run with a note is a
run (`Reach.forget`), and what is noted of two things is noted of each (`Reach.project`).
-/

namespace Tr50.Machinery

variable {σ α β ω ω' : Type*} {step : σ → α → Option σ} {act : β → α} {note : σ → β → σ → ω → ω}

/-- A step, and what is noted of it. -/
def observe (step : σ → α → Option σ) (act : β → α) (note : σ → β → σ → ω → ω) (p : σ × ω) (b : β) :
    Option (σ × ω) :=
  (step p.1 (act b)).map fun t => (t, note p.1 b t p.2)

theorem observe_eq_some {p q : σ × ω} {b : β} : observe step act note p b = some q ↔
    step p.1 (act b) = some q.1 ∧ q.2 = note p.1 b q.1 p.2 := by
  rw [observe, Option.map_eq_some_iff]
  constructor
  · rintro ⟨t, ht, rfl⟩
    exact ⟨ht, rfl⟩
  · rintro ⟨ht, hnote⟩
    exact ⟨q.1, ht, Prod.ext rfl hnote.symm⟩

namespace Reach

/-- **A run with a note is a run.** -/
theorem forget {good : σ → α → Prop} {good' : σ × ω → β → Prop} {init : σ × ω} {p : σ × ω}
    (hgood : ∀ p b, good' p b → good p.1 (act b))
    (h : Reach (observe step act note) good' init p) : Reach step good init.1 p.1 := by
  induction h with
  | refl => exact refl
  | tail _ hg hs ih => exact tail ih (hgood _ _ hg) (observe_eq_some.mp hs).1

/-- **A part of a note is a note.** -/
theorem project {note' : σ → β → σ → ω' → ω'} {f : ω → ω'}
    (hnote : ∀ s b t w, f (note s b t w) = note' s b t (f w)) {good : σ × ω → β → Prop}
    {good' : σ × ω' → β → Prop} (hgood : ∀ p b, good p b → good' (p.1, f p.2) b) {init p : σ × ω}
    (h : Reach (observe step act note) good init p) :
    Reach (observe step act note') good' (init.1, f init.2) (p.1, f p.2) := by
  induction h with
  | refl => exact refl
  | tail _ hg hs ih =>
    obtain ⟨hstep, hw⟩ := observe_eq_some.mp hs
    exact tail ih (hgood _ _ hg) (observe_eq_some.mpr ⟨hstep, by rw [hw, hnote]⟩)

end Reach

end Tr50.Machinery
