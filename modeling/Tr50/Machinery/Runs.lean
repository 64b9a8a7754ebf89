import Mathlib.Tactic

/-!
# Machinery/Runs — states reached by steps

A system is a step function: what a state becomes under a choice, or `none` where the choice does
not apply.  `Reach step good init` is what it reaches in runs all of whose steps are `good`; an
invariant is a property of the initial state that every good step keeps (`Reach.invariant`).
`Trace step good s trace t` says which steps they are.
-/

namespace Tr50.Machinery

variable {σ α : Type*}

/-- The states reached from `init` by good steps. -/
inductive Reach (step : σ → α → Option σ) (good : σ → α → Prop) (init : σ) : σ → Prop
  | refl : Reach step good init init
  | tail {s t : σ} {a : α} (h : Reach step good init s) (hgood : good s a)
      (hstep : step s a = some t) : Reach step good init t

namespace Reach

variable {step : σ → α → Option σ} {good good' : σ → α → Prop} {init s : σ}

/-- **What holds at first and is kept by every good step holds throughout.** -/
theorem invariant {I : σ → Prop} (hinit : I init)
    (hstep : ∀ s a t, I s → good s a → step s a = some t → I t)
    (h : Reach step good init s) : I s := by
  induction h with
  | refl => exact hinit
  | tail _ hgood hs ih => exact hstep _ _ _ ih hgood hs

/-- **A relation that every good step keeps, by one step of the other system or by none, is kept by
runs.** -/
theorem simulation {σ' α' : Type*} {step' : σ' → α' → Option σ'} {good₁ : σ' → α' → Prop}
    {init' : σ'} {R : σ → σ' → Prop} (hinit : R init init')
    (hstep : ∀ s s' a t, R s s' → good s a → step s a = some t →
      R t s' ∨ ∃ a' t', good₁ s' a' ∧ step' s' a' = some t' ∧ R t t')
    (h : Reach step good init s) : ∃ s', Reach step' good₁ init' s' ∧ R s s' := by
  induction h with
  | refl => exact ⟨init', refl, hinit⟩
  | tail _ hgood hs ih =>
    obtain ⟨s', hreach, hR⟩ := ih
    rcases hstep _ _ _ _ hR hgood hs with hR | ⟨a', t', hgood', hs', hR⟩
    · exact ⟨s', hreach, hR⟩
    · exact ⟨t', tail hreach hgood' hs', hR⟩

/-- What is reached by good steps is reached. -/
theorem mono (hgood : ∀ s a, good s a → good' s a) (h : Reach step good init s) :
    Reach step good' init s := by
  induction h with
  | refl => exact refl
  | tail _ hg hs ih => exact tail ih (hgood _ _ hg) hs

/-- Runs follow one another. -/
theorem trans {mid : σ} (h : Reach step good init mid) (h' : Reach step good mid s) :
    Reach step good init s := by
  induction h' with
  | refl => exact h
  | tail _ hgood hs ih => exact tail ih hgood hs

/-- A run that evaluates, of steps that are good ones, reaches its last state. -/
theorem of_foldlM_of {step' : σ → α → Option σ} (trace : List α)
    (h : ∀ s t, ∀ a ∈ trace, step' s a = some t → good s a ∧ step s a = some t) :
    ∀ {init s : σ}, trace.foldlM step' init = some s → Reach step good init s := by
  induction trace using List.reverseRecOn with
  | nil =>
    intro init s h
    obtain rfl : init = s := by simpa using h
    exact refl
  | append_singleton trace a ih =>
    intro init s hrun
    rw [List.foldlM_append] at hrun
    obtain ⟨mid, hmid, hlast⟩ := Option.bind_eq_some_iff.mp hrun
    obtain ⟨hgood, hs⟩ := h mid s a (by simp) (by simpa using hlast)
    exact tail (ih (fun s t a ha => h s t a (List.mem_append_left _ ha)) hmid) hgood hs

/-- …where they are good anywhere. -/
theorem of_foldlM (trace : List α) (hgood : ∀ s, ∀ a ∈ trace, good s a) {init s : σ}
    (h : trace.foldlM step init = some s) : Reach step good init s :=
  of_foldlM_of trace (fun s _ a ha hs => ⟨hgood s a ha, hs⟩) h

/-- …where each is found to be good on the way. -/
theorem of_guarded [∀ s a, Decidable (good s a)] (trace : List α) {init s : σ}
    (h : trace.foldlM (fun s a => if good s a then step s a else none) init = some s) :
    Reach step good init s := by
  refine of_foldlM_of trace (fun s t a _ hs => ?_) h
  split_ifs at hs with hgood
  exact ⟨hgood, hs⟩

end Reach

/-- The good steps `trace`, one after the other, from a state to another. -/
inductive Trace (step : σ → α → Option σ) (good : σ → α → Prop) : σ → List α → σ → Prop
  | nil (s : σ) : Trace step good s [] s
  | cons {s t u : σ} {a : α} {trace : List α} (hgood : good s a) (hstep : step s a = some t)
      (h : Trace step good t trace u) : Trace step good s (a :: trace) u

namespace Trace

variable {step : σ → α → Option σ} {good : σ → α → Prop} {s t : σ} {trace : List α}

/-- What a trace leads to is reached. -/
theorem reach (h : Trace step good s trace t) : Reach step good s t := by
  induction h with
  | nil s => exact Reach.refl
  | cons hgood hs _ ih => exact (Reach.refl.tail hgood hs).trans ih

/-- A trace that evaluates, each of whose steps is found to be good on the way. -/
theorem of_guarded [∀ s a, Decidable (good s a)]
    (h : trace.foldlM (fun s a => if good s a then step s a else none) s = some t) :
    Trace step good s trace t := by
  induction trace generalizing s with
  | nil =>
    obtain rfl : s = t := by simpa using h
    exact nil s
  | cons a trace ih =>
    rw [List.foldlM_cons] at h
    obtain ⟨u, hs, hrest⟩ := Option.bind_eq_some_iff.mp h
    split_ifs at hs with hgood
    exact cons hgood hs (ih hrest)

end Trace

end Tr50.Machinery
