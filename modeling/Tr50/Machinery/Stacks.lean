import Mathlib.Data.List.Perm.Basic
import Mathlib.Tactic

/-!
# Machinery/Stacks — the calls of several threads

The calls in progress of all threads are one list of pairs, thread and frame; of a thread's own, the
first is the innermost.  The bag of frames is what counts (`perm_pop`, `countP_pop`): what holds of
the frames of all threads together does not depend on how the threads follow one another.
-/

namespace Tr50.Machinery

open scoped List

namespace Stacks

variable {τ φ : Type*} [DecidableEq τ] {calls : List (τ × φ)} {t : τ} {f : φ}

/-- The innermost call of a thread. -/
def top (calls : List (τ × φ)) (t : τ) : Option φ := (calls.find? fun c => c.1 = t).map (·.2)

/-- …is over. -/
def pop (calls : List (τ × φ)) (t : τ) : List (τ × φ) := calls.eraseP fun c => c.1 = t

/-- …goes on as `f`. -/
def goOn (calls : List (τ × φ)) (t : τ) (f : φ) : List (τ × φ) := (t, f) :: pop calls t

/-- **What is popped was on top.** -/
theorem perm_pop (h : top calls t = some f) : calls ~ (t, f) :: pop calls t := by
  induction calls with
  | nil => cases h
  | cons c calls ih =>
    by_cases hc : c.1 = t
    · have hf : c.2 = f := by simpa [top, hc] using h
      have hpop : pop (c :: calls) t = calls := List.eraseP_cons_of_pos (by simpa using hc)
      rw [hpop, ← hc, ← hf]
    · have hpop : pop (c :: calls) t = c :: pop calls t :=
        List.eraseP_cons_of_neg (by simpa using hc)
      rw [hpop]
      refine ((ih ?_).cons c).trans (List.Perm.swap ..)
      simpa [top, hc] using h

theorem mem_of_top (h : top calls t = some f) : (t, f) ∈ calls :=
  (perm_pop h).mem_iff.mpr (List.mem_cons_self ..)

/-- The other frames stay. -/
theorem mem_pop_of_ne {c : τ × φ} (h : top calls t = some f) (hc : c ∈ calls) (hne : c.2 ≠ f) :
    c ∈ pop calls t :=
  (List.mem_cons.mp ((perm_pop h).mem_iff.mp hc)).resolve_left fun heq => hne (heq ▸ rfl)

theorem countP_pop (p : φ → Bool) (h : top calls t = some f) :
    calls.countP (p ·.2) = (pop calls t).countP (p ·.2) + if p f then 1 else 0 := by
  rw [(perm_pop h).countP_eq, List.countP_cons]

theorem countP_goOn (p : φ → Bool) (h : top calls t = some f) (f' : φ) :
    (goOn calls t f').countP (p ·.2) + (if p f then 1 else 0)
      = calls.countP (p ·.2) + if p f' then 1 else 0 := by
  have hcons : (goOn calls t f').countP (p ·.2)
      = (pop calls t).countP (p ·.2) + if p f' then 1 else 0 := List.countP_cons ..
  rw [hcons, countP_pop p h]
  omega

end Stacks

end Tr50.Machinery
