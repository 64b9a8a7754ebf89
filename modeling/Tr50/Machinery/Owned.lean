import Mathlib.Data.List.Basic
import Mathlib.Tactic

/-!
# Machinery/Owned — what has been acquired, and what has been released

A program that acquires and releases resources leaves a log of `Own` events.  What the log says of
one resource is its **history**, and everything about it is read there: it is `Held` when it has
been acquired and nothing else, `Settled` when it has been acquired and released, once each and in
this order.  A log is `Clean` when every resource it names is settled, and `Leaves r` when all but
`r` are.

`Relay` is a block that moves: one resource after the other, each released as the next one is
acquired.  At every moment it leaves the last of them (`Relay.leaves`).
-/

namespace Tr50.Machinery

variable {α : Type*}

/-- Something is done with a resource. -/
inductive Own (α : Type*)
  | acquire (r : α)
  | release (r : α)
deriving DecidableEq, Repr

namespace Own

def resource : Own α → α
  | acquire r => r
  | release r => r

variable [DecidableEq α]

/-- What a log says of one resource. -/
def history (r : α) (log : List (Own α)) : List (Own α) := log.filter (·.resource = r)

/-- Acquired, and still there. -/
def Held (r : α) (log : List (Own α)) : Prop := history r log = [acquire r]

/-- Acquired once, and then released once. -/
def Settled (r : α) (log : List (Own α)) : Prop := history r log = [acquire r, release r]

/-- Every resource that is named is settled. -/
def Clean (log : List (Own α)) : Prop := ∀ r, history r log = [] ∨ Settled r log

/-- …but for one, which is held. -/
def Leaves (r : α) (log : List (Own α)) : Prop :=
  Held r log ∧ ∀ r' ≠ r, history r' log = [] ∨ Settled r' log

variable {r r' : α} {log log' : List (Own α)}

@[simp] theorem history_nil : history r [] = [] := rfl

@[simp] theorem history_append :
    history r (log ++ log') = history r log ++ history r log' := List.filter_append ..

@[simp] theorem history_acquire : history r (acquire r' :: log)
    = if r' = r then acquire r :: history r log else history r log := by
  by_cases h : r' = r <;> simp [history, resource, h]

@[simp] theorem history_release : history r (release r' :: log)
    = if r' = r then release r :: history r log else history r log := by
  by_cases h : r' = r <;> simp [history, resource, h]

/-- A history keeps every event of its resource. -/
theorem count_history (e : Own α) (h : e.resource = r) : (history r log).count e = log.count e := by
  rw [history, List.count_filter]
  simpa using h

/-- **A settled resource has been acquired exactly once and released exactly once.** -/
theorem Settled.count (h : Settled r log) :
    log.count (acquire r) = 1 ∧ log.count (release r) = 1 := by
  rw [← count_history (r := r) (acquire r) rfl, ← count_history (r := r) (release r) rfl, h]
  simp

/-- …and one that is held has not been released. -/
theorem Held.count (h : Held r log) :
    log.count (acquire r) = 1 ∧ log.count (release r) = 0 := by
  rw [← count_history (r := r) (acquire r) rfl, ← count_history (r := r) (release r) rfl, h]
  simp

/-- A clean log settles whatever it acquires. -/
theorem Clean.settled (h : Clean log) (hr : acquire r ∈ log) : Settled r log := by
  refine (h r).resolve_left fun hnil => ?_
  have hmem : acquire r ∈ history r log := List.mem_filter.mpr ⟨hr, by simp [resource]⟩
  rw [hnil] at hmem
  cases hmem

theorem clean_nil : Clean ([] : List (Own α)) := fun _ => Or.inl rfl

/-- What is left is released last. -/
theorem Leaves.release (h : Leaves r log) : Clean (log ++ [release r]) := by
  intro r'
  by_cases hr : r' = r
  · subst hr
    refine Or.inr ?_
    rw [Settled, history_append, h.1]
    simp
  · simpa [Settled, Ne.symm hr] using h.2 r' hr

/-! ## A block that moves -/

/-- One resource after the other, from the `a`-th to the `b`-th. -/
inductive Relay (f : ℕ → α) (a : ℕ) : ℕ → List (Own α) → Prop
  | refl : Relay f a a []
  | next {b : ℕ} {log : List (Own α)} (h : Relay f a b log) :
      Relay f a (b + 1) (log ++ [release (f b), acquire (f (b + 1))])

variable {f : ℕ → α} {a b : ℕ}

/-- Nothing is said of a resource that comes later. -/
theorem Relay.history_later (hf : Function.Injective f) (h : Relay f a b log) {i : ℕ} (hi : b < i)
    (ha : a ≠ i) : history (f i) (acquire (f a) :: log) = [] := by
  induction h with
  | refl => simp [hf.eq_iff, ha]
  | @next b log h ih =>
    have hnil := ih (by omega)
    rw [← List.cons_append, history_append, hnil]
    simp [hf.eq_iff, show b ≠ i by omega, show b + 1 ≠ i by omega]

omit [DecidableEq α] in
theorem Relay.le (h : Relay f a b log) : a ≤ b := by
  induction h with
  | refl => exact le_rfl
  | next _ ih => exact Nat.le_succ_of_le ih

/-- **A block that moves leaves the last of its places.** -/
theorem Relay.leaves (hf : Function.Injective f) (h : Relay f a b log) :
    Leaves (f b) (acquire (f a) :: log) := by
  induction h with
  | refl =>
    refine ⟨by simp [Held], fun r' hr => Or.inl ?_⟩
    simp [Ne.symm hr]
  | @next b log h ih =>
    have hle := h.le
    have hlater := h.history_later hf (i := b + 1) (by omega) (by omega)
    constructor
    · rw [Held, ← List.cons_append, history_append, hlater]
      simp [hf.eq_iff]
    · intro r' hr
      have hmoved := ih.release r'
      rw [Settled, history_append] at hmoved
      rw [Settled, ← List.cons_append, history_append]
      simpa [Ne.symm hr] using hmoved

end Own

end Tr50.Machinery
