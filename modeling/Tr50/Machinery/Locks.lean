import Mathlib.Logic.Relation
import Mathlib.Tactic

/-!
# Machinery/Locks — recursive locks, and the order they are taken in

A `RMutex τ` is owned by at most one thread, which may take it again.  Threads that take their
locks in increasing order of rank never wait in a circle (`acyclic_of_ordered`): along a chain of
waits the rank of the awaited lock only grows.
-/

namespace Tr50.Machinery

/-- A recursive lock: its owner, and how often the owner has taken it. -/
structure RMutex (τ : Type*) where
  owner : Option τ
  depth : ℕ
deriving DecidableEq, Repr

namespace RMutex

variable {τ : Type*}

/-- Nobody holds it. -/
def free : RMutex τ := ⟨none, 0⟩

/-- Take the lock; `none` while another thread holds it. -/
def lock [DecidableEq τ] (m : RMutex τ) (t : τ) : Option (RMutex τ) :=
  match m.owner with
  | none => some ⟨some t, 1⟩
  | some u => if u = t then some ⟨some t, m.depth + 1⟩ else none

/-- Give the lock back once. -/
def unlock (m : RMutex τ) : RMutex τ :=
  if m.depth ≤ 1 then free else { m with depth := m.depth - 1 }

/-- A lock held only once is free after one unlock. -/
theorem unlock_of_depth {m : RMutex τ} (h : m.depth = 1) : m.unlock = free := by
  rw [unlock, if_pos h.le]

/-- A thread that does not hold the lock takes it free, and holds it once. -/
theorem lock_eq_some [DecidableEq τ] {m m' : RMutex τ} {t : τ} (h : m.lock t = some m')
    (hnot : m.owner ≠ some t) : m.owner = none ∧ m' = ⟨some t, 1⟩ := by
  unfold lock at h
  split at h
  · rename_i hnone
    exact ⟨hnone, (Option.some.inj h).symm⟩
  · rename_i u hu
    split_ifs at h with hut
    exact absurd (hut ▸ hu) hnot

end RMutex

section Order

variable {τ ℓ ρ : Type*} (wants : τ → Option ℓ) (owner : ℓ → Option τ)

/-- `t` waits for a lock that `u` holds. -/
def WaitsFor (t u : τ) : Prop := t ≠ u ∧ ∃ l, wants t = some l ∧ owner l = some u

/-- Every lock a thread holds ranks below the lock it wants. -/
def Ordered [Preorder ρ] (rank : ℓ → ρ) : Prop :=
  ∀ t l l', wants t = some l → owner l' = some t → rank l' < rank l

variable {wants owner}

/-- Along a chain of waits the ranks grow: its last thread holds a lock that ranks no lower than the
one its first thread wants. -/
theorem Ordered.chain [Preorder ρ] {rank : ℓ → ρ} (h : Ordered wants owner rank) {t u : τ}
    (hchain : Relation.TransGen (WaitsFor wants owner) t u) :
    ∃ l l', wants t = some l ∧ owner l' = some u ∧ rank l ≤ rank l' := by
  induction hchain with
  | single hw =>
    obtain ⟨-, l, hl, howner⟩ := hw
    exact ⟨l, l, hl, howner, le_rfl⟩
  | tail _ hw ih =>
    obtain ⟨l, l', hl, howner, hle⟩ := ih
    obtain ⟨-, m, hm, howner'⟩ := hw
    exact ⟨l, m, hl, howner', hle.trans (h _ m l' hm howner).le⟩

/-- **Threads that take their locks in order never wait in a circle.** -/
theorem acyclic_of_ordered [Preorder ρ] {rank : ℓ → ρ} (h : Ordered wants owner rank) (t : τ) :
    ¬ Relation.TransGen (WaitsFor wants owner) t t := by
  intro hcycle
  obtain ⟨l, l', hl, howner, hle⟩ := h.chain hcycle
  exact absurd (h t l l' hl howner) (not_lt_of_ge hle)

end Order

end Tr50.Machinery
