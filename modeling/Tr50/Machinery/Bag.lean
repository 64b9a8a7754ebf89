import Mathlib.Data.Multiset.AddSub
import Mathlib.Tactic

/-!
# Machinery/Bag — bags with a bound

A bag holds items in no order, and at most `capacity` of them (`Bag`).  `Bag.Adds` and `Bag.Takes`
say what an operation on it may do and answer: an add puts its item in, unless the bag is full; a
take removes one of the items it asks for, unless there is none.  The bag decides which of the two
it is (`Adds.eq_false_iff`, `Takes.eq_none_iff`), and a take leaves to its implementation which item
it is.
-/

namespace Tr50.Machinery

structure Bag (α : Type*) (capacity : ℕ) where
  items : Multiset α
  bound : items.card ≤ capacity

namespace Bag

variable {α : Type*} {capacity : ℕ} {b b' : Bag α capacity}

/-- An add, by its answer. -/
inductive Adds (x : α) (b : Bag α capacity) : Bool → Bag α capacity → Prop
  | added {b' : Bag α capacity} (h : b'.items = x ::ₘ b.items) : Adds x b true b'
  | full (h : b.items.card = capacity) : Adds x b false b

/-- A take of one of the items with `p`, by its answer. -/
inductive Takes (p : α → Prop) (b : Bag α capacity) : Option α → Bag α capacity → Prop
  | taken {b' : Bag α capacity} {x : α} (hp : p x) (h : b.items = x ::ₘ b'.items) :
      Takes p b (some x) b'
  | missing (h : ∀ x ∈ b.items, ¬ p x) : Takes p b none b

/-- **An add is refused by a full bag, and by no other.** -/
theorem Adds.eq_false_iff {x : α} {ok : Bool} (h : Adds x b ok b') :
    ok = false ↔ b.items.card = capacity := by
  cases h with
  | full h => simpa using h
  | added h =>
    have hcard : b'.items.card = b.items.card + 1 := by rw [h, Multiset.card_cons]
    have hbound := b'.bound
    simp only [Bool.true_eq_false, false_iff]
    omega

/-- **A take finds nothing in a bag that has nothing for it, and in no other.** -/
theorem Takes.eq_none_iff {p : α → Prop} {taken : Option α} (h : Takes p b taken b') :
    taken = none ↔ ∀ x ∈ b.items, ¬ p x := by
  cases h with
  | missing h => simpa using h
  | @taken _ x hp h =>
    simp only [reduceCtorEq, false_iff, not_forall, not_not]
    exact ⟨x, h ▸ Multiset.mem_cons_self x _, hp⟩

end Bag

end Tr50.Machinery
