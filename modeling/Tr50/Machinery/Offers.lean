import Mathlib.Data.List.Infix
import Mathlib.Tactic

/-!
# Machinery/Offers — bytes handed over piece by piece

A writer offers a piece of its bytes, and is told how many of them have been taken.  Where each
offer begins at what has been taken so far (`InOrder`), the pieces taken are the bytes up to there,
each once (`accepted_of_inOrder`).
-/

namespace Tr50.Machinery

/-- One offer: where it begins, how long it is, and what the taker answers. -/
structure Offer where
  start : ℤ
  offered : ℤ
  result : ℤ
deriving DecidableEq, Repr

namespace Offer

/-- The answer is a failure, or a count: at least one byte of an offer that has one, and no more
than offered. -/
def Answered (o : Offer) : Prop :=
  o.result = -1 ∨ min 1 o.offered ≤ o.result ∧ o.result ≤ o.offered

/-- The offer lies within the first `n` bytes. -/
def Within (n : ℕ) (o : Offer) : Prop := 0 ≤ o.start ∧ 0 ≤ o.offered ∧ o.start + o.offered ≤ n

/-- How many bytes have been taken. -/
def count (o : Offer) : ℕ := o.result.toNat

instance (o : Offer) : Decidable o.Answered := inferInstanceAs (Decidable (_ ∨ _))

end Offer

section Accepted

variable {α : Type} {bs : List α} {o : Offer} {offers : List Offer}

/-- The bytes that have been taken. -/
def accepted (bs : List α) (offers : List Offer) : List α :=
  offers.flatMap fun o => (bs.drop o.start.toNat).take o.count

/-- How many that are. -/
def total (offers : List Offer) : ℕ := (offers.map Offer.count).sum

/-- Every offer begins where the bytes taken before it end. -/
def InOrder : ℕ → List Offer → Prop
  | _, [] => True
  | n, o :: offers => o.start = n ∧ InOrder (n + o.count) offers

@[simp] theorem accepted_nil : accepted bs [] = [] := rfl

@[simp] theorem accepted_cons :
    accepted bs (o :: offers) = (bs.drop o.start.toNat).take o.count ++ accepted bs offers := rfl

@[simp] theorem total_nil : total [] = 0 := rfl

@[simp] theorem total_cons : total (o :: offers) = o.count + total offers := by simp [total]

/-- **What has been taken in order is a run of the bytes.** -/
theorem accepted_of_inOrder {n : ℕ} (h : InOrder n offers) :
    accepted bs offers = (bs.drop n).take (total offers) := by
  induction offers generalizing n with
  | nil => rfl
  | cons o offers ih =>
    obtain ⟨hstart, hrest⟩ := h
    rw [accepted_cons, ih hrest, hstart, Int.toNat_natCast, total_cons, List.take_add,
      List.drop_drop]

/-- From the beginning on it is the first bytes. -/
theorem accepted_begins (h : InOrder 0 offers) : accepted bs offers <+: bs := by
  rw [accepted_of_inOrder h, List.drop_zero]
  exact List.take_prefix _ _

theorem accepted_eq_iff (h : InOrder 0 offers) (hle : total offers ≤ bs.length) :
    accepted bs offers = bs ↔ total offers = bs.length := by
  rw [accepted_of_inOrder h, List.drop_zero]
  constructor
  · intro heq
    rw [← List.length_take_of_le hle, heq]
  · intro heq
    rw [heq, List.take_length]

end Accepted

end Tr50.Machinery
