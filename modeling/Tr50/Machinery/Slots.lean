import Mathlib.Tactic

/-!
# Machinery/Slots — a table of slots that are taken and given up

`freeIdx` is the first slot that is free, and `giveUp` frees one.  What the table holds is
`l.filterMap f`, with `f` blind to free slots: up to order a free slot that is filled adds to it and
`giveUp` removes from it (`perm_fill`, `perm_giveUp`).  Where a test has one slot to find, it is
found (`findIdx_of_unique`).
-/

namespace Tr50.Machinery.Slots

variable {σ β : Type*}

/-! ## Replacing one -/

/-- What a table holds when one slot is replaced. -/
theorem perm_set (f : σ → Option β) {l : List σ} {i : ℕ} {y : σ} (x : σ) (h : l[i]? = some y) :
    ((f y).toList ++ (l.set i x).filterMap f).Perm ((f x).toList ++ l.filterMap f) := by
  induction l generalizing i with
  | nil => cases h
  | cons z l ih =>
    have hcons : ∀ z' : σ, ∀ l' : List σ,
        (z' :: l').filterMap f = (f z').toList ++ l'.filterMap f := fun z' l' => by
      cases hz : f z' <;> simp [hz]
    cases i with
    | zero =>
      obtain rfl := Option.some.inj h
      rw [List.set_cons_zero, hcons, hcons, ← List.append_assoc, ← List.append_assoc]
      exact List.perm_append_comm.append_right _
    | succ i =>
      rw [List.set_cons_succ, hcons, hcons, ← List.append_assoc, ← List.append_assoc]
      refine (List.perm_append_comm.append_right _).trans ?_
      refine .trans ?_ (List.perm_append_comm.append_right _)
      rw [List.append_assoc, List.append_assoc]
      exact (ih h).append_left _

theorem mem_set_cases {l : List σ} {i : ℕ} {x z : σ} (h : z ∈ l.set i x) : z = x ∨ z ∈ l :=
  (List.mem_or_eq_of_mem_set h).symm

/-! ## Filling -/

/-- The first slot that is free, if there is one. -/
def freeIdx (used : σ → Bool) (l : List σ) : Option ℕ := l.findIdx? fun y => !used y

variable {used : σ → Bool} {l l' : List σ} {x y z : σ} {f : σ → Option β} {i : ℕ}

theorem freeIdx_eq_some (h : freeIdx used l = some i) : ∃ y, l[i]? = some y ∧ used y = false := by
  obtain ⟨hlt, hfree, -⟩ := List.findIdx?_eq_some_iff_getElem.mp h
  exact ⟨l[i], List.getElem?_eq_getElem hlt, by simpa using hfree⟩

theorem freeIdx_isSome : (freeIdx used l).isSome ↔ ∃ y ∈ l, used y = false := by
  simp [freeIdx, List.findIdx?_isSome]

/-- **What fills a free slot is added to what the table holds.** -/
theorem perm_fill (hy : l[i]? = some y) (hf : f y = none) (x : σ) :
    ((l.set i x).filterMap f).Perm ((f x).toList ++ l.filterMap f) := by
  simpa only [hf, Option.toList_none, List.nil_append] using perm_set f x hy

/-! ## Taking -/

/-- A slot, and the table without it. -/
def giveUp (free : σ → σ) (l : List σ) (i : ℕ) : Option (σ × List σ) :=
  l[i]?.map fun y => (y, l.set i (free y))

variable {test : σ → Bool} {free : σ → σ}

theorem giveUp_eq_some (h : giveUp free l i = some (y, l')) :
    l[i]? = some y ∧ l' = l.set i (free y) := by
  obtain ⟨z, hz, h⟩ := Option.map_eq_some_iff.mp h
  obtain ⟨rfl, rfl⟩ := Prod.mk.injEq .. ▸ h
  exact ⟨hz, rfl⟩

/-- What is given up is one of the table's… -/
theorem mem_of_giveUp (h : giveUp free l i = some (y, l')) : y ∈ l :=
  List.mem_of_getElem? (giveUp_eq_some h).1

/-- …and the other slots stay. -/
theorem mem_giveUp (h : giveUp free l i = some (y, l')) (hz : z ∈ l') : z = free y ∨ z ∈ l := by
  obtain ⟨-, rfl⟩ := giveUp_eq_some h
  exact mem_set_cases hz

/-- **It is removed from what the table holds.** -/
theorem perm_giveUp (hf : ∀ y, f (free y) = none) (h : giveUp free l i = some (y, l')) :
    (l.filterMap f).Perm ((f y).toList ++ l'.filterMap f) := by
  obtain ⟨hi, rfl⟩ := giveUp_eq_some h
  simpa only [hf y, Option.toList_none, List.nil_append] using (perm_set f (free y) hi).symm

/-! ## Finding -/

theorem findIdx_eq_some (h : l.findIdx? test = some i) : ∃ y, l[i]? = some y ∧ test y := by
  obtain ⟨hlt, htest, -⟩ := List.findIdx?_eq_some_iff_getElem.mp h
  exact ⟨l[i], List.getElem?_eq_getElem hlt, htest⟩

/-- **A slot that is the only one to pass the test is the one that is found.** -/
theorem findIdx_of_unique (hx : x ∈ l) (htest : test x) (hunique : ∀ y ∈ l, test y → y = x) :
    ∃ i, l.findIdx? test = some i ∧ l[i]? = some x := by
  obtain ⟨i, hi⟩ := Option.isSome_iff_exists.mp
    (List.findIdx?_isSome.trans (List.any_eq_true.mpr ⟨x, hx, htest⟩))
  obtain ⟨y, hy, hty⟩ := findIdx_eq_some hi
  exact ⟨i, hi, hunique y (List.mem_of_getElem? hy) hty ▸ hy⟩

end Tr50.Machinery.Slots
