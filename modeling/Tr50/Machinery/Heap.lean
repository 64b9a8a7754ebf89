import Mathlib.Data.List.ReduceOption
import Mathlib.Tactic

/-!
# Machinery/Heap — blocks, and who has them

A heap hands out blocks and takes them back.  A pointer is the number of its block, and no number is
handed out twice, so a pointer whose block has been freed is `Gone` for good: to free it again, or
to read it, is `none`.

`Owned ps` says that the blocks there are, are those of `ps`, each once.  Whoever has a list of
pointers to free can free them all (`Owned.freeEach`), and what is left is what the others have.
-/

namespace Tr50.Machinery

variable {β : Type*}

/-- Blocks; from `next` on none has been handed out. -/
structure Heap (β : Type*) where
  next : ℕ
  block : ℕ → Option β
  fresh : ∀ p, next ≤ p → block p = none

namespace Heap

def empty : Heap β := ⟨0, fun _ => none, fun _ _ => rfl⟩

/-- The heap with one block more, whose pointer is `next`. -/
def put (h : Heap β) (b : β) : Heap β where
  next := h.next + 1
  block := Function.update h.block h.next (some b)
  fresh p hp := by
    rw [Function.update_of_ne (by omega)]
    exact h.fresh p (by omega)

/-- …and with one block less. -/
def drop (h : Heap β) (p : ℕ) : Heap β where
  next := h.next
  block := Function.update h.block p none
  fresh q hq := by
    by_cases heq : q = p
    · rw [heq, Function.update_self]
    · rw [Function.update_of_ne heq]
      exact h.fresh q hq

/-- `free` -/
def free (h : Heap β) (p : ℕ) : Option (Heap β) :=
  if (h.block p).isSome then some (h.drop p) else none

/-- The same block with other contents. -/
def write (h : Heap β) (p : ℕ) (b : β) : Option (Heap β) :=
  if hp : (h.block p).isSome then
    some { h with
      block := Function.update h.block p (some b)
      fresh := fun q hq => by
        rw [Function.update_of_ne, h.fresh q hq]
        rintro rfl
        rw [h.fresh q hq] at hp
        exact absurd hp Bool.false_ne_true }
  else none

/-- The pointers that are not NULL are freed, one after the other. -/
def freeEach (h : Heap β) (ps : List (Option ℕ)) : Option (Heap β) :=
  ps.reduceOption.foldlM free h

/-- A copy, if there is memory for it. -/
def clone (h : Heap β) (malloc : Bool) (b : β) : Option ℕ × Heap β :=
  if malloc then (some h.next, h.put b) else (none, h)

/-! ## What is gone -/

/-- Handed out, and freed. -/
def Gone (h : Heap β) (p : ℕ) : Prop := p < h.next ∧ h.block p = none

variable {h h' : Heap β} {p q : ℕ} {b : β} {ps qs : List ℕ}

theorem lt_next (hp : (h.block p).isSome) : p < h.next := by
  by_contra hge
  rw [h.fresh p (not_lt.mp hge)] at hp
  exact absurd hp Bool.false_ne_true

@[simp] theorem block_put_self : (h.put b).block h.next = some b := Function.update_self ..

theorem block_put_of_ne (hne : p ≠ h.next) : (h.put b).block p = h.block p :=
  Function.update_of_ne hne _ _

theorem block_drop_of_ne (hne : q ≠ p) : (h.drop p).block q = h.block q :=
  Function.update_of_ne hne _ _

theorem free_eq_some (hfree : h.free p = some h') : (h.block p).isSome ∧ h' = h.drop p := by
  rw [free] at hfree
  split_ifs at hfree with hp
  exact ⟨hp, (Option.some.inj hfree).symm⟩

theorem gone_drop (hp : (h.block p).isSome) : (h.drop p).Gone p :=
  ⟨lt_next (h := h) hp, Function.update_self ..⟩

theorem Gone.put (hg : h.Gone p) : (h.put b).Gone p :=
  ⟨hg.1.trans (Nat.lt_succ_self _), (block_put_of_ne hg.1.ne).trans hg.2⟩

theorem Gone.clone (hg : h.Gone p) (malloc : Bool) : (h.clone malloc b).2.Gone p := by
  unfold Heap.clone
  split_ifs
  · exact hg.put
  · exact hg

theorem Gone.drop (hg : h.Gone p) : (h.drop q).Gone p := by
  refine ⟨hg.1, ?_⟩
  by_cases heq : p = q
  · rw [heq]
    exact Function.update_self ..
  · rw [block_drop_of_ne heq]
    exact hg.2

theorem Gone.free (hg : h.Gone p) (hfree : h.free q = some h') : h'.Gone p := by
  obtain ⟨-, rfl⟩ := free_eq_some hfree
  exact hg.drop

theorem Gone.write (hg : h.Gone p) (hwrite : h.write q b = some h') : h'.Gone p := by
  unfold Heap.write at hwrite
  split_ifs at hwrite with hq
  obtain rfl := Option.some.inj hwrite
  refine ⟨hg.1, (Function.update_of_ne ?_ _ _).trans hg.2⟩
  rintro rfl
  rw [hg.2] at hq
  exact absurd hq Bool.false_ne_true

/-- **What is gone stays gone**, whatever is freed… -/
theorem Gone.foldlM_free (hg : h.Gone p) (hfree : qs.foldlM Heap.free h = some h') : h'.Gone p := by
  induction qs generalizing h with
  | nil =>
    obtain rfl := Option.some.inj hfree
    exact hg
  | cons q qs ih =>
    obtain ⟨h₁, hfirst, hrest⟩ := Option.bind_eq_some_iff.mp hfree
    exact ih (hg.free hfirst) hrest

theorem Gone.freeEach (hg : h.Gone p) {ps : List (Option ℕ)} (hfree : h.freeEach ps = some h') :
    h'.Gone p := hg.foldlM_free hfree

/-- …**and is not freed again**. -/
theorem Gone.freeEach_eq_none (hg : h.Gone p) {ps : List (Option ℕ)} (hp : some p ∈ ps) :
    h.freeEach ps = none := by
  have hmem : p ∈ ps.reduceOption := List.reduceOption_mem_iff.mpr hp
  obtain ⟨before, after, hsplit⟩ := List.append_of_mem hmem
  rw [Heap.freeEach, hsplit, List.foldlM_append]
  refine Option.eq_none_iff_forall_not_mem.mpr fun h' hh' => ?_
  obtain ⟨h₁, hbefore, hafter⟩ := Option.bind_eq_some_iff.mp hh'
  obtain ⟨h₂, hfirst, -⟩ := Option.bind_eq_some_iff.mp hafter
  have hlive := (free_eq_some hfirst).1
  rw [(hg.foldlM_free hbefore).2] at hlive
  exact absurd hlive Bool.false_ne_true

/-! ## What is owned -/

/-- The blocks there are, are those of `ps`. -/
structure Owned (h : Heap β) (ps : List ℕ) : Prop where
  nodup : ps.Nodup
  mem : ∀ p, p ∈ ps ↔ (h.block p).isSome

theorem owned_empty : (empty : Heap β).Owned [] :=
  ⟨List.nodup_nil, fun p => iff_of_false List.not_mem_nil (by simp [empty])⟩

theorem Owned.perm (ho : h.Owned ps) (hperm : ps.Perm qs) : h.Owned qs :=
  ⟨hperm.nodup_iff.mp ho.nodup, fun p => (hperm.mem_iff.symm).trans (ho.mem p)⟩

/-- Whoever counts them, there are as many. -/
theorem Owned.length_eq (ho : h.Owned ps) (ho' : h.Owned qs) : ps.length = qs.length :=
  ((List.perm_ext_iff_of_nodup ho.nodup ho'.nodup).mpr fun p =>
    (ho.mem p).trans (ho'.mem p).symm).length_eq

theorem Owned.put (ho : h.Owned ps) (b : β) : (h.put b).Owned (h.next :: ps) := by
  refine ⟨List.nodup_cons.mpr ⟨fun hmem => ?_, ho.nodup⟩, fun p => ?_⟩
  · exact absurd (lt_next ((ho.mem _).mp hmem)) (lt_irrefl _)
  · by_cases heq : p = h.next
    · subst heq
      simp
    · rw [List.mem_cons, or_iff_right heq, ho.mem, block_put_of_ne heq]

theorem Owned.clone (ho : h.Owned ps) (malloc : Bool) (b : β) :
    (h.clone malloc b).2.Owned ((h.clone malloc b).1.toList ++ ps) := by
  unfold Heap.clone
  split_ifs
  · exact ho.put b
  · exact ho

theorem Owned.free (ho : h.Owned (p :: ps)) : h.free p = some (h.drop p) ∧ (h.drop p).Owned ps := by
  refine ⟨if_pos ((ho.mem p).mp List.mem_cons_self), ho.nodup.of_cons, fun q => ?_⟩
  have hnot := (List.nodup_cons.mp ho.nodup).1
  by_cases heq : q = p
  · subst heq
    simp [drop, hnot]
  · rw [block_drop_of_ne heq, ← ho.mem, List.mem_cons, or_iff_right heq]

/-- The same blocks. -/
theorem Owned.write (ho : h.Owned ps) (hp : p ∈ ps) (b : β) :
    ∃ h', h.write p b = some h' ∧ h'.Owned ps ∧ h'.block p = some b
      ∧ ∀ q ≠ p, h'.block q = h.block q := by
  have hlive := (ho.mem p).mp hp
  refine ⟨_, dif_pos hlive, ⟨ho.nodup, fun q => ?_⟩, Function.update_self ..,
    fun q hne => Function.update_of_ne hne _ _⟩
  by_cases heq : q = p
  · subst heq
    simp [hp]
  · have hsame : Function.update h.block p (some b) q = h.block q := Function.update_of_ne heq _ _
    rw [ho.mem, ← hsame]

/-- **Who owns the blocks of some pointers can free them all**, and the other blocks stay as they
are. -/
theorem Owned.freeEach {qs : List (Option ℕ)} (ho : h.Owned (qs.reduceOption ++ ps)) :
    ∃ h', h.freeEach qs = some h' ∧ h'.Owned ps ∧ ∀ p ∈ ps, h'.block p = h.block p := by
  unfold Heap.freeEach
  generalize qs.reduceOption = rs at ho
  induction rs generalizing h with
  | nil => exact ⟨h, rfl, ho, fun _ _ => rfl⟩
  | cons r rs ih =>
    obtain ⟨hfree, ho'⟩ := ho.free
    obtain ⟨h', hrest, howned, hkeep⟩ := ih ho'
    refine ⟨h', ?_, howned, fun p hp => (hkeep p hp).trans (block_drop_of_ne ?_)⟩
    · rw [List.foldlM_cons, hfree]
      exact hrest
    · rintro rfl
      exact (List.nodup_cons.mp ho.nodup).1 (List.mem_append_right _ hp)

theorem freeEach_cons (h : Heap β) (p : Option ℕ) (ps : List (Option ℕ)) :
    h.freeEach (p :: ps) = (h.freeEach [p]).bind fun h => h.freeEach ps := by
  cases p with
  | none => rfl
  | some p =>
    simp only [Heap.freeEach, List.reduceOption_cons_of_some, List.reduceOption_nil,
      List.foldlM_cons, List.foldlM_nil, bind_pure]
    rfl

/-- Three pointers, one after the other. -/
theorem freeEach_three {h₁ h₂ h₃ : Heap β} {p q r : Option ℕ} (hp : h.freeEach [p] = some h₁)
    (hq : h₁.freeEach [q] = some h₂) (hr : h₂.freeEach [r] = some h₃) :
    h.freeEach [p, q, r] = some h₃ := by
  rw [freeEach_cons, hp, Option.bind_some, freeEach_cons, hq, Option.bind_some, hr]

/-! ## Fields -/

section Fields

variable {ι : Type*} {fields : List ι} {ptr : ι → Option ℕ} {val : ι → Option β}
  {rest : List ℕ} {f : ι}

/-- The blocks that some fields point to. -/
def pointers (fields : List ι) (ptr : ι → Option ℕ) : List ℕ := fields.filterMap ptr

theorem mem_pointers : p ∈ pointers fields ptr ↔ ∃ f ∈ fields, ptr f = some p :=
  List.mem_filterMap

/-- Fields whose blocks stay as they are read the same. -/
theorem reads_of_keep (hreads : ∀ f, (ptr f).map h.block = (val f).map some)
    (hall : ∀ f, f ∈ fields) (hkeep : ∀ p ∈ pointers fields ptr, h'.block p = h.block p) (f : ι) :
    (ptr f).map h'.block = (val f).map some := by
  rw [← hreads f]
  cases hp : ptr f with
  | none => rfl
  | some p => exact congrArg some (hkeep p (mem_pointers.mpr ⟨f, hall f, hp⟩))

theorem isSome_of_reads (hreads : ∀ f, (ptr f).map h.block = (val f).map some) (f : ι) :
    (ptr f).isSome = (val f).isSome := by
  have heq := congrArg Option.isSome (hreads f)
  rwa [Option.isSome_map, Option.isSome_map] at heq

/-- The fields have blocks of their own with these contents, NULL where there are none; the other
blocks are those of `rest`. -/
structure Holds (h : Heap β) (fields : List ι) (ptr : ι → Option ℕ) (val : ι → Option β)
    (rest : List ℕ) : Prop where
  owned : h.Owned (pointers fields ptr ++ rest)
  reads : ∀ f, (ptr f).map h.block = (val f).map some

theorem Holds.block (hh : h.Holds fields ptr val rest) (hp : ptr f = some p) :
    h.block p = val f := by
  have hreads := hh.reads f
  rw [hp] at hreads
  obtain ⟨b, hb, heq⟩ := Option.map_eq_some_iff.mp hreads.symm
  rw [← heq, hb]

/-- Only the fields' own blocks matter. -/
theorem Holds.frame (hh : h.Holds fields ptr val rest) (hall : ∀ f, f ∈ fields)
    (hkeep : ∀ p ∈ pointers fields ptr, h'.block p = h.block p)
    (howned : h'.Owned (pointers fields ptr ++ ps)) : h'.Holds fields ptr val ps :=
  ⟨howned, reads_of_keep hh.reads hall hkeep⟩

variable [DecidableEq ι]

/-- A field's block is its own. -/
theorem perm_pointers_update (ptr : ι → Option ℕ) (hnodup : fields.Nodup) (hf : f ∈ fields)
    (r : Option ℕ) :
    (pointers fields (Function.update ptr f r)).Perm
      (r.toList ++ pointers fields (Function.update ptr f none)) := by
  induction fields with
  | nil => exact absurd hf List.not_mem_nil
  | cons g fields ih =>
    obtain ⟨hg, hnodup⟩ := List.nodup_cons.mp hnodup
    unfold pointers
    by_cases heq : g = f
    · have hsame : fields.filterMap (Function.update ptr f r)
          = fields.filterMap (Function.update ptr f none) := by
        refine List.filterMap_congr fun x hx => ?_
        have hne : x ≠ f := fun h => hg (heq ▸ h ▸ hx)
        rw [Function.update_of_ne hne, Function.update_of_ne hne]
      rw [List.filterMap_cons, List.filterMap_cons, heq, Function.update_self, Function.update_self,
        hsame]
      cases r <;> exact List.Perm.refl _
    · have hrest := ih hnodup ((List.mem_cons.mp hf).resolve_left (Ne.symm heq))
      rw [List.filterMap_cons, List.filterMap_cons, Function.update_of_ne heq,
        Function.update_of_ne heq]
      cases ptr g with
      | none => exact hrest
      | some p => exact (hrest.cons p).trans List.perm_middle.symm

/-- **A field is freed**, and set to NULL. -/
theorem Holds.clear (hh : h.Holds fields ptr val rest) (hnodup : fields.Nodup)
    (hall : ∀ f, f ∈ fields) (f : ι) :
    ∃ h', h.freeEach [ptr f] = some h'
      ∧ h'.Holds fields (Function.update ptr f none) (Function.update val f none) rest
      ∧ ∀ p ∈ rest, h'.block p = h.block p := by
  have hperm := perm_pointers_update ptr hnodup (hall f) (ptr f)
  rw [Function.update_eq_self] at hperm
  have howned : h.Owned ([ptr f].reduceOption
      ++ (pointers fields (Function.update ptr f none) ++ rest)) := by
    refine hh.owned.perm ((hperm.append_right rest).trans ?_)
    rw [List.append_assoc]
    cases ptr f <;> exact List.Perm.refl _
  obtain ⟨h', hfree, howned', hkeep⟩ := howned.freeEach
  refine ⟨h', hfree, ⟨howned', fun g => ?_⟩, fun p hp => hkeep p (List.mem_append_right _ hp)⟩
  by_cases heq : g = f
  · rw [heq, Function.update_self, Function.update_self]
    rfl
  · rw [Function.update_of_ne heq, Function.update_of_ne heq, ← hh.reads g]
    cases hp : ptr g with
    | none => rfl
    | some p =>
      refine congrArg some (hkeep p (List.mem_append_left _ (mem_pointers.mpr ⟨g, hall g, ?_⟩)))
      rw [Function.update_of_ne heq, hp]

/-- **A field that is NULL gets a copy**, if there is memory for it. -/
theorem Holds.clone (hh : h.Holds fields ptr val rest) (hnodup : fields.Nodup)
    (hall : ∀ f, f ∈ fields) (hf : ptr f = none) (granted : Bool) (b : β) :
    (h.clone granted b).2.Holds fields (Function.update ptr f (h.clone granted b).1)
        (Function.update val f (if granted then some b else none)) rest
      ∧ ∀ p ∈ rest, (h.clone granted b).2.block p = h.block p := by
  have hlive : ∀ p ∈ pointers fields ptr ++ rest, (h.clone granted b).2.block p = h.block p := by
    intro p hp
    unfold Heap.clone
    split_ifs
    · exact block_put_of_ne (lt_next ((hh.owned.mem p).mp hp)).ne
    · rfl
  have hnull : Function.update ptr f none = ptr := by
    rw [← hf, Function.update_eq_self]
  have hperm := perm_pointers_update ptr hnodup (hall f) (h.clone granted b).1
  rw [hnull] at hperm
  refine ⟨⟨?_, fun g => ?_⟩, fun p hp => hlive p (List.mem_append_right _ hp)⟩
  · refine (hh.owned.clone granted b).perm ?_
    rw [← List.append_assoc]
    exact (hperm.append_right rest).symm
  · by_cases heq : g = f
    · rw [heq, Function.update_self, Function.update_self]
      unfold Heap.clone
      split_ifs
      · exact congrArg some block_put_self
      · rfl
    · rw [Function.update_of_ne heq, Function.update_of_ne heq, ← hh.reads g]
      cases hp : ptr g with
      | none => rfl
      | some p =>
        exact congrArg some (hlive p (List.mem_append_left _ (mem_pointers.mpr ⟨g, hall g, hp⟩)))

end Fields

end Heap

end Tr50.Machinery
