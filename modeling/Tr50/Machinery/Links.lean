import Mathlib.Data.List.Nodup
import Mathlib.Logic.Function.Basic
import Mathlib.Tactic

/-!
# Machinery/Links — doubly linked lists in memory

Nodes lie in a memory of partial addresses, and a list is its head, its tail and what the nodes say
of one another.  `Represents s l` reads the pointers as the list `l` of addresses and values; adding
behind the tail (`pushBack_spec`), taking a node out wherever it is (`unlink_spec`) and looking for
one (`find_spec`) are the operations of `l`, and touch nothing outside it.

A part of a list is a segment between the node before it and the node behind it; a list is cut where
one likes (`segment_append`).
-/

namespace Tr50.Machinery

variable {α β : Type*}

structure Node (α β : Type*) where
  value : β
  next : Option α
  previous : Option α

structure Links (α β : Type*) where
  node : α → Option (Node α β)
  head : Option α
  tail : Option α

namespace Links

/-! ## Operations -/

section Operations

variable [DecidableEq α]

/-- Writes a node; `none` where there is none. -/
def modify (s : Links α β) (a : α) (f : Node α β → Node α β) : Option (Links α β) :=
  (s.node a).map fun n => { s with node := Function.update s.node a (some (f n)) }

/-- What comes behind `previous`, or first. -/
def setNext (s : Links α β) (previous next : Option α) : Option (Links α β) :=
  match previous with
  | some a => s.modify a fun n => { n with next }
  | none => some { s with head := next }

/-- What comes before `next`, or last. -/
def setPrevious (s : Links α β) (next previous : Option α) : Option (Links α β) :=
  match next with
  | some a => s.modify a fun n => { n with previous }
  | none => some { s with tail := previous }

/-- Adds a node behind the tail. -/
def pushBack (s : Links α β) (a : α) : Option (Links α β) :=
  match s.tail with
  | none => some { s with head := some a, tail := some a }
  | some tail => do
    let s ← s.modify tail fun n => { n with next := some a }
    let s ← s.modify a fun n => { n with previous := some tail }
    return { s with tail := some a }

/-- Takes a node out; its own pointers stay. -/
def unlink (s : Links α β) (a : α) : Option (Links α β) := do
  let n ← s.node a
  let s ← s.setNext n.previous n.next
  s.setPrevious n.next n.previous

/-- The nodes from `ptr` on, as far as `fuel` turns and the memory go. -/
def walk (s : Links α β) : (fuel : ℕ) → (ptr : Option α) → List (α × β)
  | 0, _ => []
  | _ + 1, none => []
  | fuel + 1, some a => (s.node a).elim [] fun n => (a, n.value) :: s.walk fuel n.next

/-- The first node from `ptr` on with `p`, in at most `fuel` turns. -/
def find (s : Links α β) (p : β → Bool) : (fuel : ℕ) → (ptr : Option α) → Option (Option α)
  | 0, _ => none
  | _ + 1, none => some none
  | fuel + 1, some a => (s.node a).bind fun n =>
      if p n.value then some (some a) else s.find p fuel n.next

end Operations

/-! ## Segments -/

/-- The address of the first of `l`, or of what is behind. -/
def first (l : List (α × β)) (next : Option α) : Option α := (l.head?.map Prod.fst).or next

/-- The address of the last of `l`, or of what is before. -/
def last (previous : Option α) (l : List (α × β)) : Option α :=
  (l.getLast?.map Prod.fst).or previous

@[simp] theorem first_nil (next : Option α) : first ([] : List (α × β)) next = next := rfl

@[simp] theorem first_cons (x : α × β) (l : List (α × β)) (next : Option α) :
    first (x :: l) next = some x.1 := rfl

@[simp] theorem last_nil (previous : Option α) : last previous ([] : List (α × β)) = previous := rfl

@[simp] theorem last_concat (previous : Option α) (l : List (α × β)) (x : α × β) :
    last previous (l ++ [x]) = some x.1 := by simp [last]

theorem first_append (l l' : List (α × β)) (next : Option α) :
    first (l ++ l') next = first l (first l' next) := by
  cases l <;> rfl

theorem last_append (previous : Option α) (l l' : List (α × β)) :
    last previous (l ++ l') = last (last previous l) l' := by
  cases l' using List.reverseRecOn with
  | nil => simp
  | append_singleton l' x => rw [← List.append_assoc, last_concat, last_concat]

theorem last_cons (previous : Option α) (x : α × β) (l : List (α × β)) :
    last previous (x :: l) = last (some x.1) l := last_append previous [x] l

/-- The nodes of `l` point to one another, and out to `previous` and `next`. -/
def Segment (node : α → Option (Node α β)) (previous : Option α) :
    List (α × β) → (next : Option α) → Prop
  | [], _ => True
  | (a, v) :: l, next => node a = some ⟨v, first l next, previous⟩ ∧ Segment node (some a) l next

variable {node node' : α → Option (Node α β)} {previous next : Option α} {l l' : List (α × β)}

/-- **A segment is its parts.** -/
theorem segment_append : Segment node previous (l ++ l') next ↔
    Segment node previous l (first l' next) ∧ Segment node (last previous l) l' next := by
  induction l generalizing previous with
  | nil => simp [Segment]
  | cons x l ih => simp only [List.cons_append, Segment, ih, first_append, last_cons, and_assoc]

/-- Only its own nodes matter. -/
theorem Segment.congr (h : Segment node previous l next)
    (hnode : ∀ x ∈ l, node' x.1 = node x.1) : Segment node' previous l next := by
  induction l generalizing previous with
  | nil => trivial
  | cons x l ih =>
    exact ⟨(hnode x List.mem_cons_self).trans h.1,
      ih h.2 fun y hy => hnode y (List.mem_cons_of_mem _ hy)⟩

/-- The pointers are those of `l`, from its first to its last. -/
structure Represents (s : Links α β) (l : List (α × β)) : Prop where
  nodup : (l.map Prod.fst).Nodup
  segment : Segment s.node none l none
  head : s.head = first l none
  tail : s.tail = last none l

/-- What is written elsewhere does not matter. -/
theorem Represents.congr {s t : Links α β} (h : Represents s l)
    (hnode : ∀ a ∈ l.map Prod.fst, t.node a = s.node a) (hhead : t.head = s.head)
    (htail : t.tail = s.tail) : Represents t l :=
  ⟨h.nodup, h.segment.congr fun x hx => hnode x.1 (List.mem_map_of_mem hx), hhead.trans h.head,
    htail.trans h.tail⟩

/-- A node of the list, with its neighbours. -/
theorem Represents.node_eq {s : Links α β} {a : α} {v : β} (h : Represents s (l ++ (a, v) :: l')) :
    s.node a = some ⟨v, first l' none, last none l⟩ := (segment_append.mp h.segment).2.1

/-- The first node of a list says that there is none before it. -/
theorem Represents.previous_head {s : Links α β} {a : α} {n : Node α β} (h : Represents s l)
    (hhead : s.head = some a) (hnode : s.node a = some n) : n.previous = none := by
  cases l with
  | nil => exact nomatch hhead.symm.trans h.head
  | cons x l =>
    obtain rfl : a = x.1 := Option.some.inj (hhead.symm.trans h.head)
    obtain rfl := Option.some.inj (hnode.symm.trans h.segment.1)
    rfl

/-- More turns find nothing else. -/
theorem find_mono {s : Links α β} {p : β → Bool} {fuel fuel' : ℕ} {ptr : Option α} {r : Option α}
    (hle : fuel ≤ fuel') (h : s.find p fuel ptr = some r) : s.find p fuel' ptr = some r := by
  induction fuel generalizing fuel' ptr with
  | zero => cases h
  | succ fuel ih =>
    obtain ⟨fuel', rfl⟩ := Nat.exists_eq_succ_of_ne_zero (Nat.ne_of_gt (Nat.zero_lt_of_lt hle))
    cases ptr with
    | none => exact h
    | some a =>
      obtain ⟨n, hnode, hnext⟩ := Option.bind_eq_some_iff.mp h
      refine Option.bind_eq_some_iff.mpr ⟨n, hnode, ?_⟩
      split_ifs at hnext ⊢
      · exact hnext
      · exact ih (Nat.le_of_succ_le_succ hle) hnext

/-- **The first node with `p` is found**, and if there is none that is. -/
theorem find_spec {s : Links α β} (p : β → Bool) (h : Segment s.node previous l none) {fuel : ℕ}
    (hfuel : l.length < fuel) :
    s.find p fuel (first l none) = some ((l.find? fun x => p x.2).map Prod.fst) := by
  induction l generalizing previous fuel with
  | nil =>
    obtain ⟨fuel, rfl⟩ := Nat.exists_eq_succ_of_ne_zero (Nat.ne_of_gt hfuel)
    rfl
  | cons x l ih =>
    obtain ⟨fuel, rfl⟩ := Nat.exists_eq_succ_of_ne_zero (Nat.ne_of_gt (Nat.zero_lt_of_lt hfuel))
    obtain ⟨a, v⟩ := x
    rw [first_cons, find, h.1, Option.bind_some, List.find?_cons]
    cases hp : p v with
    | true => rfl
    | false =>
      exact ih h.2 (Nat.lt_of_succ_lt_succ hfuel)

/-- **Walking along a segment gives what it is of**… -/
theorem walk_spec {s : Links α β} (h : Segment s.node previous l none) {fuel : ℕ}
    (hfuel : l.length ≤ fuel) : s.walk fuel (first l none) = l := by
  induction l generalizing previous fuel with
  | nil => cases fuel <;> rfl
  | cons x l ih =>
    obtain ⟨fuel, rfl⟩ := Nat.exists_eq_succ_of_ne_zero (Nat.ne_of_gt (Nat.zero_lt_of_lt hfuel))
    rw [first_cons, walk, h.1, Option.elim_some, ih h.2 (Nat.le_of_succ_le_succ hfuel)]

/-- …so the pointers are those of one list only. -/
theorem Represents.unique {s : Links α β} (h : Represents s l) (h' : Represents s l') : l = l' := by
  have hwalk := walk_spec h.segment (le_max_left l.length l'.length)
  have hwalk' := walk_spec h'.segment (le_max_right l.length l'.length)
  rw [← h.head] at hwalk
  rw [← h'.head] at hwalk'
  exact hwalk.symm.trans hwalk'

variable [DecidableEq α] {s : Links α β}

/-! ## Writing -/

theorem modify_eq {a : α} {n : Node α β} (hnode : s.node a = some n) (f : Node α β → Node α β) :
    s.modify a f = some { s with node := Function.update s.node a (some (f n)) } := by
  rw [modify, hnode, Option.map_some]

/-- Only its own node is written. -/
theorem node_of_modify {t : Links α β} {a b : α} {f : Node α β → Node α β}
    (h : s.modify a f = some t) (hb : b ≠ a) : t.node b = s.node b := by
  obtain ⟨n, -, rfl⟩ := Option.map_eq_some_iff.mp h
  exact Function.update_of_ne hb _ _

/-- Behind a segment one may go on elsewhere. -/
theorem segment_concat_update {a : α} {v : β} (next' : Option α)
    (hnodup : ((l ++ [(a, v)]).map Prod.fst).Nodup)
    (h : Segment s.node previous (l ++ [(a, v)]) next) :
    ∃ n, s.node a = some n
      ∧ Segment (Function.update s.node a (some { n with next := next' })) previous
        (l ++ [(a, v)]) next' := by
  obtain ⟨hl, hnode, -⟩ := segment_append.mp h
  refine ⟨_, hnode, segment_append.mpr ⟨hl.congr fun x hx => ?_, Function.update_self .., trivial⟩⟩
  rw [List.map_append, List.nodup_append] at hnodup
  exact Function.update_of_ne (hnodup.2.2 x.1 (List.mem_map_of_mem hx) a (by simp)) _ _

/-- **What comes behind a segment is set** at its last node, or at the head. -/
theorem setNext_spec (next' : Option α) (hnodup : (l.map Prod.fst).Nodup)
    (h : Segment s.node none l next) (hhead : s.head = first l next) :
    ∃ t, s.setNext (last none l) next' = some t ∧ Segment t.node none l next'
      ∧ t.head = first l next' ∧ t.tail = s.tail ∧ ∀ a ∉ l.map Prod.fst, t.node a = s.node a := by
  cases l using List.reverseRecOn with
  | nil => exact ⟨_, rfl, trivial, rfl, rfl, fun _ _ => rfl⟩
  | append_singleton l x =>
    obtain ⟨a, v⟩ := x
    obtain ⟨n, hnode, hsegment⟩ := segment_concat_update next' hnodup h
    refine ⟨_, (congrArg (s.setNext · next') (last_concat ..)).trans (modify_eq hnode _), hsegment,
      ?_, rfl, fun b hb => Function.update_of_ne (fun heq => hb (by simp [heq])) _ _⟩
    rw [first_append] at hhead ⊢
    exact hhead

/-- **…and what comes before one**, at its first node, or at the tail. -/
theorem setPrevious_spec (previous' : Option α) (hnodup : (l.map Prod.fst).Nodup)
    (h : Segment s.node previous l none) (htail : s.tail = last previous l) :
    ∃ t, s.setPrevious (first l none) previous' = some t ∧ Segment t.node previous' l none
      ∧ t.tail = last previous' l ∧ t.head = s.head
      ∧ ∀ a ∉ l.map Prod.fst, t.node a = s.node a := by
  cases l with
  | nil => exact ⟨_, rfl, trivial, rfl, rfl, fun _ _ => rfl⟩
  | cons x l =>
    obtain ⟨a, v⟩ := x
    obtain ⟨hnode, hl⟩ := h
    rw [List.map_cons, List.nodup_cons] at hnodup
    refine ⟨_, modify_eq hnode _, ⟨Function.update_self .., hl.congr fun x hx => ?_⟩, ?_, rfl,
      fun b hb => Function.update_of_ne (fun heq => hb (by simp [heq])) _ _⟩
    · exact Function.update_of_ne (ne_of_mem_of_not_mem (List.mem_map_of_mem hx) hnodup.1) _ _
    · rw [last_cons] at htail ⊢
      exact htail

/-! ## The operations -/

/-- A value is changed where it is. -/
theorem setValue_spec {a : α} {v : β} (v' : β) (h : Represents s (l ++ (a, v) :: l')) :
    ∃ t, s.modify a (fun n => { n with value := v' }) = some t
      ∧ Represents t (l ++ (a, v') :: l') := by
  have hnode := h.node_eq
  obtain ⟨hnodup, hsegment, hhead, htail⟩ := h
  obtain ⟨hl, -, hl'⟩ := segment_append.mp hsegment
  have haddresses : (l ++ (a, v') :: l').map Prod.fst = (l ++ (a, v) :: l').map Prod.fst := by simp
  have hother : ∀ b ∈ l.map Prod.fst ++ l'.map Prod.fst, b ≠ a := fun b hb heq => by
    rw [List.map_append, List.map_cons] at hnodup
    exact (List.nodup_middle.mp hnodup).notMem (heq ▸ hb)
  refine ⟨_, modify_eq hnode _, haddresses ▸ hnodup, segment_append.mpr ⟨?_, ?_, ?_⟩, ?_, ?_⟩
  · exact hl.congr fun x hx => Function.update_of_ne
      (hother x.1 (List.mem_append_left _ (List.mem_map_of_mem hx))) _ _
  · exact Function.update_self ..
  · exact hl'.congr fun x hx => Function.update_of_ne
      (hother x.1 (List.mem_append_right _ (List.mem_map_of_mem hx))) _ _
  · rw [first_append] at hhead ⊢
    exact hhead
  · rw [last_append, last_cons] at htail ⊢
    exact htail

/-- **A node of no list is added behind the last**; what it says of a node before it matters only
where there is none. -/
theorem pushBack_spec {a : α} {v : β} {previous : Option α} (h : Represents s l)
    (hnode : s.node a = some ⟨v, none, previous⟩) (hfirst : l = [] → previous = none)
    (ha : a ∉ l.map Prod.fst) : ∃ t, s.pushBack a = some t ∧ Represents t (l ++ [(a, v)])
      ∧ ∀ b ∉ a :: l.map Prod.fst, t.node b = s.node b := by
  obtain ⟨hnodup, hsegment, hhead, htail⟩ := h
  have hnodup' : ((l ++ [(a, v)]).map Prod.fst).Nodup := by
    simpa using hnodup.concat ha
  unfold pushBack
  cases l using List.reverseRecOn with
  | nil =>
    rw [htail, last_nil]
    rw [hfirst rfl] at hnode
    exact ⟨_, rfl, ⟨hnodup', ⟨hnode, trivial⟩, rfl, rfl⟩, fun _ _ => rfl⟩
  | append_singleton l x =>
    obtain ⟨z, w⟩ := x
    obtain ⟨n, hn, hlast⟩ := segment_concat_update (some a) hnodup hsegment
    have hne : a ≠ z := fun heq => ha (by simp [heq])
    have hnode' : Function.update s.node z (some { n with next := some a }) a
        = some ⟨v, none, previous⟩ := (Function.update_of_ne hne _ _).trans hnode
    rw [htail, last_concat]
    simp only [modify_eq hn, Option.bind_eq_bind, Option.bind_some]
    rw [modify_eq hnode', Option.bind_some]
    refine ⟨_, rfl, ⟨hnodup', ?_, ?_, (last_concat none (l ++ [(z, w)]) (a, v)).symm⟩,
      fun b hb => ?_⟩
    · refine segment_append.mpr ⟨hlast.congr fun y hy => ?_, ?_, trivial⟩
      · exact Function.update_of_ne (ne_of_mem_of_not_mem (List.mem_map_of_mem hy) ha) _ _
      · rw [last_concat]
        exact Function.update_self ..
    · rw [first_append] at hhead
      rw [first_append, first_append]
      exact hhead
    · rw [List.mem_cons, not_or] at hb
      refine (Function.update_of_ne hb.1 _ _).trans (Function.update_of_ne (fun heq => hb.2 ?_) _ _)
      simp [heq]

/-- **A node is taken out**, first, last or in between; the others are linked up. -/
theorem unlink_spec {a : α} {v : β} (h : Represents s (l ++ (a, v) :: l')) :
    ∃ t, s.unlink a = some t ∧ Represents t (l ++ l')
      ∧ ∀ b ∉ (l ++ l').map Prod.fst, t.node b = s.node b := by
  have hnode := h.node_eq
  obtain ⟨hnodup, hsegment, hhead, htail⟩ := h
  obtain ⟨hl, -, hl'⟩ := segment_append.mp hsegment
  rw [List.map_append, List.map_cons, List.nodup_append, List.nodup_cons] at hnodup
  obtain ⟨hnodupl, ⟨-, hnodupl'⟩, hdisjoint⟩ := hnodup
  have hother : ∀ x ∈ l', x.1 ∉ l.map Prod.fst := fun x hx hmem =>
    hdisjoint x.1 hmem x.1 (List.mem_cons_of_mem _ (List.mem_map_of_mem hx)) rfl
  rw [first_append] at hhead
  rw [last_append, last_cons] at htail
  -- the node before it points behind it…
  obtain ⟨s₁, hs₁, hl₁, hhead₁, htail₁, hframe₁⟩ := setNext_spec (first l' none) hnodupl hl hhead
  have hl'₁ : Segment s₁.node (some a) l' none := hl'.congr fun x hx => hframe₁ x.1 (hother x hx)
  -- …and the node behind it before it
  obtain ⟨s₂, hs₂, hl'₂, htail₂, hhead₂, hframe₂⟩ :=
    setPrevious_spec (last none l) hnodupl' hl'₁ (htail₁.trans htail)
  have hl₂ : Segment s₂.node none l (first l' none) := hl₁.congr fun x hx =>
    hframe₂ x.1 fun hmem => by
      obtain ⟨y, hy, heq⟩ := List.mem_map.mp hmem
      exact hother y hy (heq ▸ List.mem_map_of_mem hx)
  refine ⟨s₂, ?_, ⟨?_, segment_append.mpr ⟨hl₂, hl'₂⟩, ?_, ?_⟩, fun b hb => ?_⟩
  · rw [unlink, hnode]
    change (s.setNext (last none l) (first l' none)).bind _ = _
    rw [hs₁]
    exact hs₂
  · rw [List.map_append, List.nodup_append]
    exact ⟨hnodupl, hnodupl', fun x hx y hy => hdisjoint x hx y (List.mem_cons_of_mem _ hy)⟩
  · rw [first_append, hhead₂, hhead₁]
  · rw [last_append, htail₂]
  · rw [List.map_append, List.mem_append, not_or] at hb
    exact (hframe₂ b hb.2).trans (hframe₁ b hb.1)

end Links

end Tr50.Machinery
