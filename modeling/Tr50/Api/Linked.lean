import Tr50.Machinery.Links
import Tr50.Machinery.Runs
import Tr50.Api.Pending

/-!
# Api/Linked — the list of requests as it lies in memory

`tr50.pending.c` by its pointers: `list_head`, `list_tail`, and the `pending_next` and
`pending_previous` of every message, in the list or no longer in it.  Each operation does to the
pointers what `Api/Pending` does to the list (`add_refines`, `findAndRemove_refines`,
`reschedule_refines`), so the pointers of every state describe the messages added and not yet
removed, in order of addition (`pendingLinked`).

A callback of the sweep may add and remove: the lock is its thread's own.
-/

namespace Tr50

open Machinery

variable {κ : Type}

/-! ## The pointers -/

/-- `_TR50_PENDING`, with the messages in memory. -/
structure LinkedPending (κ : Type) where
  links : Links ℕ (Tr50Message κ)
  count : ℤ
  expiredCount : ℤ

namespace LinkedPending

/-- `tr50_pending_create` -/
def create : LinkedPending κ := ⟨⟨fun _ => none, none, none⟩, 0, 0⟩

/-- `tr50_message_create`, and what is filled in before the message is added. -/
def messageCreate (pending : LinkedPending κ) (message : Tr50Message κ) : LinkedPending κ :=
  { pending with
    links.node := Function.update pending.links.node message.handle (some ⟨message, none, none⟩) }

/-- `tr50_message_delete` -/
def messageDelete (pending : LinkedPending κ) (message : ℕ) : LinkedPending κ :=
  { pending with links.node := Function.update pending.links.node message none }

/-- `tr50_pending_add` at time `now`. -/
def add (pending : LinkedPending κ) (message : ℕ) (now : ℤ) : Option (LinkedPending κ) := do
  let links ← pending.links.modify message fun n =>
    { n with value := { n.value with
        pendingSentTimestamp := now
        pendingExpirationTimestamp := now + n.value.callbackTimeout } }
  let links ← links.pushBack message
  return { pending with links, count := pending.count + 1 }

/-- `_tr50_pending_linklist_remove` -/
def linklistRemove (pending : LinkedPending κ) (message : ℕ) : Option (LinkedPending κ) :=
  (pending.links.unlink message).map fun links =>
    { pending with links, count := pending.count - 1 }

/-- `tr50_pending_find_and_remove`, as far as `fuel` turns of its loop go. -/
def findAndRemove (fuel : ℕ) (pending : LinkedPending κ) (hash : ℤ) :
    Option (Option ℕ × LinkedPending κ) :=
  (pending.links.find (fun m => m.seqId = hash) fuel pending.links.head).bind fun ptr =>
    match ptr with
    | some ptr => (pending.linklistRemove ptr).map fun pending => (some ptr, pending)
    | none => some (none, pending)

end LinkedPending

/-! ## What the pointers stand for -/

/-- The messages of a list, by their addresses. -/
def byHandle (list : List (Tr50Message κ)) : List (ℕ × Tr50Message κ) :=
  list.map fun m => (m.handle, m)

@[simp] theorem byHandle_append (list list' : List (Tr50Message κ)) :
    byHandle (list ++ list') = byHandle list ++ byHandle list' := List.map_append

@[simp] theorem byHandle_cons (m : Tr50Message κ) (list : List (Tr50Message κ)) :
    byHandle (m :: list) = (m.handle, m) :: byHandle list := rfl

@[simp] theorem map_fst_byHandle (list : List (Tr50Message κ)) :
    (byHandle list).map Prod.fst = list.map (·.handle) := by
  simp [byHandle, Function.comp_def]

theorem first_byHandle (list : List (Tr50Message κ)) :
    Links.first (byHandle list) none = tr50PendingHead list := by
  cases list <;> rfl

/-- The pointers describe the list, and the counters count it. -/
structure LinkedPending.Refines (p : LinkedPending κ) (q : Tr50Pending κ) : Prop where
  links : p.links.Represents (byHandle q.list)
  count : p.count = q.count
  length : q.count = q.list.length
  expiredCount : p.expiredCount = q.expiredCount

namespace LinkedPending

variable {p : LinkedPending κ} {q : Tr50Pending κ} {m : Tr50Message κ}

theorem create_refines : (create : LinkedPending κ).Refines tr50PendingCreate :=
  ⟨⟨List.nodup_nil, trivial, rfl, rfl⟩, rfl, rfl, rfl⟩

theorem Refines.nodup (h : p.Refines q) : q.handles.Nodup := by
  have hnodup := h.links.nodup
  rwa [map_fst_byHandle] at hnodup

/-- Handles that occur once cut the list in one place. -/
theorem eraseP_split {list list' : List (Tr50Message κ)}
    (hnodup : ((list ++ m :: list').map (·.handle)).Nodup) :
    (list ++ m :: list').eraseP (fun m' => m'.handle = m.handle) = list ++ list' := by
  rw [List.map_append, List.nodup_append] at hnodup
  rw [List.eraseP_append_right _ fun m' hm' => ?_, List.eraseP_cons_of_pos (by simp)]
  simpa using hnodup.2.2 m'.handle (List.mem_map_of_mem hm') m.handle (by simp)

theorem next_split {list list' : List (Tr50Message κ)}
    (hnodup : ((list ++ m :: list').map (·.handle)).Nodup) :
    tr50PendingNext (list ++ m :: list') m.handle = tr50PendingHead list' := by
  rw [List.map_append, List.nodup_append] at hnodup
  rw [tr50PendingNext, List.dropWhile_append_of_pos fun m' hm' => ?_,
    List.dropWhile_cons_of_neg (by simp), List.tail_cons]
  simpa using hnodup.2.2 m'.handle (List.mem_map_of_mem hm') m.handle (by simp)

theorem next_last {list : List (Tr50Message κ)} (hnodup : (list.map (·.handle)).Nodup)
    (hlast : (list.map (·.handle)).getLast? = some m.handle) :
    tr50PendingNext list m.handle = none := by
  obtain ⟨handles, hsplit⟩ := List.getLast?_eq_some_iff.mp hlast
  obtain ⟨list, last, rfl, rfl, hm⟩ := List.map_eq_append_iff.mp hsplit
  obtain ⟨m', rfl, hsame⟩ := List.map_eq_singleton_iff.mp hm
  rw [← hsame, next_split hnodup]
  rfl

/-- A message that is not in the list may be written to. -/
theorem messageCreate_refines (h : p.Refines q) (hfresh : m.handle ∉ q.handles) :
    (p.messageCreate m).Refines q := by
  refine ⟨h.links.congr (fun a ha => ?_) rfl rfl, h.count, h.length, h.expiredCount⟩
  rw [map_fst_byHandle] at ha
  exact Function.update_of_ne (ne_of_mem_of_not_mem ha hfresh) _ _

/-- **Adding adds behind the others**, with nothing behind it; what it says of a message before it
matters only in an empty list. -/
theorem addNode_refines (h : p.Refines q) {previous : Option ℕ}
    (hnode : p.links.node m.handle = some ⟨m, none, previous⟩) (hfresh : m.handle ∉ q.handles)
    (hfirst : q.list = [] → previous = none) (now : ℤ) :
    ∃ p', p.add m.handle now = some p' ∧ p'.Refines (tr50PendingAdd q m now)
      ∧ ∀ x ∉ m.handle :: q.handles, p'.links.node x = p.links.node x := by
  have haddresses : m.handle ∉ (byHandle q.list).map Prod.fst := by rwa [map_fst_byHandle]
  obtain ⟨links, hstamp, hrest, hframe, hnode'⟩ : ∃ links, p.links.modify m.handle
        (fun n => { n with value := { n.value with
          pendingSentTimestamp := now
          pendingExpirationTimestamp := now + n.value.callbackTimeout } }) = some links
      ∧ links.Represents (byHandle q.list) ∧ (∀ x ≠ m.handle, links.node x = p.links.node x)
      ∧ links.node m.handle = some ⟨{ m with
          pendingSentTimestamp := now
          pendingExpirationTimestamp := now + m.callbackTimeout }, none, previous⟩ :=
    ⟨_, Links.modify_eq hnode _,
      h.links.congr (fun a ha => Function.update_of_ne (ne_of_mem_of_not_mem ha haddresses) _ _)
        rfl rfl,
      fun x hx => Function.update_of_ne hx _ _, Function.update_self ..⟩
  obtain ⟨links', hpush, hlinks', hframe'⟩ := Links.pushBack_spec hrest hnode'
    (fun hnil => hfirst (List.map_eq_nil_iff.mp hnil)) haddresses
  refine ⟨{ p with links := links', count := p.count + 1 }, ?_, ⟨?_, ?_, ?_, h.expiredCount⟩,
    fun x hx => ?_⟩
  · rw [add, hstamp, Option.bind_eq_bind, Option.bind_some, hpush]
    rfl
  · rw [tr50PendingAdd, byHandle_append]
    exact hlinks'
  · exact congrArg (· + 1) h.count
  · simp [tr50PendingAdd, h.length]
  · rw [Tr50Pending.handles, ← map_fst_byHandle] at hx
    exact (hframe' x hx).trans (hframe x (List.ne_of_not_mem_cons hx))

/-- In an empty list a message keeps what it says of one before it. -/
theorem add_empty {message : ℕ} {n : Node ℕ (Tr50Message κ)}
    (hnode : p.links.node message = some n) (hempty : p.links.tail = none) (now : ℤ) :
    ∃ p', p.add message now = some p' ∧ p'.links.head = some message
      ∧ ∃ n', p'.links.node message = some n' ∧ n'.previous = n.previous := by
  have hadd : p.add message now = some { p with
      links :=
        { node := Function.update p.links.node message (some { n with value := { n.value with
            pendingSentTimestamp := now
            pendingExpirationTimestamp := now + n.value.callbackTimeout } })
          head := some message
          tail := some message }
      count := p.count + 1 } := by
    rw [add, Links.modify_eq hnode, Option.bind_eq_bind, Option.bind_some, Links.pushBack, hempty]
    rfl
  exact ⟨_, hadd, rfl, _, Function.update_self .., rfl⟩

/-- …and so does adding a message that has just been created. -/
theorem add_refines (h : p.Refines q) (hfresh : m.handle ∉ q.handles) (now : ℤ) :
    ∃ p', (p.messageCreate m).add m.handle now = some p'
      ∧ p'.Refines (tr50PendingAdd q m now) := by
  obtain ⟨p', hadd, hrefines, -⟩ := addNode_refines (messageCreate_refines h hfresh)
    (Function.update_self ..) hfresh (fun _ => rfl) now
  exact ⟨p', hadd, hrefines⟩

/-- **Removing takes one out.** -/
theorem linklistRemove_refines (h : p.Refines q) (hm : m ∈ q.list) :
    ∃ p', p.linklistRemove m.handle = some p' ∧ p'.Refines (tr50PendingLinklistRemove q m)
      ∧ ∀ x ∉ (tr50PendingLinklistRemove q m).handles, p'.links.node x = p.links.node x := by
  obtain ⟨list, list', hsplit⟩ := List.append_of_mem hm
  have hnodup := h.nodup
  rw [Tr50Pending.handles, hsplit] at hnodup
  have hlinks := h.links
  rw [hsplit, byHandle_append, byHandle_cons] at hlinks
  obtain ⟨links, hunlink, hrest, hframe⟩ := Links.unlink_spec hlinks
  refine ⟨_, (congrArg _ hunlink).trans rfl, ⟨?_, ?_, ?_, h.expiredCount⟩, fun x hx => ?_⟩
  · rw [tr50PendingLinklistRemove, hsplit, eraseP_split hnodup, byHandle_append]
    exact hrest
  · exact congrArg (· - 1) h.count
  · have hlength := h.length
    rw [hsplit] at hlength
    rw [tr50PendingLinklistRemove, hsplit, eraseP_split hnodup]
    simp only [List.length_append, List.length_cons] at hlength ⊢
    omega
  · rw [Tr50Pending.handles, tr50PendingLinklistRemove, hsplit, eraseP_split hnodup,
      ← map_fst_byHandle, byHandle_append] at hx
    exact hframe x hx

/-- …and the sweep counts it. -/
theorem expire_refines (h : p.Refines q) (hm : m ∈ q.list) :
    ∃ p', { p with expiredCount := p.expiredCount + 1 }.linklistRemove m.handle = some p'
      ∧ p'.Refines
        (tr50PendingLinklistRemove { q with expiredCount := q.expiredCount + 1 } m)
      ∧ ∀ x ∉ (tr50PendingLinklistRemove q m).handles, p'.links.node x = p.links.node x := by
  have hcounted : { p with expiredCount := p.expiredCount + 1 }.Refines
      { q with expiredCount := q.expiredCount + 1 } :=
    ⟨h.links, h.count, h.length, congrArg (· + 1) h.expiredCount⟩
  exact linklistRemove_refines hcounted hm

theorem handles_remove (hnodup : q.handles.Nodup) :
    (tr50PendingLinklistRemove q m).handles = q.handles.filter (· ≠ m.handle) := by
  have herase : (tr50PendingLinklistRemove q m).handles = q.handles.erase m.handle := by
    rw [List.erase_eq_eraseP, Tr50Pending.handles, Tr50Pending.handles, List.eraseP_map]
    refine congrArg (fun p => (q.list.eraseP p).map (·.handle)) (funext fun m' => ?_)
    simp [Bool.beq_eq_decide_eq, eq_comm]
  rw [herase, hnodup.erase_eq_filter]
  exact List.filter_congr fun x _ => by simp [bne, beq_eq_decide]

theorem handles_remove_sublist (hnodup : q.handles.Nodup) :
    (tr50PendingLinklistRemove q m).handles.Sublist q.handles :=
  handles_remove hnodup ▸ List.filter_sublist

theorem notMem_handles_remove (hnodup : q.handles.Nodup) :
    m.handle ∉ (tr50PendingLinklistRemove q m).handles := by
  rw [handles_remove hnodup]
  simp

theorem perm_handles_remove (hnodup : q.handles.Nodup) (hm : m ∈ q.list) :
    q.handles.Perm (m.handle :: (tr50PendingLinklistRemove q m).handles) := by
  have hperm := (perm_remove hnodup hm).map Prod.fst
  rwa [List.map_cons, Tr50Pending.map_fst_submissions, Tr50Pending.map_fst_submissions] at hperm

theorem findAndRemove_fst (hash : ℤ) :
    (tr50PendingFindAndRemove q hash).1 = q.list.find? fun m => m.seqId = hash := by
  unfold tr50PendingFindAndRemove
  split <;> simp only [*]

/-- Taken out is what is found. -/
theorem findAndRemove_list (hnodup : q.handles.Nodup) (hash : ℤ) :
    (tr50PendingFindAndRemove q hash).2.list = q.list.eraseP fun m => m.seqId = hash := by
  unfold tr50PendingFindAndRemove
  split
  · rename_i m hfind
    obtain ⟨hid, list, list', hsplit, hbefore⟩ := List.find?_eq_some_iff_append.mp hfind
    rw [Tr50Pending.handles, hsplit] at hnodup
    rw [tr50PendingLinklistRemove, hsplit, eraseP_split hnodup,
      List.eraseP_append_right _ fun m' hm' => by simpa using hbefore m' hm',
      List.eraseP_cons_of_pos (by simpa using hid)]
  · rename_i hnone
    rw [List.eraseP_of_forall_not fun m hm => List.find?_eq_none.mp hnone m hm]

/-- **Finding and removing finds the oldest with the id**, or nothing, and changes nothing. -/
theorem findAndRemove_refines (h : p.Refines q) (hash : ℤ) {fuel : ℕ}
    (hfuel : q.list.length < fuel) :
    ∃ p', p.findAndRemove fuel hash
        = some ((tr50PendingFindAndRemove q hash).1.map (·.handle), p')
      ∧ p'.Refines (tr50PendingFindAndRemove q hash).2
      ∧ ((tr50PendingFindAndRemove q hash).1 = none → p' = p)
      ∧ ∀ x ∉ (tr50PendingFindAndRemove q hash).2.handles, p'.links.node x = p.links.node x := by
  have hfind := Links.find_spec (fun m : Tr50Message κ => decide (m.seqId = hash)) h.links.segment
    (hfuel.trans_eq' (by simp [byHandle]))
  rw [← h.links.head, byHandle, List.find?_map, Option.map_map] at hfind
  change _ = some ((q.list.find? fun m => m.seqId = hash).map (·.handle)) at hfind
  rw [findAndRemove, hfind, Option.bind_some]
  rcases findAndRemove_cases q hash with ⟨hnone, -⟩ | ⟨m, hm, -, hsome⟩
  · have hlist : (q.list.find? fun m => m.seqId = hash) = none := by
      rw [← findAndRemove_fst, hnone]
    rw [hnone, hlist]
    exact ⟨p, rfl, h, fun _ => rfl, fun _ _ => rfl⟩
  · have hlist : (q.list.find? fun m => m.seqId = hash) = some m := by
      rw [← findAndRemove_fst, hsome]
    obtain ⟨p', hremove, hrefines, hframe⟩ := linklistRemove_refines h hm
    rw [hsome, hlist]
    exact ⟨p', congrArg (Option.map _) hremove, hrefines, fun h => (by cases h), hframe⟩

theorem findAndRemove_mono {fuel fuel' : ℕ} {hash : ℤ} {r : Option ℕ × LinkedPending κ}
    (hle : fuel ≤ fuel') (h : p.findAndRemove fuel hash = some r) :
    p.findAndRemove fuel' hash = some r := by
  obtain ⟨ptr, hfind, hnext⟩ := Option.bind_eq_some_iff.mp h
  exact Option.bind_eq_some_iff.mpr ⟨ptr, Links.find_mono hle hfind, hnext⟩

/-- What is found, and what is left. -/
theorem Refines.findAndRemove_inv (h : p.Refines q) {fuel : ℕ} {hash : ℤ} {found : Option ℕ}
    {p' : LinkedPending κ} (hfind : p.findAndRemove fuel hash = some (found, p')) :
    p'.Refines (tr50PendingFindAndRemove q hash).2
      ∧ found = (tr50PendingFindAndRemove q hash).1.map (·.handle)
      ∧ ∀ x ∉ (tr50PendingFindAndRemove q hash).2.handles, p'.links.node x = p.links.node x := by
  obtain ⟨p₁, hfind₁, hrefines, -, hframe⟩ := findAndRemove_refines h hash
    (Nat.lt_succ_of_le (le_max_right fuel q.list.length))
  have hsame := (findAndRemove_mono
    (Nat.le_succ_of_le (le_max_left fuel q.list.length)) hfind).symm.trans hfind₁
  obtain ⟨rfl, rfl⟩ := Prod.mk.inj (Option.some.inj hsame)
  exact ⟨hrefines, rfl, hframe⟩

/-- The sweep reads the pointer that is behind its message. -/
theorem Refines.node (h : p.Refines q) (hm : m ∈ q.list) : ∃ n, p.links.node m.handle = some n
    ∧ n.value = m ∧ n.next = tr50PendingNext q.list m.handle := by
  obtain ⟨list, list', hsplit⟩ := List.append_of_mem hm
  have hnodup := h.nodup
  rw [Tr50Pending.handles, hsplit] at hnodup
  have hlinks := h.links
  rw [hsplit, byHandle_append, byHandle_cons] at hlinks
  refine ⟨_, hlinks.node_eq, rfl, ?_⟩
  rw [hsplit, next_split hnodup, ← first_byHandle]

/-- Rescheduling changes one message. -/
theorem reschedule_split {list list' : List (Tr50Message κ)} (hsplit : q.list = list ++ m :: list')
    (hnodup : q.handles.Nodup) (now : ℤ) :
    (tr50PendingReschedule q m.handle now).list
      = list ++ { m with pendingExpirationTimestamp := now + m.callbackTimeout } :: list' := by
  rw [Tr50Pending.handles, hsplit, List.map_append, List.map_cons] at hnodup
  -- the others keep their times
  have hkeep : ∀ l : List (Tr50Message κ), (∀ m' ∈ l, m'.handle ≠ m.handle) →
      l.map (fun m' => if m'.handle = m.handle then
        { m' with pendingExpirationTimestamp := now + m'.callbackTimeout } else m') = l := by
    intro l hl
    exact (List.map_congr_left fun m' hm' => if_neg (hl m' hm')).trans (List.map_id' l)
  have hother : ∀ m' ∈ list ++ list', m'.handle ≠ m.handle := fun m' hm' heq => by
    have hmem := List.mem_map_of_mem (f := (·.handle)) hm'
    rw [List.map_append] at hmem
    exact (List.nodup_middle.mp hnodup).notMem (heq ▸ hmem)
  rw [tr50PendingReschedule, hsplit]
  simp only [List.map_append, List.map_cons, if_true,
    hkeep list fun m' hm' => hother m' (List.mem_append_left _ hm'),
    hkeep list' fun m' hm' => hother m' (List.mem_append_right _ hm')]

/-- **Rescheduling leaves the links.** -/
theorem reschedule_refines (h : p.Refines q) (hm : m ∈ q.list) (now : ℤ) :
    ∃ links, p.links.modify m.handle (fun n => { n with value := { n.value with
        pendingExpirationTimestamp := now + n.value.callbackTimeout } }) = some links
      ∧ { p with links }.Refines (tr50PendingReschedule q m.handle now) := by
  obtain ⟨list, list', hsplit⟩ := List.append_of_mem hm
  have hlist := reschedule_split hsplit h.nodup now
  have hlinks := h.links
  rw [hsplit, byHandle_append, byHandle_cons] at hlinks
  have hnode := hlinks.node_eq
  obtain ⟨links, hmodify, hrest⟩ := Links.setValue_spec
    { m with pendingExpirationTimestamp := now + m.callbackTimeout } hlinks
  refine ⟨links, (Links.modify_eq hnode _).trans ((Links.modify_eq hnode _).symm.trans hmodify),
    ⟨?_, h.count, ?_, h.expiredCount⟩⟩
  · rw [hlist, byHandle_append, byHandle_cons]
    exact hrest
  · rw [hlist]
    have hlength := h.length
    rw [hsplit] at hlength
    simpa [tr50PendingReschedule] using hlength

/-- A message that is not in the list may go. -/
theorem messageDelete_refines (h : p.Refines q) {message : ℕ} (hout : message ∉ q.handles) :
    (p.messageDelete message).Refines q := by
  refine ⟨h.links.congr (fun a ha => ?_) rfl rfl, h.count, h.length, h.expiredCount⟩
  rw [map_fst_byHandle] at ha
  exact Function.update_of_ne (ne_of_mem_of_not_mem ha hout) _ _

end LinkedPending

/-! ## The system -/

/-- The sweep, with the message whose callback it is in. -/
inductive PendingSweep
  | idle
  | scan (now : ℤ) (next : Option ℕ)
  | callback (now : ℤ) (message : ℕ) (next : Option ℕ)
deriving DecidableEq, Repr

/-- `next` of its loop. -/
def PendingSweep.next : PendingSweep → Option ℕ
  | .idle => none
  | .scan _ next => next
  | .callback _ _ next => next

/-- Whether `pending->mux` lets a caller in: nobody has it, or the sweep for a callback. -/
def PendingSweep.free : PendingSweep → Bool
  | .scan _ _ => false
  | _ => true

/-- `added` and `removed` record what has happened, the last one first; no step reads `removed`. -/
structure PendingSystem (κ : Type) where
  pending : LinkedPending κ
  sweep : PendingSweep
  added : List ℕ
  removed : List ℕ

inductive PendingAction (κ : Type)
  /-- A message is created and added. -/
  | add (message : Tr50Message κ) (now : ℤ)
  | findAndRemove (fuel : ℕ) (hash : ℤ)
  /-- The sweep locks the list; its message; the end of a callback. -/
  | sweep (now : ℤ)
  | visit
  | callbackReturn

namespace PendingSystem

def init : PendingSystem κ := ⟨.create, .idle, [], []⟩

/-- The sweep at a message, with the pointer to the next one saved first. -/
def visitMessage (s : PendingSystem κ) (now : ℤ) (message : ℕ) : Option (PendingSystem κ) :=
  (s.pending.links.node message).bind fun n =>
    match tr50PendingJudge now n.value with
    | .keep => some { s with sweep := .scan now n.next }
    | .reschedule =>
      (s.pending.links.modify message fun n => { n with value := { n.value with
          pendingExpirationTimestamp := now + n.value.callbackTimeout } }).map fun links =>
        { s with sweep := .scan now n.next, pending.links := links }
    | .expire =>
      ({ s.pending with expiredCount := s.pending.expiredCount + 1 }.linklistRemove message).map
        fun pending => { s with
          sweep := if n.value.callback.isSome then .callback now message n.next
            else .scan now n.next
          pending := if n.value.callback.isSome then pending else pending.messageDelete message
          removed := message :: s.removed }

def step (s : PendingSystem κ) : PendingAction κ → Option (PendingSystem κ)
  | .add message now =>
    -- a new message is none of those before
    if s.sweep.free ∧ message.handle ∉ s.added then
      ((s.pending.messageCreate message).add message.handle now).map fun pending =>
        { s with pending, added := message.handle :: s.added }
    else none
  | .findAndRemove fuel hash =>
    if s.sweep.free then
      (s.pending.findAndRemove fuel hash).map fun found =>
        { s with pending := found.2, removed := found.1.toList ++ s.removed }
    else none
  | .sweep now =>
    if s.sweep = .idle then some { s with sweep := .scan now s.pending.links.head } else none
  | .visit =>
    match s.sweep with
    | .scan now (some message) => s.visitMessage now message
    | .scan _ none => some { s with sweep := .idle }
    | _ => none
  | .callbackReturn =>
    match s.sweep with
    | .callback now message next =>
      some { s with sweep := .scan now next, pending := s.pending.messageDelete message }
    | _ => none

/-! ## Runs -/

/-- A callback of the sweep leaves the message in the list that the sweep goes on with. -/
def Steady (s : PendingSystem κ) : PendingAction κ → Prop
  | .findAndRemove fuel hash => s.sweep.next.isSome →
      (s.pending.findAndRemove fuel hash).map Prod.fst ≠ some s.sweep.next
  | _ => True

instance (s : PendingSystem κ) (a : PendingAction κ) : Decidable (Steady s a) :=
  match a with
  | .findAndRemove .. => inferInstanceAs (Decidable (_ → _))
  | .add .. | .sweep .. | .visit | .callbackReturn => inferInstanceAs (Decidable True)

/-- …so every call between sweeps is steady. -/
theorem steady_of_idle {s : PendingSystem κ} (hidle : s.sweep = .idle) (a : PendingAction κ) :
    Steady s a := by
  cases a with
  | findAndRemove fuel hash => exact fun hnext => by simp [hidle, PendingSweep.next] at hnext
  | _ => trivial

variable {s t : PendingSystem κ} {q : Tr50Pending κ}

/-- The pointers are those of a list: of what has been added and not removed, in this order. -/
structure Describes (s : PendingSystem κ) (q : Tr50Pending κ) : Prop where
  refines : s.pending.Refines q
  order : q.handles = s.added.reverse.filter (· ∉ s.removed)
  added : s.added.Nodup
  removed : s.removed ⊆ s.added
  next : ∀ message, s.sweep.next = some message → message ∈ q.handles
  callback : ∀ now message next, s.sweep = .callback now message next → message ∈ s.removed

theorem describes_init : Describes (init : PendingSystem κ) tr50PendingCreate :=
  ⟨LinkedPending.create_refines, rfl, List.nodup_nil, List.nil_subset _, by rintro _ ⟨⟩,
    by rintro _ _ _ ⟨⟩⟩

theorem Describes.mem_added (hs : Describes s q) {x : ℕ} (hx : x ∈ q.handles) :
    x ∈ s.added ∧ x ∉ s.removed := by
  rw [hs.order] at hx
  simpa using hx

theorem Describes.add (hs : Describes s q) {m : Tr50Message κ} (hfree : s.sweep.free)
    (hnew : m.handle ∉ s.added) (now : ℤ) :
    ∃ t, s.step (.add m now) = some t ∧ ∃ q', Describes t q' := by
  have hfresh : m.handle ∉ q.handles := fun hmem => hnew (hs.mem_added hmem).1
  obtain ⟨pending, hadd, hrefines⟩ := LinkedPending.add_refines hs.refines hfresh now
  have hhandles : (tr50PendingAdd q m now).handles = q.handles ++ [m.handle] := by
    simp [tr50PendingAdd, Tr50Pending.handles]
  refine ⟨{ s with pending, added := m.handle :: s.added }, ?_, _, hrefines, ?_, hs.added.cons hnew,
    fun x hx => List.mem_cons_of_mem _ (hs.removed hx), fun x hx => ?_, hs.callback⟩
  · rw [step, if_pos ⟨hfree, hnew⟩, hadd, Option.map_some]
  · have hnot : m.handle ∉ s.removed := fun hmem => hnew (hs.removed hmem)
    rw [hhandles, hs.order, List.reverse_cons, List.filter_append]
    simp [hnot]
  · rw [hhandles]
    exact List.mem_append_left _ (hs.next x hx)

/-- What has been taken out is no longer there. -/
theorem Describes.order_remove (hs : Describes s q) {m : Tr50Message κ} :
    (tr50PendingLinklistRemove q m).handles
      = s.added.reverse.filter (· ∉ m.handle :: s.removed) := by
  rw [LinkedPending.handles_remove hs.refines.nodup, hs.order, List.filter_filter]
  refine List.filter_congr fun x _ => ?_
  simp [List.mem_cons, not_or]

theorem Describes.findAndRemove (hs : Describes s q) {fuel : ℕ} {hash : ℤ}
    (hgood : Steady s (.findAndRemove fuel hash))
    (h : s.step (.findAndRemove fuel hash) = some t) : ∃ q', Describes t q' := by
  simp only [step] at h
  split_ifs at h with hfree
  obtain ⟨⟨found, pending⟩, hfind, rfl⟩ := Option.map_eq_some_iff.mp h
  obtain ⟨hrefines, rfl, -⟩ := hs.refines.findAndRemove_inv hfind
  rcases findAndRemove_cases q hash with ⟨hnone, -⟩ | ⟨m, hm, -, hsome⟩
  · rw [hnone] at hrefines ⊢
    exact ⟨q, hrefines, hs.order, hs.added, hs.removed, hs.next, hs.callback⟩
  · rw [hsome] at hrefines hfind ⊢
    have hmem : m.handle ∈ q.handles := List.mem_map_of_mem hm
    refine ⟨_, hrefines, hs.order_remove, hs.added,
      List.cons_subset.mpr ⟨(hs.mem_added hmem).1, hs.removed⟩, fun x hx => ?_,
      fun now message next hsweep => List.mem_cons_of_mem _ (hs.callback now message next hsweep)⟩
    refine mem_handles_remove (hs.next x hx) fun heq => hgood (Option.isSome_of_mem hx) ?_
    rw [hfind, hx, heq]
    rfl

theorem Describes.visitMessage (hs : Describes s q) {now : ℤ} {handle : ℕ}
    (hsweep : s.sweep = .scan now (some handle)) :
    ∃ t, s.visitMessage now handle = some t ∧ ∃ q', Describes t q' := by
  obtain ⟨m, hm, rfl⟩ := List.mem_map.mp (hs.next handle (by rw [hsweep]; rfl))
  obtain ⟨n, hnode, rfl, hnext⟩ := hs.refines.node hm
  have hsaved : ∀ x, n.next = some x → x ∈ q.handles := fun x hx =>
    mem_handles_of_next (hnext.symm.trans hx)
  rw [PendingSystem.visitMessage, hnode, Option.bind_some]
  cases tr50PendingJudge now n.value with
  | keep =>
    exact ⟨_, rfl, q, hs.refines, hs.order, hs.added, hs.removed, hsaved, by rintro _ _ _ ⟨⟩⟩
  | reschedule =>
    obtain ⟨links, hlinks, hrefines⟩ := LinkedPending.reschedule_refines hs.refines hm now
    have hhandles := handles_reschedule q n.value.handle now
    exact ⟨_, Option.map_eq_some_iff.mpr ⟨links, hlinks, rfl⟩, _, hrefines,
      hhandles.trans hs.order, hs.added, hs.removed, fun x hx => hhandles ▸ hsaved x hx,
      by rintro _ _ _ ⟨⟩⟩
  | expire =>
    obtain ⟨pending, hremove, hrefines, -⟩ := LinkedPending.expire_refines hs.refines hm
    have horder := hs.order_remove (m := n.value)
    have hmem : n.value.handle ∈ q.handles := List.mem_map_of_mem hm
    -- the saved pointer is that of another message
    have hrest : ∀ x, n.next = some x → x ∈ (tr50PendingLinklistRemove q n.value).handles :=
      fun x hx => mem_handles_remove (hsaved x hx) fun heq =>
        next_ne hs.refines.nodup (hnext.symm.trans (heq ▸ hx))
    have hsubset := List.cons_subset.mpr ⟨(hs.mem_added hmem).1, hs.removed⟩
    refine ⟨_, Option.map_eq_some_iff.mpr ⟨pending, hremove, rfl⟩, ?_⟩
    cases n.value.callback with
    | none =>
      refine ⟨_, LinkedPending.messageDelete_refines hrefines fun hin => ?_, horder, hs.added,
        hsubset, hrest, by rintro _ _ _ ⟨⟩⟩
      have hin' := horder ▸ hin
      simp at hin'
    | some _ =>
      refine ⟨_, hrefines, horder, hs.added, hsubset, hrest, fun now' message next heq => ?_⟩
      cases heq
      exact List.mem_cons_self

theorem Describes.step (hs : Describes s q) {a : PendingAction κ} (hgood : Steady s a)
    (h : s.step a = some t) : ∃ q', Describes t q' := by
  cases a with
  | add message now =>
    have hguard : s.sweep.free ∧ message.handle ∉ s.added := by
      simp only [PendingSystem.step] at h
      split_ifs at h with hguard
      exact hguard
    obtain ⟨t', ht', hq'⟩ := hs.add hguard.1 hguard.2 now
    obtain rfl := Option.some.inj (h.symm.trans ht')
    exact hq'
  | findAndRemove fuel hash => exact hs.findAndRemove hgood h
  | sweep now =>
    simp only [PendingSystem.step] at h
    split_ifs at h
    obtain rfl := Option.some.inj h
    refine ⟨q, hs.refines, hs.order, hs.added, hs.removed, fun x hx => ?_, by rintro _ _ _ ⟨⟩⟩
    refine mem_handles_of_head (Eq.trans ?_ hx)
    rw [← first_byHandle, ← hs.refines.links.head]
    rfl
  | visit =>
    simp only [PendingSystem.step] at h
    split at h
    · rename_i now message hsweep
      obtain ⟨t', ht', hq'⟩ := hs.visitMessage hsweep
      obtain rfl := Option.some.inj (h.symm.trans ht')
      exact hq'
    · obtain rfl := Option.some.inj h
      exact ⟨q, hs.refines, hs.order, hs.added, hs.removed, by rintro _ ⟨⟩, by rintro _ _ _ ⟨⟩⟩
    · cases h
  | callbackReturn =>
    simp only [PendingSystem.step] at h
    split at h
    · rename_i now message next hsweep
      obtain rfl := Option.some.inj h
      have hout : message ∉ q.handles := fun hin =>
        (hs.mem_added hin).2 (hs.callback now message next hsweep)
      exact ⟨q, LinkedPending.messageDelete_refines hs.refines hout, hs.order, hs.added, hs.removed,
        fun x hx => hs.next x (by rw [hsweep]; exact hx), by rintro _ _ _ ⟨⟩⟩
    · cases h

/-- The pointers of every state are those of a list. -/
theorem describes (h : Reach step Steady (init : PendingSystem κ) s) : ∃ q, Describes s q :=
  h.invariant (I := fun s => ∃ q, Describes s q) ⟨_, describes_init⟩
    fun _ _ _ ⟨_, hs⟩ hgood hstep => hs.step hgood hstep

/-- **No call goes wrong**: what is let in finds every node it writes to, and the loop ends. -/
theorem step_isSome (h : Reach step Steady (init : PendingSystem κ) s) :
    (s.sweep.free → ∀ message : Tr50Message κ, message.handle ∉ s.added → ∀ now,
      (s.step (.add message now)).isSome)
    ∧ (s.sweep.free → ∀ hash, ∃ fuel, (s.step (.findAndRemove fuel hash)).isSome)
    ∧ (∀ now next, s.sweep = .scan now next → (s.step .visit).isSome) := by
  obtain ⟨q, hs⟩ := describes h
  refine ⟨fun hfree message hnew now => ?_, fun hfree hash => ⟨q.list.length + 1, ?_⟩,
    fun now next hsweep => ?_⟩
  · obtain ⟨t, ht, -⟩ := hs.add hfree hnew now
    exact Option.isSome_of_mem ht
  · obtain ⟨pending, hfind, -⟩ :=
      LinkedPending.findAndRemove_refines hs.refines hash (Nat.lt_succ_self _)
    rw [step, if_pos hfree, hfind, Option.map_some, Option.isSome_some]
  · cases next with
    | none =>
      rw [step, hsweep]
      rfl
    | some message =>
      obtain ⟨t, ht, -⟩ := hs.visitMessage hsweep
      rw [step, hsweep]
      exact Option.isSome_of_mem ht

/-- **The pointers are always those of one list without cycles**, which is counted and holds what
has been added and not removed, in order; finding and removing takes the oldest with the id out of
it. -/
theorem pendingLinked (h : Reach step Steady (init : PendingSystem κ) s) :
    ∃ list : List (Tr50Message κ), s.pending.links.Represents (byHandle list)
      ∧ s.pending.count = list.length
      ∧ list.map (·.handle) = s.added.reverse.filter (· ∉ s.removed)
      ∧ ∀ (hash : ℤ) (fuel : ℕ), list.length < fuel → ∃ pending,
        s.pending.findAndRemove fuel hash
            = some ((list.find? fun m => m.seqId = hash).map (·.handle), pending)
          ∧ pending.links.Represents (byHandle (list.eraseP fun m => m.seqId = hash))
          ∧ pending.count = (list.eraseP fun m => m.seqId = hash).length
          ∧ ((list.find? fun m => m.seqId = hash) = none → pending = s.pending) := by
  obtain ⟨q, hs⟩ := describes h
  refine ⟨q.list, hs.refines.links, hs.refines.count.trans hs.refines.length, hs.order,
    fun hash fuel hfuel => ?_⟩
  obtain ⟨pending, hfind, hrefines, hsame, -⟩ :=
    LinkedPending.findAndRemove_refines hs.refines hash hfuel
  rw [LinkedPending.findAndRemove_fst] at hfind hsame
  have hlist := LinkedPending.findAndRemove_list hs.refines.nodup hash
  exact ⟨pending, hfind, hlist ▸ hrefines.links, hrefines.count.trans
    (hrefines.length.trans (congrArg (fun l => (List.length l : ℤ)) hlist)), hsame⟩

/-- A message with a callback or without. -/
def awaiting (handle : ℕ) (seqId : ℤ) (callback : Option Unit) : Tr50Message Unit :=
  ⟨handle, .obj, seqId, 10, callback, 0, 0⟩

/-- Of two with one id the first is found; the sweep expires another, whose callback adds one, and
then the last. -/
def swept : List (PendingAction Unit) :=
  [.add (awaiting 1 7 none) 0, .add (awaiting 2 8 (some ())) 0, .add (awaiting 3 7 none) 0,
    .findAndRemove 4 7, .sweep 50, .visit, .add (awaiting 4 7 none) 50, .findAndRemove 4 9,
    .callbackReturn, .visit, .visit]

/-- …and the message added by the callback is left. -/
theorem pendingLinked_swept : ∃ s : PendingSystem Unit, Reach step Steady init s
    ∧ s.added = [4, 3, 2, 1] ∧ s.removed = [3, 2, 1]
    ∧ ∃ list : List (Tr50Message Unit), s.pending.links.Represents (byHandle list)
      ∧ list.map (·.handle) = [4] := by
  have heval : (swept.foldlM (fun s a => if Steady s a then step s a else none) init).map (fun s =>
      (s.added, s.removed)) = some ([4, 3, 2, 1], [3, 2, 1]) := by decide +kernel
  obtain ⟨s, hs, hview⟩ := Option.map_eq_some_iff.mp heval
  obtain ⟨hadded, hremoved⟩ := by simpa only [Prod.mk.injEq] using hview
  have hreach : Reach step Steady (init : PendingSystem Unit) s := Reach.of_guarded swept hs
  obtain ⟨list, hlinks, -, horder, -⟩ := pendingLinked hreach
  rw [hadded, hremoved] at horder
  exact ⟨s, hreach, hadded, hremoved, list, hlinks, horder⟩

end PendingSystem

end Tr50
