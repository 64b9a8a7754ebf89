import Tr50.Api.Message
import Tr50.Util.Memory

/-!
# Api/Pending — the list of requests waiting for their reply

`src/tr50.pending.c`.  The linked list is the list of its messages from `list_head` to `list_tail`.
Every function here is one critical section of `pending->mux`, except that the sweep
(`_tr50_pending_expiration_handler`) keeps the lock from message to message: `tr50PendingJudge` is
what it does with one, `tr50PendingNext` the pointer it goes on with.

Removing a message takes its handle out of the list and leaves every other message where it is
(`perm_remove`, `perm_findAndRemove`).
-/

namespace Tr50

variable {κ : Type}

/-- `_TR50_PENDING`. -/
structure Tr50Pending (κ : Type) where
  list : List (Tr50Message κ)
  count : ℤ
  expiredCount : ℤ
deriving DecidableEq, Repr

/-- The messages by their handles. -/
def Tr50Pending.handles (pending : Tr50Pending κ) : List ℕ := pending.list.map (·.handle)

/-! ## The operations -/

/-- `tr50_pending_create`. -/
def tr50PendingCreate : Tr50Pending κ := ⟨[], 0, 0⟩

/-- `tr50_pending_add` at time `now`, of a message that has not been in the list before; over its
pointers it is `LinkedPending.add`. -/
def tr50PendingAdd (pending : Tr50Pending κ) (message : Tr50Message κ) (now : ℤ) : Tr50Pending κ :=
  { pending with
    list := pending.list ++ [{ message with
      pendingSentTimestamp := now
      pendingExpirationTimestamp := now + message.callbackTimeout }]
    count := pending.count + 1 }

/-- `_tr50_pending_linklist_remove` -/
def tr50PendingLinklistRemove (pending : Tr50Pending κ) (message : Tr50Message κ) :
    Tr50Pending κ :=
  { pending with
    list := pending.list.eraseP fun m => m.handle = message.handle
    count := pending.count - 1 }

/-- `tr50_pending_find_and_remove`: the first message with the id. -/
def tr50PendingFindAndRemove (pending : Tr50Pending κ) (hash : ℤ) :
    Option (Tr50Message κ) × Tr50Pending κ :=
  match pending.list.find? fun m => m.seqId = hash with
  | some message => (some message, tr50PendingLinklistRemove pending message)
  | none => (none, pending)

/-! ## The sweep -/

def tr50PendingTimeShiftAllow : ℤ := 3600000

/-- What the sweep does with a message. -/
inductive Judgement
  | keep
  | reschedule
  | expire
deriving DecidableEq, Repr

/-- The tests of `_tr50_pending_expiration_handler`, as they stand.  The sum of the second is one of
two `int`s. -/
def tr50PendingJudge (now : ℤ) (message : Tr50Message κ) : Judgement :=
  if message.pendingExpirationTimestamp ≤ now then
    if message.pendingExpirationTimestamp - now > tr50PendingTimeShiftAllow then .reschedule
    else .expire
  else if now - message.pendingExpirationTimestamp
      > toInt32 (tr50PendingTimeShiftAllow + message.callbackTimeout) then .reschedule
  else .keep

/-- The message rescheduled. -/
def tr50PendingReschedule (pending : Tr50Pending κ) (handle : ℕ) (now : ℤ) : Tr50Pending κ :=
  { pending with
    list := pending.list.map fun m =>
      if m.handle = handle then
        { m with pendingExpirationTimestamp := now + m.callbackTimeout }
      else m }

/-- `list_head`, as a handle. -/
def tr50PendingHead (list : List (Tr50Message κ)) : Option ℕ := list.head?.map (·.handle)

/-- `message->pending_next`, as a handle. -/
def tr50PendingNext (list : List (Tr50Message κ)) (handle : ℕ) : Option ℕ :=
  tr50PendingHead (list.dropWhile fun m => m.handle ≠ handle).tail

/-! ## Lemmas -/

/-- What identifies a request throughout: its handle, and whom its reply is for. -/
def Tr50Message.submission (m : Tr50Message κ) : ℕ × Option κ := (m.handle, m.callback)

/-- Who has been submitted and waits. -/
def Tr50Pending.submissions (pending : Tr50Pending κ) : List (ℕ × Option κ) :=
  pending.list.map (·.submission)

theorem Tr50Pending.map_fst_submissions (pending : Tr50Pending κ) :
    pending.submissions.map Prod.fst = pending.handles := by
  simp [submissions, handles, Tr50Message.submission, Function.comp_def]

theorem submissions_add (pending : Tr50Pending κ) (message : Tr50Message κ) (now : ℤ) :
    (tr50PendingAdd pending message now).submissions
      = pending.submissions ++ [message.submission] := by
  simp [tr50PendingAdd, Tr50Pending.submissions, Tr50Message.submission]

theorem submissions_reschedule (pending : Tr50Pending κ) (handle : ℕ) (now : ℤ) :
    (tr50PendingReschedule pending handle now).submissions = pending.submissions := by
  simp only [tr50PendingReschedule, Tr50Pending.submissions, List.map_map]
  refine List.map_congr_left fun m _ => ?_
  simp only [Function.comp_apply]
  split_ifs <;> rfl

theorem handles_reschedule (pending : Tr50Pending κ) (handle : ℕ) (now : ℤ) :
    (tr50PendingReschedule pending handle now).handles = pending.handles := by
  rw [← Tr50Pending.map_fst_submissions, submissions_reschedule, Tr50Pending.map_fst_submissions]

/-- Handles that occur once point to one message. -/
theorem eraseP_handle {list : List (Tr50Message κ)} (hnodup : (list.map (·.handle)).Nodup)
    {m : Tr50Message κ} (hm : m ∈ list) :
    list.Perm (m :: list.eraseP fun m' => m'.handle = m.handle) := by
  induction list with
  | nil => exact absurd hm (List.not_mem_nil)
  | cons m' list ih =>
    rw [List.map_cons, List.nodup_cons] at hnodup
    by_cases h : m'.handle = m.handle
    · rcases List.mem_cons.mp hm with rfl | hm
      · simp
      · exact absurd (h ▸ List.mem_map_of_mem hm) hnodup.1
    · rw [List.eraseP_cons_of_neg (by simpa using h)]
      rcases List.mem_cons.mp hm with rfl | hm
      · exact absurd rfl h
      · exact ((ih hnodup.2 hm).cons m').trans (List.Perm.swap ..)

/-- **Removing a message takes it out**, and leaves the others. -/
theorem perm_remove {pending : Tr50Pending κ} (hnodup : pending.handles.Nodup)
    {m : Tr50Message κ} (hm : m ∈ pending.list) :
    pending.submissions.Perm (m.submission :: (tr50PendingLinklistRemove pending m).submissions) :=
  (eraseP_handle hnodup hm).map _

/-- …as does finding one by its id. -/
theorem findAndRemove_cases (pending : Tr50Pending κ) (hash : ℤ) :
    (tr50PendingFindAndRemove pending hash = (none, pending) ∧ ∀ m ∈ pending.list, m.seqId ≠ hash)
    ∨ ∃ m ∈ pending.list, m.seqId = hash
      ∧ tr50PendingFindAndRemove pending hash = (some m, tr50PendingLinklistRemove pending m) := by
  unfold tr50PendingFindAndRemove
  cases hfind : pending.list.find? fun m => m.seqId = hash with
  | none => exact Or.inl ⟨rfl, by simpa using hfind⟩
  | some m =>
    exact Or.inr ⟨m, List.mem_of_find?_eq_some hfind, by simpa using List.find?_some hfind, rfl⟩

/-- A saved pointer is that of a message in the list. -/
theorem mem_handles_of_head {list : List (Tr50Message κ)} {x : ℕ}
    (h : tr50PendingHead list = some x) : x ∈ list.map (·.handle) := by
  obtain ⟨m, hm, rfl⟩ := Option.map_eq_some_iff.mp h
  exact List.mem_map_of_mem (List.mem_of_mem_head? hm)

theorem mem_handles_of_next {list : List (Tr50Message κ)} {handle x : ℕ}
    (h : tr50PendingNext list handle = some x) : x ∈ list.map (·.handle) :=
  ((List.tail_sublist _).trans (List.dropWhile_sublist _)).map _ |>.subset (mem_handles_of_head h)

/-- …and not that of the message it was saved at. -/
theorem next_ne {list : List (Tr50Message κ)} (hnodup : (list.map (·.handle)).Nodup)
    {handle : ℕ} : tr50PendingNext list handle ≠ some handle := by
  induction list with
  | nil => simp [tr50PendingNext, tr50PendingHead]
  | cons m list ih =>
    rw [List.map_cons, List.nodup_cons] at hnodup
    by_cases h : m.handle = handle
    · intro hnext
      rw [tr50PendingNext, List.dropWhile_cons_of_neg (by simpa using h)] at hnext
      exact hnodup.1 (h ▸ mem_handles_of_head hnext)
    · rw [tr50PendingNext, List.dropWhile_cons_of_pos (by simpa using h)]
      exact ih hnodup.2

/-- The other messages stay when one is removed. -/
theorem mem_handles_remove {pending : Tr50Pending κ} {m : Tr50Message κ} {x : ℕ}
    (hx : x ∈ pending.handles) (hne : x ≠ m.handle) :
    x ∈ (tr50PendingLinklistRemove pending m).handles := by
  obtain ⟨m', hm', rfl⟩ := List.mem_map.mp hx
  exact List.mem_map_of_mem ((List.mem_eraseP_of_neg (by simpa using hne)).mpr hm')

end Tr50
