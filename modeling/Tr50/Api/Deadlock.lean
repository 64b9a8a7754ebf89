import Tr50.Machinery.Locks
import Tr50.Machinery.Runs

/-!
# Api/Deadlock — the two locks of a client

`client->mux` and `pending->mux`, both recursive, and the threads that take them.  A thread is its
stack of calls: `tr50_api_call_async` / `tr50_api_raw_async` (`Frame.api`), `tr50_mailbox_check`,
`_tr50_mailbox_check_callback`, a callback of the application, and the loop of
`_tr50_pending_expiration_handler`.  The outcomes the code does not decide — payload, publish,
which request the sweep expires — are the choice of the step.

The submitters take `client->mux` before `pending->mux`; the sweep runs callbacks with
`pending->mux` held.  As long as none of these submits a request the order is one order, and nothing
waits in a circle.
-/

namespace Tr50

open Machinery

namespace Deadlock

/-! ## Threads -/

inductive Thread
  | app (n : ℕ)
  /-- The expiration thread. -/
  | sweep
deriving DecidableEq, Repr

inductive Lock
  | client
  | pending
deriving DecidableEq, Repr

/-- Where `tr50_api_call_async` or `tr50_api_raw_async` stands. -/
inductive ApiPc
  /-- At its lock of `client->mux`. -/
  | enter
  /-- State checks, id, payload. -/
  | prepare
  /-- At the lock of `tr50_pending_add`, and behind it. -/
  | add
  | added
  /-- `mqtt_async_publish`. -/
  | publish
  /-- At the lock of `tr50_pending_find_and_remove`, and behind it. -/
  | remove
  | removed
  /-- At the unlock of `client->mux`; `ok` is whether the call returns `0`. -/
  | leave (ok : Bool)
deriving DecidableEq, Repr

/-- Where `tr50_mailbox_check` stands. -/
inductive CheckPc
  | entry
  /-- `mailbox_send_in_progress` is set; the request is to be created. -/
  | create
  /-- Inside its `tr50_api_call_async`. -/
  | called
  /-- `end_error`. -/
  | endError
deriving DecidableEq, Repr

inductive Frame
  | api (pc : ApiPc)
  | check (pc : CheckPc)
  /-- `_tr50_mailbox_check_callback`; `more` is whether the reply had messages. -/
  | mailboxCallback (more : Bool)
  | userCallback
  /-- The sweep at its lock, and in its loop over the list. -/
  | locking
  | scanning
deriving DecidableEq, Repr

/-- What a step does where the code alone does not decide it. -/
inductive Choice
  /-- Go on. -/
  | go
  /-- The operation at hand fails. -/
  | fail
  /-- Call `tr50_api_call_async` or `tr50_api_raw_async`. -/
  | call
  /-- Call `tr50_mailbox_check`. -/
  | check
  /-- Run a mailbox callback: on a reply, or on an expired request. -/
  | mailbox (more : Bool)
  /-- Run a callback of the application. -/
  | user
  /-- `tr50_mailbox_suspend`, `tr50_mailbox_resume`. -/
  | suspend (b : Bool)
deriving DecidableEq, Repr

/-! ## Steps -/

/-- The mailbox flags of the client. -/
structure Mailbox where
  suspend : Bool
  sendInProgress : Bool
  anotherRequest : Bool
deriving DecidableEq, Repr

/-- What a step does to the locks. -/
inductive LockOp
  | none
  | lock (l : Lock)
  | unlock (l : Lock)
deriving DecidableEq, Repr

/-- The calls an application thread makes between two calls. -/
def call (mailbox : Mailbox) : Choice → Option (LockOp × Mailbox × List Frame)
  | .call => some (.none, mailbox, [.api .enter])
  | .check => some (.none, mailbox, [.check .entry])
  | .mailbox more => some (.none, mailbox, [.mailboxCallback more])
  | .suspend b => some (.none, { mailbox with suspend := b }, [])
  | _ => none

/-- `tr50_api_call_async`, `tr50_api_raw_async`. -/
def api (mailbox : Mailbox) (fs : List Frame) :
    ApiPc → Choice → Option (LockOp × Mailbox × List Frame)
  | .enter, .go => some (.lock .client, mailbox, .api .prepare :: fs)
  | .prepare, .go => some (.none, mailbox, .api .add :: fs)
  | .prepare, .fail => some (.none, mailbox, .api (.leave false) :: fs)
  | .add, .go => some (.lock .pending, mailbox, .api .added :: fs)
  | .added, .go => some (.unlock .pending, mailbox, .api .publish :: fs)
  -- the raw call can fail to compress behind its add
  | .added, .fail => some (.unlock .pending, mailbox, .api (.leave false) :: fs)
  | .publish, .go => some (.none, mailbox, .api (.leave true) :: fs)
  | .publish, .fail => some (.none, mailbox, .api .remove :: fs)
  | .remove, .go => some (.lock .pending, mailbox, .api .removed :: fs)
  -- not found: the sweep was there first, and the call succeeds
  | .removed, .go => some (.unlock .pending, mailbox, .api (.leave true) :: fs)
  | .removed, .fail => some (.unlock .pending, mailbox, .api (.leave false) :: fs)
  | .leave ok, .go =>
      match fs with
      | .check .called :: fs =>
        some (.unlock .client, mailbox, if ok then fs else .check .endError :: fs)
      | fs => some (.unlock .client, mailbox, fs)
  | _, _ => none

/-- `tr50_mailbox_check`. -/
def check (mailbox : Mailbox) (fs : List Frame) :
    CheckPc → Choice → Option (LockOp × Mailbox × List Frame)
  | .entry, .go =>
      if mailbox.suspend then some (.none, mailbox, fs)
      else if mailbox.sendInProgress then some (.none, { mailbox with anotherRequest := true }, fs)
      else some (.none, { mailbox with sendInProgress := true }, .check .create :: fs)
  | .create, .go => some (.none, mailbox, .api .enter :: .check .called :: fs)
  | .create, .fail => some (.none, mailbox, .check .endError :: fs)
  | .endError, .go =>
      some (.none, { mailbox with sendInProgress := false, anotherRequest := false }, fs)
  | _, _ => none

/-- `_tr50_mailbox_check_callback` behind the messages of the reply. -/
def mailboxCallback (mailbox : Mailbox) (more : Bool) (fs : List Frame) :
    LockOp × Mailbox × List Frame :=
  let mailbox := { mailbox with sendInProgress := false }
  if more ∨ mailbox.anotherRequest then
    (.none, { mailbox with anotherRequest := false }, .check .entry :: fs)
  else (.none, mailbox, fs)

/-- The next move of a thread with the calls `fs`; `none` where the choice does not apply. -/
def move (mailbox : Mailbox) (t : Thread) :
    List Frame → Choice → Option (LockOp × Mailbox × List Frame)
  | [], c => if t = .sweep then none else call mailbox c
  | .api pc :: fs, c => api mailbox fs pc c
  | .check pc :: fs, c => check mailbox fs pc c
  | .mailboxCallback more :: fs, .go => some (mailboxCallback mailbox more fs)
  | .userCallback :: fs, .go => some (.none, mailbox, fs)
  | .userCallback :: fs, .call => some (.none, mailbox, .api .enter :: .userCallback :: fs)
  | .userCallback :: fs, .check => some (.none, mailbox, .check .entry :: .userCallback :: fs)
  | [.locking], .go => some (.lock .pending, mailbox, [.scanning])
  -- an expired request of the mailbox, or of the application
  | [.scanning], .mailbox _ => some (.none, mailbox, [.mailboxCallback false, .scanning])
  | [.scanning], .user => some (.none, mailbox, [.userCallback, .scanning])
  | [.scanning], .go => some (.unlock .pending, mailbox, [.locking])
  | _, _ => none

structure State where
  mutex : Lock → RMutex Thread
  mailbox : Mailbox
  stack : Thread → List Frame

namespace State

/-- Nobody has called anything; the sweep is about to lock. -/
def init : State :=
  ⟨fun _ => RMutex.free, ⟨false, false, false⟩, fun t => if t = .sweep then [.locking] else []⟩

/-- The locks after an operation of `t`; `none` while `t` is blocked. -/
def operate (s : State) (t : Thread) : LockOp → Option (Lock → RMutex Thread)
  | .none => some s.mutex
  | .lock l => ((s.mutex l).lock t).map fun m => Function.update s.mutex l m
  | .unlock l => some (Function.update s.mutex l (s.mutex l).unlock)

/-- One step of a thread. -/
def step (s : State) (a : Thread × Choice) : Option State := do
  let (op, mailbox, fs) ← move s.mailbox a.1 (s.stack a.1) a.2
  let mutex ← s.operate a.1 op
  return ⟨mutex, mailbox, Function.update s.stack a.1 fs⟩

/-- The lock a thread stands at. -/
def wants (s : State) (t : Thread) : Option Lock :=
  match s.stack t with
  | .api .enter :: _ => some .client
  | .api .add :: _ => some .pending
  | .api .remove :: _ => some .pending
  | .locking :: _ => some .pending
  | _ => none

/-- The thread that holds a lock. -/
def owner (s : State) (l : Lock) : Option Thread := (s.mutex l).owner

/-- Threads wait in a circle, each for a lock the next one holds. -/
def Deadlocked (s : State) : Prop := ∃ t, Relation.TransGen (WaitsFor s.wants s.owner) t t

/-- A callback that the sweep runs submits a request: the application's own does, or the mailbox
check that follows an expired one does. -/
def Submits (s : State) (a : Thread × Choice) : Prop :=
  a.1 = .sweep ∧ ((∃ fs, s.stack .sweep = .userCallback :: fs ∧ a.2 = .call)
    ∨ ∃ fs, s.stack .sweep = .check .create :: fs ∧ a.2 = .go)

end State

/-! ## What a thread holds -/

/-- The locks a submitter holds: `client->mux` from its first lock on, `pending->mux` inside the two
list operations. -/
def ApiPc.holds : ApiPc → Lock → Bool
  | .enter, _ => false
  | .added, .pending => true
  | .removed, .pending => true
  | _, .client => true
  | _, .pending => false

/-- The locks a thread holds, by its calls; the sweep holds `pending->mux` from its lock on. -/
def held (t : Thread) (fs : List Frame) (l : Lock) : Bool :=
  match fs with
  | .api pc :: _ => pc.holds l
  | fs => t = .sweep ∧ l = .pending ∧ fs ≠ [.locking]

def Frame.isApi : Frame → Bool
  | .api _ => true
  | _ => false

/-- The calls of a sweep that has submitted nothing. -/
def SweepStack : List Frame → Prop
  | [.locking] => True
  | [.scanning] => True
  | .check pc :: fs => pc ≠ .called ∧ fs ≠ [.locking] ∧ SweepStack fs
  | .mailboxCallback _ :: fs => fs ≠ [.locking] ∧ SweepStack fs
  | .userCallback :: fs => fs ≠ [.locking] ∧ SweepStack fs
  | _ => False

/-- A submission makes no call of its own; the sweep has none; and no other thread sweeps. -/
structure Shape (t : Thread) (fs : List Frame) : Prop where
  tail : ∀ f ∈ fs.tail, f.isApi = false
  sweep : t = .sweep → SweepStack fs
  app : t ≠ .sweep → .locking ∉ fs ∧ .scanning ∉ fs

/-- What a move does to the locks its thread holds. -/
def Effect (t : Thread) (fs fs' : List Frame) : LockOp → Prop
  | .none => ∀ l, held t fs' l = held t fs l
  | .lock l => held t fs l = false ∧ held t fs' l = true ∧ ∀ l' ≠ l, held t fs' l' = held t fs l'
  | .unlock l => held t fs l = true ∧ held t fs' l = false ∧ ∀ l' ≠ l, held t fs' l' = held t fs l'

theorem Lock.forall {p : Lock → Prop} : (∀ l, p l) ↔ p .client ∧ p .pending :=
  ⟨fun h => ⟨h _, h _⟩, fun h l => by cases l <;> simp [h]⟩

@[simp] theorem held_api (t : Thread) (pc : ApiPc) (fs : List Frame) (l : Lock) :
    held t (.api pc :: fs) l = pc.holds l := rfl

/-- Outside a submission only the sweep holds a lock. -/
theorem held_of_not_api {t : Thread} {fs : List Frame} (h : ∀ f ∈ fs, f.isApi = false) (l : Lock) :
    held t fs l = decide (t = .sweep ∧ l = .pending ∧ fs ≠ [.locking]) := by
  match fs, h with
  | [], _ => rfl
  | .api pc :: fs, h => exact absurd (h (.api pc) List.mem_cons_self) (by simp [Frame.isApi])
  | .check pc :: fs, _ => rfl
  | .mailboxCallback more :: fs, _ => rfl
  | .userCallback :: fs, _ => rfl
  | .locking :: fs, _ => rfl
  | .scanning :: fs, _ => rfl

/-- Between two stacks without a submission no lock changes hands, as long as the sweep stays on
its side of its lock. -/
theorem effect_none {t : Thread} {fs fs' : List Frame} (h : ∀ f ∈ fs, f.isApi = false)
    (h' : ∀ f ∈ fs', f.isApi = false) (hsweep : t = .sweep → fs ≠ [.locking] ∧ fs' ≠ [.locking]) :
    Effect t fs fs' .none := by
  intro l
  rw [held_of_not_api h, held_of_not_api h']
  by_cases ht : t = .sweep
  · simp [hsweep ht]
  · simp [ht]

/-- A submitter's move takes or gives back exactly the locks its place says. -/
theorem api_effect {mailbox mailbox' : Mailbox} {t : Thread} (ht : t ≠ .sweep) {fs fs' : List Frame}
    {pc : ApiPc} {c : Choice} {op : LockOp} (hshape : Shape t (.api pc :: fs))
    (h : api mailbox fs pc c = some (op, mailbox', fs')) :
    Effect t (.api pc :: fs) fs' op ∧ Shape t fs' := by
  have hfs : ∀ f ∈ fs, f.isApi = false := hshape.tail
  have happ : .locking ∉ fs ∧ .scanning ∉ fs := by simpa using hshape.app ht
  have hnot : ∀ {fs : List Frame}, (∀ f ∈ fs, f.isApi = false) → ∀ l, held t fs l = false := by
    intro fs hfs l
    rw [held_of_not_api hfs]
    simp [ht]
  unfold api at h
  split at h
  case h_12 ok =>
    -- the call returns; `tr50_mailbox_check` goes on behind it
    split at h <;> obtain ⟨rfl, rfl, rfl⟩ := h
    · rename_i rest
      have hrest : ∀ f ∈ rest, f.isApi = false := fun f hf => hfs f (List.mem_cons_of_mem _ hf)
      have happ' : .locking ∉ rest ∧ .scanning ∉ rest := by simpa using happ
      cases ok with
      | true =>
        refine ⟨?_, fun f hf => hrest f (List.mem_of_mem_tail hf), fun h => absurd h ht,
          fun _ => happ'⟩
        simp [Effect, Lock.forall, hnot hrest, ApiPc.holds]
      | false =>
        refine ⟨?_, hrest, fun h => absurd h ht, fun _ => by simpa using happ'⟩
        have hend : ∀ f ∈ .check .endError :: rest, f.isApi = false := by
          simpa [Frame.isApi] using hrest
        simp [Effect, Lock.forall, hnot hend, ApiPc.holds]
    · refine ⟨?_, fun f hf => hfs f (List.mem_of_mem_tail hf), fun h => absurd h ht, fun _ => happ⟩
      simp [Effect, Lock.forall, hnot hfs, ApiPc.holds]
  all_goals first
    | (obtain ⟨rfl, rfl, rfl⟩ := h
       exact ⟨by simp [Effect, Lock.forall, ApiPc.holds], by simpa using hfs,
         fun h => absurd h ht, fun _ => by simpa using happ⟩)
    | cases h

/-- Starting a submission takes no lock yet. -/
theorem effect_enter {t : Thread} (ht : t ≠ .sweep) {fs fs' : List Frame}
    (h : ∀ f ∈ fs, f.isApi = false) : Effect t fs (.api .enter :: fs') .none := by
  intro l
  rw [held_of_not_api h, held_api]
  simp [ht, ApiPc.holds]

/-- A move of `tr50_mailbox_check` touches no lock; in the sweep it submits nothing as long as it
does not get to its request. -/
theorem check_effect {mailbox mailbox' : Mailbox} {t : Thread} {fs fs' : List Frame} {pc : CheckPc}
    {c : Choice} {op : LockOp} (hshape : Shape t (.check pc :: fs))
    (hgood : t = .sweep → ¬ (pc = .create ∧ c = .go))
    (h : check mailbox fs pc c = some (op, mailbox', fs')) :
    Effect t (.check pc :: fs) fs' op ∧ Shape t fs' := by
  have hfs : ∀ f ∈ fs, f.isApi = false := hshape.tail
  have happ : t ≠ .sweep → .locking ∉ fs ∧ .scanning ∉ fs := fun ht => by simpa using hshape.app ht
  have hbefore : ∀ f ∈ .check pc :: fs, f.isApi = false := by simpa [Frame.isApi] using hfs
  have hpop : Effect t (.check pc :: fs) fs .none ∧ Shape t fs :=
    ⟨effect_none hbefore hfs fun ht => ⟨by simp, (hshape.sweep ht).2.1⟩,
      fun f hf => hfs f (List.mem_of_mem_tail hf), fun ht => (hshape.sweep ht).2.2, happ⟩
  have hnext : ∀ pc', pc' ≠ .called →
      Effect t (.check pc :: fs) (.check pc' :: fs) .none ∧ Shape t (.check pc' :: fs) :=
    fun pc' hpc => ⟨effect_none hbefore (by simpa [Frame.isApi] using hfs) fun _ => by simp,
      hfs, fun ht => ⟨hpc, (hshape.sweep ht).2⟩, fun ht => by simpa using happ ht⟩
  unfold check at h
  split at h
  · split_ifs at h <;> obtain ⟨rfl, rfl, rfl⟩ := h
    · exact hpop
    · exact hpop
    · exact hnext .create (by decide)
  · obtain ⟨rfl, rfl, rfl⟩ := h
    have ht : t ≠ .sweep := fun ht => hgood ht ⟨rfl, rfl⟩
    exact ⟨effect_enter ht hbefore, by simpa [Frame.isApi] using hfs, fun h => absurd h ht,
      fun ht => by simpa using happ ht⟩
  · obtain ⟨rfl, rfl, rfl⟩ := h
    exact hnext .endError (by decide)
  · obtain ⟨rfl, rfl, rfl⟩ := h
    exact hpop
  · cases h

/-- **A move takes or gives back exactly the locks its thread's calls say**, and the sweep submits
nothing unless its callback does. -/
theorem move_effect {mailbox mailbox' : Mailbox} {t : Thread} {fs fs' : List Frame} {c : Choice}
    {op : LockOp} (hshape : Shape t fs)
    (hgood : t = .sweep → ¬ ((∃ rest, fs = .userCallback :: rest ∧ c = .call)
      ∨ ∃ rest, fs = .check .create :: rest ∧ c = .go))
    (h : move mailbox t fs c = some (op, mailbox', fs')) :
    Effect t fs fs' op ∧ Shape t fs' := by
  unfold move at h
  split at h
  · split_ifs at h with ht
    have hnil : ∀ f ∈ ([] : List Frame), f.isApi = false := by simp
    unfold call at h
    split at h <;> obtain ⟨rfl, rfl, rfl⟩ := h
    · exact ⟨effect_enter ht hnil, by simp, fun h => absurd h ht, by simp⟩
    · exact ⟨effect_none hnil (by simp [Frame.isApi]) fun h => absurd h ht, by simp,
        fun h => absurd h ht, by simp⟩
    · exact ⟨effect_none hnil (by simp [Frame.isApi]) fun h => absurd h ht, by simp,
        fun h => absurd h ht, by simp⟩
    · exact ⟨effect_none hnil hnil fun h => absurd h ht, by simp, fun h => absurd h ht, by simp⟩
  · rename_i pc fs
    have ht : t ≠ .sweep := fun ht => absurd (hshape.sweep ht) id
    exact api_effect ht hshape h
  · rename_i pc fs
    exact check_effect hshape (fun ht hcon => hgood ht (Or.inr ⟨fs, by rw [hcon.1], hcon.2⟩)) h
  · rename_i more fs
    have hfs : ∀ f ∈ fs, f.isApi = false := hshape.tail
    have happ : t ≠ .sweep → .locking ∉ fs ∧ .scanning ∉ fs :=
      fun ht => by simpa using hshape.app ht
    have hbefore : ∀ f ∈ .mailboxCallback more :: fs, f.isApi = false := by
      simpa [Frame.isApi] using hfs
    unfold mailboxCallback at h
    simp only at h
    split_ifs at h <;> obtain ⟨rfl, rfl, rfl⟩ := h
    · exact ⟨effect_none hbefore (by simpa [Frame.isApi] using hfs) fun _ => by simp, hfs,
        fun ht => ⟨by simp, hshape.sweep ht⟩, fun ht => by simpa using happ ht⟩
    · exact ⟨effect_none hbefore hfs fun ht => ⟨by simp, (hshape.sweep ht).1⟩,
        fun f hf => hfs f (List.mem_of_mem_tail hf), fun ht => (hshape.sweep ht).2, happ⟩
  · rename_i fs
    have hfs : ∀ f ∈ fs, f.isApi = false := hshape.tail
    obtain ⟨rfl, rfl, rfl⟩ := h
    exact ⟨effect_none (by simpa [Frame.isApi] using hfs) hfs fun ht =>
      ⟨by simp, (hshape.sweep ht).1⟩, fun f hf => hfs f (List.mem_of_mem_tail hf),
      fun ht => (hshape.sweep ht).2, fun ht => by simpa using hshape.app ht⟩
  · rename_i fs
    obtain ⟨rfl, rfl, rfl⟩ := h
    have ht : t ≠ .sweep := fun ht => hgood ht (Or.inl ⟨fs, rfl, rfl⟩)
    have hfs : ∀ f ∈ .userCallback :: fs, f.isApi = false := by
      simpa [Frame.isApi] using hshape.tail
    exact ⟨effect_enter ht hfs, hfs, fun h => absurd h ht, fun ht => by simpa using hshape.app ht⟩
  · rename_i fs
    obtain ⟨rfl, rfl, rfl⟩ := h
    have hfs : ∀ f ∈ .userCallback :: fs, f.isApi = false := by
      simpa [Frame.isApi] using hshape.tail
    exact ⟨effect_none hfs (by simpa [Frame.isApi] using hfs) fun _ => by simp, hfs,
      fun ht => ⟨by decide, by simp, hshape.sweep ht⟩, fun ht => by simpa using hshape.app ht⟩
  · obtain ⟨rfl, rfl, rfl⟩ := h
    obtain rfl : t = .sweep := by
      by_contra ht
      exact (hshape.app ht).1 (by simp)
    exact ⟨by simp [Effect, held], by simp, fun _ => trivial, fun h => absurd rfl h⟩
  · obtain ⟨rfl, rfl, rfl⟩ := h
    exact ⟨effect_none (by simp [Frame.isApi]) (by simp [Frame.isApi]) fun _ => by simp,
      by simp [Frame.isApi], fun _ => ⟨by simp, trivial⟩, fun ht => by simpa using hshape.app ht⟩
  · obtain ⟨rfl, rfl, rfl⟩ := h
    exact ⟨effect_none (by simp [Frame.isApi]) (by simp [Frame.isApi]) fun _ => by simp,
      by simp [Frame.isApi], fun _ => ⟨by simp, trivial⟩, fun ht => by simpa using hshape.app ht⟩
  · obtain ⟨rfl, rfl, rfl⟩ := h
    obtain rfl : t = .sweep := by
      by_contra ht
      exact (hshape.app ht).2 (by simp)
    exact ⟨by simp [Effect, held], by simp, fun _ => trivial, fun h => absurd rfl h⟩
  · cases h

/-! ## Runs -/

/-- The locks are where the calls say, and none is taken twice. -/
structure Inv (s : State) : Prop where
  shape : ∀ t, Shape t (s.stack t)
  owns : ∀ t l, s.owner l = some t ↔ held t (s.stack t) l
  once : ∀ t l, s.owner l = some t → (s.mutex l).depth = 1

theorem inv_init : Inv State.init where
  shape t := by
    by_cases ht : t = .sweep
    · subst ht
      exact ⟨by simp [State.init], fun _ => trivial, fun h => absurd rfl h⟩
    · simp only [State.init, ht, if_false]
      exact ⟨by simp, fun h => absurd h ht, by simp⟩
  owns t l := by
    by_cases ht : t = .sweep <;> simp [State.owner, State.init, RMutex.free, held, ht]
  once t l h := by cases h

/-- The locks follow the calls through a move. -/
theorem operate_inv {s : State} (hs : Inv s) {t : Thread} {fs' : List Frame} {op : LockOp}
    {mutex : Lock → RMutex Thread} {mailbox : Mailbox} (heffect : Effect t (s.stack t) fs' op)
    (hshape : Shape t fs') (h : s.operate t op = some mutex) :
    Inv ⟨mutex, mailbox, Function.update s.stack t fs'⟩ := by
  have hshapes : ∀ u, Shape u (Function.update s.stack t fs' u) := by
    intro u
    by_cases hu : u = t
    · subst hu
      simpa using hshape
    · simpa [hu] using hs.shape u
  cases op with
  | none =>
    obtain rfl := Option.some.inj h
    refine ⟨hshapes, fun u l => ?_, hs.once⟩
    by_cases hu : u = t
    · subst hu
      simpa [State.owner, heffect l] using hs.owns u l
    · simpa [State.owner, hu] using hs.owns u l
  | lock l =>
    obtain ⟨hbefore, hafter, hother⟩ := heffect
    obtain ⟨m, hm, rfl⟩ := Option.map_eq_some_iff.mp h
    have hnot : (s.mutex l).owner ≠ some t := fun h => by simpa [hbefore] using (hs.owns t l).mp h
    obtain ⟨hfree, rfl⟩ := RMutex.lock_eq_some hm hnot
    refine ⟨hshapes, fun u l' => ?_, fun u l' => ?_⟩
    · by_cases hl : l' = l
      · subst hl
        by_cases hu : u = t
        · subst hu
          simp [State.owner, hafter]
        · have : ¬ held u (s.stack u) l' := fun h => by
            simpa [State.owner, hfree] using (hs.owns u l').mpr h
          simp [State.owner, hu, Ne.symm hu, this]
      · by_cases hu : u = t
        · subst hu
          simpa [State.owner, hl, hother l' hl] using hs.owns u l'
        · simpa [State.owner, hl, hu] using hs.owns u l'
    · by_cases hl : l' = l
      · subst hl
        simp
      · simpa [State.owner, hl] using hs.once u l'
  | unlock l =>
    obtain ⟨hbefore, hafter, hother⟩ := heffect
    obtain rfl := Option.some.inj h
    have howner : s.owner l = some t := (hs.owns t l).mpr hbefore
    refine ⟨hshapes, fun u l' => ?_, fun u l' => ?_⟩
    · by_cases hl : l' = l
      · subst hl
        by_cases hu : u = t
        · subst hu
          simp [State.owner, RMutex.unlock_of_depth (hs.once u l' howner), RMutex.free, hafter]
        · have : ¬ held u (s.stack u) l' := fun h =>
            hu (Option.some.inj (((hs.owns u l').mpr h).symm.trans howner))
          simp [State.owner, RMutex.unlock_of_depth (hs.once t l' howner), RMutex.free, hu, this]
      · by_cases hu : u = t
        · subst hu
          simpa [State.owner, hl, hother l' hl] using hs.owns u l'
        · simpa [State.owner, hl, hu] using hs.owns u l'
    · by_cases hl : l' = l
      · subst hl
        simp [State.owner, RMutex.unlock_of_depth (hs.once t l' howner), RMutex.free]
      · simpa [State.owner, hl] using hs.once u l'

theorem inv_step {s s' : State} {a : Thread × Choice} (hs : Inv s) (hgood : ¬ s.Submits a)
    (h : s.step a = some s') : Inv s' := by
  obtain ⟨t, c⟩ := a
  obtain ⟨⟨op, mailbox, fs'⟩, hmove, h⟩ := Option.bind_eq_some_iff.mp h
  obtain ⟨mutex, hoperate, h⟩ := Option.bind_eq_some_iff.mp h
  obtain rfl := Option.some.inj h
  have hnot : t = .sweep → ¬ ((∃ rest, s.stack t = .userCallback :: rest ∧ c = .call)
      ∨ ∃ rest, s.stack t = .check .create :: rest ∧ c = .go) := by
    rintro rfl hcon
    exact hgood ⟨rfl, hcon⟩
  obtain ⟨heffect, hshape⟩ := move_effect (hs.shape t) hnot hmove
  exact operate_inv hs heffect hshape hoperate

/-- The order the locks are taken in. -/
def rank : Lock → ℕ
  | .client => 0
  | .pending => 1

/-- Whoever waits for `client->mux` holds nothing, and whoever waits for `pending->mux` holds at
most `client->mux`. -/
theorem ordered_of_inv {s : State} (hs : Inv s) : Ordered s.wants s.owner rank := by
  intro t l l' hwants howner
  have hheld := (hs.owns t l').mp howner
  have hshape := hs.shape t
  unfold State.wants at hwants
  split at hwants
  · rename_i hstack
    obtain rfl := Option.some.inj hwants
    rw [hstack] at hheld
    cases l' <;> cases hheld
  · rename_i hstack
    obtain rfl := Option.some.inj hwants
    rw [hstack] at hheld
    cases l' <;> first | exact Nat.zero_lt_one | cases hheld
  · rename_i hstack
    obtain rfl := Option.some.inj hwants
    rw [hstack] at hheld
    cases l' <;> first | exact Nat.zero_lt_one | cases hheld
  · -- the sweep at its lock holds nothing, and only the sweep gets there
    rename_i rest hstack
    rw [hstack] at hheld hshape
    have ht : t = .sweep := by
      by_contra ht
      exact (hshape.app ht).1 (by simp)
    cases rest with
    | nil => simp [held] at hheld
    | cons f rest => exact absurd (hshape.sweep ht) id
  · cases hwants

end Deadlock

open Deadlock

/-- **As long as no callback that the sweep runs submits a request, no reachable state has threads
that wait in a circle.** -/
theorem not_deadlocked {s : State}
    (h : Reach State.step (fun s a => ¬ s.Submits a) State.init s) : ¬ s.Deadlocked := by
  rintro ⟨t, hcycle⟩
  have hs : Inv s := h.invariant inv_init fun s a s' hs hgood hstep => inv_step hs hgood hstep
  exact acyclic_of_ordered (ordered_of_inv hs) t hcycle

/-- …as when two threads call `tr50_api_call_async`, and the second waits for the first. -/
theorem not_deadlocked_two_calls : ∃ s, Reach State.step (fun s a => ¬ s.Submits a) State.init s
    ∧ WaitsFor s.wants s.owner (.app 1) (.app 0) ∧ ¬ s.Deadlocked := by
  have heval : (([(.app 0, .call), (.app 1, .call), (.app 0, .go)].foldlM State.step State.init).map
      fun s => (s.wants (.app 1), s.owner .client)) = some (some .client, some (.app 0)) := by
    decide +kernel
  obtain ⟨s, hs, hview⟩ := Option.map_eq_some_iff.mp heval
  obtain ⟨hwants, howner⟩ := Prod.mk.inj hview
  have hreach : Reach State.step (fun s a => ¬ s.Submits a) State.init s :=
    Reach.of_foldlM _ (by simp [State.Submits]) hs
  exact ⟨s, hreach, ⟨by decide, .client, hwants, howner⟩, not_deadlocked hreach⟩

/-- A mailbox check is pending and another is recorded; a submitter with `client->mux` is about to
add its request when the sweep expires the check, and its callback checks the mailbox again. -/
def expiredCheck : List (Thread × Choice) :=
  [(.app 1, .check), (.app 1, .go), (.app 1, .go), (.app 1, .go), (.app 1, .go), (.app 1, .go),
    (.app 1, .go), (.app 1, .go), (.app 1, .go), (.app 1, .check), (.app 1, .go),
    (.app 0, .call), (.app 0, .go), (.app 0, .go),
    (.sweep, .go), (.sweep, .mailbox false), (.sweep, .go), (.sweep, .go), (.sweep, .go)]

/-- **The sweep and a submitter can wait for each other**: the sweep runs the mailbox callback with
`pending->mux` held. -/
theorem deadlocked_expiredCheck :
    ∃ s, Reach State.step (fun _ _ => True) State.init s ∧ s.Deadlocked := by
  have heval : ((expiredCheck.foldlM State.step State.init).map fun s =>
      (s.wants (.app 0), s.owner .pending, s.wants .sweep, s.owner .client))
      = some (some .pending, some .sweep, some .client, some (.app 0)) := by decide +kernel
  obtain ⟨s, hs, hview⟩ := Option.map_eq_some_iff.mp heval
  obtain ⟨hwants, howner, hwants', howner'⟩ := by simpa only [Prod.mk.injEq] using hview
  have happ : WaitsFor s.wants s.owner (.app 0) .sweep := ⟨by decide, .pending, hwants, howner⟩
  have hsweep : WaitsFor s.wants s.owner .sweep (.app 0) := ⟨by decide, .client, hwants', howner'⟩
  exact ⟨s, Reach.of_foldlM _ (by simp) hs, .app 0, .tail (.single happ) hsweep⟩

end Tr50
