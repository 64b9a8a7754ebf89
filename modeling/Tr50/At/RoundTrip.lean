import Tr50.Api.Ids
import Tr50.Api.Submit
import Tr50.Api.Outstanding
import Tr50.At.Storage

/-!
# At/RoundTrip — what `AT#DWRCV` returns

The modem sends requests through a client, and fetches their results by id.  `AT#DWSEND` and
`AT#DWSENDR` print the id that `tr50_api_call_async` has given the request; `_tr50_at_send_reply`,
the callback of all of them, files every result under the id `1`.  `RoundTrip` is what the modem
relies on; it holds in runs in which every result is that of the request with the id `1`
(`roundTrip`), but a second command does not find its own (`not_roundTrip_second`).

The storage has no lock.  Replies and method calls are put into it by the receive thread, timeouts
by the sweep, and the modem fetches at the same time: a put looks for a free slot first and writes
it later, and a get frees a slot that it has found before.  What has found its slot is `Apart` from
the rest of the storage as long as nothing else looks for one.

The state remembers which id each request was given, which requests were answered with it, and whose
results were stored and fetched.
-/

namespace Tr50

open Machinery

/-! ## Commands -/

/-- What the commands send with: their reply in delimited form, or raw. -/
inductive SendMode
  | delimited
  | raw
deriving DecidableEq, Repr

/-- `(int)custom` -/
def SendMode.custom : SendMode → ℤ
  | .delimited => tr50AtSendModeDelimited
  | .raw => tr50AtSendModeRaw

theorem SendMode.custom_ne_method (mode : SendMode) : mode.custom ≠ tr50AtSendModeMethod := by
  cases mode <;> decide

/-- `AT#DWRCV` and `AT#DWRCVR` -/
def SendMode.receive : SendMode → AtTable → List UInt8 → List UInt8 × AtTable
  | .delimited => tr50AtCmdDwrcvSet
  | .raw => tr50AtCmdDwrcvrSet

theorem SendMode.receive_eq (mode : SendMode) (table : AtTable) (msgIdStr : List UInt8) :
    mode.receive table msgIdStr = tr50AtCmdReceive table mode.custom (atoi msgIdStr) := by
  cases mode <;> rfl

/-- The callbacks of the wrapper's requests. -/
inductive AtCallback
  | sendReply (mode : SendMode)
  | other
deriving DecidableEq, Repr

/-- `AT#DWSEND=0`, `AT#DWSEND=1` and `AT#DWSENDR`, behind the checks of what they are given. -/
inductive AtSend
  | normal
  | method (timeout : List UInt8)
  | raw

def AtSend.mode : AtSend → SendMode
  | .raw => .raw
  | _ => .delimited

def AtSend.timeout : AtSend → ℤ
  | .method timeout => toInt32 (atoi timeout + 5000)
  | _ => 30000

/-- A command that has printed its id. -/
structure AtAnswer where
  handle : ℕ
  mode : SendMode
  id : ℤ
deriving DecidableEq, Repr

/-- A line for the `unsol_callback`; the length may be left unset. -/
structure AtRing where
  mode : ℤ
  msgId : ℤ
  dataLen : Option ℕ
deriving DecidableEq, Repr

/-- The threads that put results. -/
inductive AtThread
  | sweep
  | receive
deriving DecidableEq, Repr

/-- A call of `_tr50_at_storage_put`, with the slot that it has found, if it has. -/
structure AtPutCall where
  message : AtMessage
  mode : ℤ
  id : ℤ
  owner : Option ℕ
  found : Option AtStoring
  /-- The mode that the line behind it shows… -/
  ringMode : ℤ
  /-- …and whether it also goes out where nothing has been stored. -/
  ringAlways : Bool

/-- A call of `_tr50_at_storage_get` that has found its slot. -/
structure AtGetCall where
  id : ℤ
  mode : SendMode
  index : ℕ
deriving DecidableEq, Repr

structure AtSystem where
  client : Tr50Client AtCallback
  table : AtTable
  rings : List AtRing
  storing : AtThread → Option AtPutCall
  getting : Option AtGetCall
  /-- The id that a request was given. -/
  seqIds : ℕ → ℤ
  /-- The last one first. -/
  answered : List AtAnswer
  /-- Whose results have been stored… -/
  stored : List ℕ
  /-- …and fetched. -/
  fetched : List ℕ

inductive AtAction
  /-- A step of the client, whoever makes it. -/
  | client (a : Action AtCallback)
  | dwsend (send : AtSend)
  /-- `_tr50_method_event_execute`, up to its put. -/
  | methodExec (id : List UInt8) (params : Json)
  /-- A put looks for its slot, or writes the one it has found. -/
  | storagePut (thread : AtThread)
  /-- A get looks for its slot… -/
  | dwrcv (msgIdStr : List UInt8)
  | dwrcvr (msgIdStr : List UInt8)
  /-- …and frees it. -/
  | storageGet

namespace AtSystem

def init : AtSystem := ⟨Tr50Client.init, .init, [], fun _ => none, none, fun _ => 0, [], [], []⟩

/-! ## Steps -/

/-- The step lets a call return `0`. -/
def succeeds (client : Tr50Client AtCallback) (call : ApiCall AtCallback) :
    Action AtCallback → Bool
  | .publish ret => call.stage = .publish && ret = 0
  | .remove =>
    match call.stage with
    | .remove _ => (tr50PendingFindAndRemove client.pending call.message.seqId).1.isNone
    | _ => false
  | _ => false

/-- The command whose id is printed. -/
def answer (s : AtSystem) (a : Action AtCallback) : List AtAnswer :=
  match s.client.call with
  | none => []
  | some call =>
    match call.message.callback with
    | some (.sendReply mode) =>
      if succeeds s.client call a then [⟨call.message.handle, mode, call.message.seqId⟩] else []
    | _ => []

/-- The client has gone on. -/
def goOn (s : AtSystem) (answer : List AtAnswer) (client : Tr50Client AtCallback) : AtSystem :=
  { s with
    client
    seqIds := match client.call with
      | some call => Function.update s.seqIds call.message.handle call.message.seqId
      | none => s.seqIds
    answered := answer ++ s.answered }

/-- `err`, the message of a request that has timed out. -/
def timeoutReply (status : ℤ) : Tr50Reply :=
  ⟨.object [(cstring "success".toList, .false),
    (cstring "errorcodes".toList, .array [.number (decimal status)]),
    (cstring "errormessages".toList, .array [.string (cstring "Operation timed out.".toList)])],
    true, 0⟩

/-- A thread is in a put. -/
def putting (s : AtSystem) (thread : AtThread) (put : AtPutCall) : AtSystem :=
  { s with storing := Function.update s.storing thread (some put) }

/-- The put returns. -/
def putReturns (s : AtSystem) (thread : AtThread) (rings : List AtRing) : AtSystem :=
  { s with
    storing := Function.update s.storing thread none
    rings := rings ++ s.rings }

/-- `_tr50_at_storage_put`: the search, and the stores. -/
def storagePut (text : JsonText) (s : AtSystem) (thread : AtThread) : Option AtSystem :=
  (s.storing thread).map fun put =>
    match put.found with
    | some storing =>
      { s.putReturns thread [⟨put.ringMode, put.id, some storing.slot.outputLen⟩] with
        table := s.table.store storing
        stored := put.owner.toList ++ s.stored }
    | none =>
      match tr50AtStorageFind text s.table put.message put.mode put.id put.owner with
      | .ok storing => s.putting thread { put with found := some storing }
      | .error _ =>
        s.putReturns thread (if put.ringAlways then [⟨put.ringMode, put.id, none⟩] else [])

/-- `_tr50_at_send_reply`, up to its put. -/
def tr50AtSendReply (s : AtSystem) (thread : AtThread) (i : Invocation AtCallback) : AtSystem :=
  match i.callback with
  | .other => s
  | .sendReply mode =>
    if i.status ≠ 0 then
      s.putting thread
        ⟨.ofReply (timeoutReply i.status), 0, 1, some i.handle, none, mode.custom, true⟩
    else
      match i.answer with
      | some (.message reply) =>
        s.putting thread ⟨.ofReply reply, mode.custom, 1, some i.handle, none, mode.custom, false⟩
      -- the requests of the wrapper are messages, and so are their replies
      | _ => s

/-- The client has gone on, and called callbacks. -/
def run (s : AtSystem) (thread : AtThread) (client : Tr50Client AtCallback) : AtSystem :=
  let called := client.history.callbacks.take
    (client.history.callbacks.length - s.client.history.callbacks.length)
  called.foldr (fun i s => s.tr50AtSendReply thread i) (s.goOn [] client)

/-- The thread of the step is in a put. -/
def inPut (s : AtSystem) : Action AtCallback → Bool
  | .receive _ _ | .deliver => (s.storing .receive).isSome
  | .visit | .callbackReturn | .api true _ _ _ => (s.storing .sweep).isSome
  | _ => false

def clientStep (inflate : List UInt8 → Option (List UInt8)) (s : AtSystem)
    (a : Action AtCallback) : Option AtSystem :=
  if s.inPut a then none
  else
    match a with
    | .deliver => s.client.deliver.map (s.run .receive)
    | .visit => s.client.visit.map (s.run .sweep)
    | .api inSweep messageType timeout callback =>
      match callback with
      -- by `AT#DWSEND` and `AT#DWSENDR` alone
      | some (.sendReply _) => none
      | _ => (s.client.apiEnter inSweep messageType timeout callback).map (s.goOn [])
    | a => (s.client.step inflate a).map (s.goOn (s.answer a))

/-- What a method call is for: `thingDefKey`, `method`, `params`. -/
def methodCall (params : Json) : Option (List UInt8 × List UInt8 × Json) := do
  let thingDefKey ← tr50JsonGetObjectItemAsString (some params) (cstring "thingDefKey".toList)
  let method ← tr50JsonGetObjectItemAsString (some params) (cstring "method".toList)
  let methodParams ← tr50JsonGetObjectItem (some params) (cstring "params".toList)
  return (thingDefKey, method, methodParams)

/-- `_tr50_method_event_execute`, up to its put. -/
def tr50MethodEventExecute (text : JsonText) (s : AtSystem) (id : List UInt8) (params : Json) :
    AtSystem :=
  let msgId := tr50ApiMsgIdNext s.client.seqId
  let s := s.goOn [] { s.client with seqId := msgId }
  match methodCall params with
  | some (thingDefKey, method, methodParams) =>
    let output := [ch ','].intercalate [cut id, cut thingDefKey, cut method]
      ++ methodParams.child.flatMap fun c => ((itemText text c).map (ch ',' :: ·)).getD []
    -- a method that cannot be stored is acknowledged with the error, and no line goes out
    s.putting .receive
      ⟨.ofText output, tr50AtSendModeMethod, msgId, none, none, tr50AtSendModeMethod, false⟩
  | none => s

/-- `_tr50_at_storage_get`, up to the slot that it finds. -/
def receive (s : AtSystem) (mode : SendMode) (msgIdStr : List UInt8) : Option AtSystem :=
  if s.getting.isSome then none
  else
    match s.table.slots.findIdx? (AtStorage.found (atoi msgIdStr) mode.custom) with
    | none => some s
    | some index => some { s with getting := some ⟨atoi msgIdStr, mode, index⟩ }

/-- A result is fetched. -/
def storageGet (s : AtSystem) : Option AtSystem :=
  s.getting.bind fun get => (s.table.giveUp get.index).map fun p =>
    { s with
      table := p.2
      getting := none
      fetched := p.1.owner.toList ++ s.fetched }

def step (text : JsonText) (inflate : List UInt8 → Option (List UInt8)) (s : AtSystem) :
    AtAction → Option AtSystem
  | .client a => s.clientStep inflate a
  | .dwsend send =>
      (s.client.apiEnter false .obj send.timeout (some (.sendReply send.mode))).map (s.goOn [])
  | .methodExec id params =>
      if s.client.call.isSome ∨ (s.storing .receive).isSome then none
      else some (s.tr50MethodEventExecute text id params)
  | .storagePut thread => s.storagePut text thread
  | .dwrcv msgIdStr => s.receive .delimited msgIdStr
  | .dwrcvr msgIdStr => s.receive .raw msgIdStr
  | .storageGet => s.storageGet

/-! ## What the modem relies on -/

/-- The command that an id stands for: the last one answered with it. -/
def named (s : AtSystem) (id : ℤ) : Option AtAnswer := s.answered.find? (·.id = id)

/-- By the id of a command, and in its own form, its result is fetched… -/
structure RoundTrip (s : AtSystem) : Prop where
  /-- …once it is stored… -/
  returned : ∀ r, s.named r.id = some r → ∀ slot ∈ s.table.slots, slot.isUsed →
    slot.owner = some r.handle →
    ∃ table, tr50AtStorageGet s.table r.id r.mode.custom = some (slot, table)
      ∧ ∀ msgIdStr, atoi msgIdStr = r.id →
        r.mode.receive s.table msgIdStr = (slot.line r.id, table)
  /-- …and never that of another… -/
  own : ∀ r, s.named r.id = some r → ∀ slot table,
    tr50AtStorageGet s.table r.id r.mode.custom = some (slot, table) →
    ∀ handle, slot.owner = some handle → handle = r.handle
  /-- …nor a second time.  It stays until then. -/
  once : (s.fetched ++ s.table.owners).Nodup
  held : ∀ handle ∈ s.stored, handle ∈ s.fetched ++ s.table.owners
  /-- A get that has found its slot returns what one would find now. -/
  getting : ∀ get, s.getting = some get →
    s.table.giveUp get.index = tr50AtStorageGet s.table get.id get.mode.custom

/-! ## Where it holds -/

/-- The step looks for a slot. -/
def searches (s : AtSystem) : AtAction → Bool
  | .storagePut thread => (s.storing thread).any fun put => put.found.isNone
  | .dwrcv _ | .dwrcvr _ => true
  | _ => false

/-- No slot has been found that is still to be written or freed. -/
def Apart (s : AtSystem) : Prop :=
  s.getting = none
  ∧ (∀ put ∈ s.storing .sweep, put.found = none) ∧ ∀ put ∈ s.storing .receive, put.found = none

/-- The put whose slot the step writes. -/
def writes (s : AtSystem) : AtAction → Option AtPutCall
  | .storagePut thread => (s.storing thread).filter fun put => put.found.isSome
  | _ => none

/-- The command that a step answers. -/
def answering (s : AtSystem) : AtAction → List AtAnswer
  | .client a => s.answer a
  | _ => []

/-- A result is that of the request with the id `1`, and nothing is stored under `1`; the text of a
method call whose id is `1` meets no result. -/
def Filed (s : AtSystem) (put : AtPutCall) : Prop :=
  (∀ handle ∈ put.owner, s.seqIds handle = 1
    ∧ (∀ slot ∈ s.table.slots, slot.isUsed → slot.id ≠ 1)
    ∧ ∀ r ∈ s.named 1, r.handle = handle)
  ∧ (put.owner = none → put.id = 1 → ∀ slot ∈ s.table.slots, slot.isUsed → slot.owner = none)

/-- The calls of the storage stay apart, what is written is filed well, and an id that comes round
to `1` meets no other result there. -/
def UnderOne (s : AtSystem) (a : AtAction) : Prop :=
  (s.searches a → s.Apart)
  ∧ (∀ put ∈ s.writes a, s.Filed put)
  ∧ ∀ r ∈ s.answering a, r.id = 1 → ∀ slot ∈ s.table.slots, slot.isUsed →
    ∀ handle ∈ slot.owner, handle = r.handle

instance (s : AtSystem) : Decidable s.Apart := inferInstanceAs (Decidable (_ ∧ _ ∧ _))

instance (s : AtSystem) (put : AtPutCall) : Decidable (s.Filed put) :=
  inferInstanceAs (Decidable (_ ∧ (_ → _ → _)))

instance (s : AtSystem) (a : AtAction) : Decidable (s.UnderOne a) :=
  inferInstanceAs (Decidable (_ ∧ _ ∧ _))

end AtSystem

/-! ## The client -/

namespace Tr50Client

variable {κ : Type} {s t : Tr50Client κ} {a : Action κ}

/-- A new id is that of the call which has just entered. -/
theorem Effect.ids_cases (h : Effect s a t) {p : ℤ × ℕ} (hp : p ∈ t.ids) :
    p ∈ s.ids ∨ p.2 = s.nextHandle ∧ t.nextHandle = s.nextHandle + 1
      ∧ ∃ call, t.call = some call ∧ p = idOf call.message := by
  have htakes := h.takes.ids p hp
  cases h with
  | refuse message ret hcall hhandle hret => exact Or.inl (mem_ids_pending hp)
  | enter call hcall hhandle hid hstage hsweep =>
    rcases List.mem_append.mp hp with hp | hp
    · obtain rfl := List.mem_singleton.mp hp
      exact Or.inr ⟨hhandle, rfl, call, rfl, rfl⟩
    · exact Or.inl (mem_ids_pending hp)
  | _ => exact htakes.imp_right fun h => absurd h.2.2 (Nat.succ_ne_self _).symm

/-- A request in hand was so before, or waited. -/
theorem Effect.delivery_cases (h : Effect s a t) {d : Delivery κ} (hd : t.delivery = some d) :
    s.delivery = some d ∨ idOf d.request ∈ s.ids := by
  cases h with
  | take message seqId data hdelivery hidle hmem hid =>
    obtain rfl := Option.some.inj hd
    exact Or.inr (mem_ids_pending (List.mem_map_of_mem hmem))
  | deliver d' hdelivery => cases hd
  | _ => exact Or.inl hd

/-- A callback that has been called stays so. -/
theorem Effect.callbacks_mono (h : Effect s a t) {handle : ℕ}
    (hh : handle ∈ s.history.callbacks.map (·.handle)) :
    handle ∈ t.history.callbacks.map (·.handle) := by
  cases h with
  | deliver d hdelivery | expire message sweep pending hscan hnext hmem hpending =>
    rw [List.map_append]
    exact List.mem_append_right _ hh
  | _ => exact hh

end Tr50Client

namespace AtSystem

variable {text : JsonText} {inflate : List UInt8 → Option (List UInt8)} {s t : AtSystem}
  {client : Tr50Client AtCallback} {put : AtPut}

/-- The call returns `0`. -/
def ReturnsZero (client next : Tr50Client AtCallback) (call : ApiCall AtCallback) : Prop :=
  next.call = none ∧ next.history.returned
    = ⟨call.message.handle, call.message.messageType, 0⟩ :: client.history.returned

/-- A call succeeds exactly where it returns `0`… -/
theorem apiStep_succeeds (hs : client.Inv) {next : Tr50Client AtCallback}
    {call : ApiCall AtCallback} {a : Action AtCallback} (hcall : client.call = some call)
    (h : client.apiStep call call.stage a = some next) :
    succeeds client call a ↔ ReturnsZero client next call := by
  have hgoes : ∀ (t : Tr50Client AtCallback) stage,
      ¬ ReturnsZero client (t.goOn call stage) call := by
    rintro t stage ⟨hnone, -⟩
    cases hnone
  have hfails : ∀ (t : Tr50Client AtCallback) ret, ret ≠ 0 →
      ¬ ReturnsZero client (t.leave call.message ret) call := by
    rintro t ret hret ⟨-, hreturned⟩
    simp only [Tr50Client.leave, List.cons.injEq, Returned.mk.injEq] at hreturned
    exact hret hreturned.1.2.2
  unfold Tr50Client.apiStep at h
  split at h
  · split_ifs at h with hret <;> obtain rfl := Option.some.inj h
    · exact iff_of_false Bool.false_ne_true (hfails _ _ hret)
    · exact iff_of_false Bool.false_ne_true (hgoes _ _)
  · unfold Tr50Client.apiAdd at h
    split_ifs at h
    obtain rfl := Option.some.inj h
    exact iff_of_false Bool.false_ne_true (hgoes _ _)
  · split_ifs at h with hret <;> obtain rfl := Option.some.inj h
    · exact iff_of_false Bool.false_ne_true (hfails _ _ hret)
    · exact iff_of_false Bool.false_ne_true (hgoes _ _)
  · rename_i hstage
    split_ifs at h with hret <;> obtain rfl := Option.some.inj h
    · exact iff_of_false (by simp [succeeds, hret]) (hgoes _ _)
    · exact iff_of_true (by simp [succeeds, hstage, not_not.mp hret]) ⟨rfl, rfl⟩
  · rename_i ret hstage
    unfold Tr50Client.apiRemove at h
    split_ifs at h
    split at h <;> rename_i hfind <;> obtain rfl := Option.some.inj h
    · exact iff_of_false (by simp [succeeds, hstage, hfind])
        (hfails _ _ ((hs.callPlaced call hcall).remove ret hstage))
    · exact iff_of_true (by simp [succeeds, hstage, hfind]) ⟨rfl, rfl⟩
  · cases h

/-- …whatever the step is. -/
theorem succeeds_iff (hs : client.Inv) {next : Tr50Client AtCallback} {call : ApiCall AtCallback}
    {a : Action AtCallback} (hcall : client.call = some call)
    (h : client.step inflate a = some next) :
    succeeds client call a ↔ ReturnsZero client next call := by
  have hsame : next.call = client.call → ¬ ReturnsZero client next call := fun heq hreturns => by
    cases hcall.symm.trans (heq.symm.trans hreturns.1)
  unfold Tr50Client.step at h
  split at h
  · simp [Tr50Client.apiEnter, hcall] at h
  · simp [hcall] at h
  · simp [hcall] at h
  · refine iff_of_false Bool.false_ne_true (hsame ?_)
    unfold Tr50Client.receive at h
    split at h
    · cases h
    split at h
    · split at h
      · split at h <;> obtain rfl := Option.some.inj h <;> rfl
      · cases h
    all_goals
      obtain rfl := Option.some.inj h
      rfl
  · obtain ⟨d, -, rfl⟩ := Option.map_eq_some_iff.mp h
    exact iff_of_false Bool.false_ne_true (hsame rfl)
  · split_ifs at h
    obtain rfl := Option.some.inj h
    exact iff_of_false Bool.false_ne_true (hsame rfl)
  · refine iff_of_false Bool.false_ne_true (hsame ?_)
    unfold Tr50Client.visit at h
    split at h
    · obtain ⟨m, -, rfl⟩ := Option.map_eq_some_iff.mp h
      unfold Tr50Client.visitMessage
      split <;> rfl
    · obtain rfl := Option.some.inj h
      rfl
    · cases h
  · refine iff_of_false Bool.false_ne_true (hsame ?_)
    unfold Tr50Client.callbackReturn at h
    split at h
    · split_ifs at h
      obtain rfl := Option.some.inj h
      rfl
    · cases h
  · rw [hcall] at h
    exact apiStep_succeeds hs hcall h

/-- **A command is answered exactly where its call returns `0`**, and with the id of its request. -/
theorem mem_answer_iff (hs : s.client.Inv) {a : Action AtCallback}
    (h : s.client.step inflate a = some client) {r : AtAnswer} :
    r ∈ s.answer a ↔ ∃ call, s.client.call = some call ∧ ReturnsZero s.client client call
      ∧ call.message.callback = some (.sendReply r.mode)
      ∧ (r.id, r.handle) = Tr50Client.idOf call.message := by
  cases hcall : s.client.call with
  | none => simp [answer, hcall]
  | some call =>
    have hiff := succeeds_iff hs hcall h
    simp only [answer, hcall, Option.some.injEq, exists_eq_left', Tr50Client.idOf, Prod.mk.injEq]
    cases hcallback : call.message.callback with
    | none => simp
    | some callback =>
      cases callback with
      | other => simp
      | sendReply mode =>
        by_cases hsucceeds : succeeds s.client call a
        · simp only [hsucceeds, if_true, List.mem_singleton, hiff.mp hsucceeds, true_and,
            Option.some.injEq, AtCallback.sendReply.injEq]
          cases r
          simp only [AtAnswer.mk.injEq]
          tauto
        · have hnot : ¬ ReturnsZero s.client client call := fun h => hsucceeds (hiff.mpr h)
          simp [hsucceeds, hnot]

/-! ## The invariant -/

/-- The request whose result a thread puts. -/
def putOwner (s : AtSystem) (thread : AtThread) : List ℕ :=
  ((s.storing thread).bind (·.owner)).toList

/-- The requests whose results are on their way into the table. -/
def underway (s : AtSystem) : List ℕ := s.putOwner .sweep ++ s.putOwner .receive

/-- A put, and the other one. -/
theorem underway_perm (s : AtSystem) (thread : AtThread) (rings : List AtRing) :
    s.underway.Perm (s.putOwner thread ++ (s.putReturns thread rings).underway) := by
  cases thread with
  | sweep => exact .refl _
  | receive =>
    refine List.perm_append_comm.trans ?_
    simp [underway, putOwner, putReturns, Function.update]

theorem underway_putting (s : AtSystem) (thread : AtThread) (put : AtPutCall) :
    (s.putting thread put).underway.Perm
      (put.owner.toList ++ (s.putReturns thread []).underway) := by
  have hperm := (s.putting thread put).underway_perm thread []
  simpa [underway, putOwner, putting, putReturns] using hperm

/-- Where the thread was in no put, its own is added… -/
theorem underway_putting_of_none {thread : AtThread} (put : AtPutCall)
    (hnone : s.storing thread = none) :
    (s.putting thread put).underway.Perm (put.owner.toList ++ s.underway) := by
  have hperm := s.underway_perm thread []
  rw [putOwner, hnone, Option.bind_none, Option.toList_none, List.nil_append] at hperm
  exact (s.underway_putting thread put).trans (hperm.symm.append_left _)

/-- …and where it goes on with its own nothing is. -/
theorem underway_putting_of_some {thread : AtThread} {put put' : AtPutCall}
    (hput : s.storing thread = some put) (howner : put'.owner = put.owner) :
    (s.putting thread put').underway.Perm s.underway := by
  have hperm := s.underway_perm thread []
  rw [putOwner, hput, Option.bind_some, ← howner] at hperm
  exact (s.underway_putting thread put').trans hperm.symm

/-- Everything that names a request agrees on its id; what is stored of a request is all that is
stored under `1`, and is that of the command which `1` stands for; the slots that puts and gets have
found stay as they found them. -/
structure Kept (s : AtSystem) : Prop where
  inv : s.client.Inv
  callbackOnce : s.client.CallbackOnce
  ids : ∀ p ∈ s.client.ids, p.1 = s.seqIds p.2 ∧ p.2 < s.client.nextHandle
  taken : ∀ d, s.client.delivery = some d →
    d.request.seqId = s.seqIds d.request.handle ∧ d.request.handle < s.client.nextHandle
  answered : ∀ r ∈ s.answered, r.id = s.seqIds r.handle ∧ r.handle < s.client.nextHandle
  called : ∀ handle ∈ s.fetched ++ (s.underway ++ s.table.owners),
    handle ∈ s.client.history.callbacks.map (·.handle)
  once : (s.fetched ++ (s.underway ++ s.table.owners)).Nodup
  held : ∀ handle ∈ s.stored, handle ∈ s.fetched ++ s.table.owners
  stored : ∀ slot ∈ s.table.slots, slot.isUsed → ∀ handle, slot.owner = some handle →
    (slot.id = 1 ∧ slot.mode ≠ tr50AtSendModeMethod)
    ∧ (s.seqIds handle = 1 ∧ handle < s.client.nextHandle)
    ∧ ∀ r ∈ s.named 1, r.handle = handle
  alone : ∀ slot ∈ s.table.slots, slot.isUsed → slot.owner ≠ none →
    ∀ other ∈ s.table.slots, other.isUsed → other.id = 1 → other = slot
  putting : ∀ thread put, s.storing thread = some put → ∀ handle, put.owner = some handle →
    (put.id = 1 ∧ put.mode ≠ tr50AtSendModeMethod) ∧ handle < s.client.nextHandle
  found : ∀ thread put, s.storing thread = some put → ∀ storing, put.found = some storing →
    AtTable.Finds s.table put.mode put.id put.owner storing
    ∧ (s.getting = none ∧ ∀ other ≠ thread, ∀ put' ∈ s.storing other, put'.found = none)
  getting : ∀ get, s.getting = some get →
    s.table.slots.findIdx? (AtStorage.found get.id get.mode.custom) = some get.index

theorem kept_init : Kept init :=
  ⟨Tr50Client.inv_init, List.nodup_nil, by simp [init, Tr50Client.init, Tr50Client.ids,
    tr50PendingCreate], by rintro _ ⟨⟩, by rintro _ ⟨⟩, by decide, by decide, by decide, by decide,
    by decide, by rintro _ _ ⟨⟩, by rintro _ _ ⟨⟩, by rintro _ ⟨⟩⟩

theorem named_eq {id : ℤ} {r : AtAnswer} (h : s.named id = some r) : r ∈ s.answered ∧ r.id = id :=
  ⟨List.mem_of_find?_eq_some h, by simpa using List.find?_some h⟩

/-- **The invariant is what the modem relies on.** -/
theorem Kept.toRoundTrip (hs : Kept s) : RoundTrip s := by
  refine ⟨fun r hr slot hslot hused howner => ?_, fun r hr slot table hget handle howner => ?_,
    hs.once.sublist ((List.sublist_append_right _ _).append_left _), hs.held, fun get hget => ?_⟩
  · obtain ⟨⟨hid, hmode⟩, ⟨hseqId, -⟩, -⟩ := hs.stored slot hslot hused r.handle howner
    have hr1 : r.id = 1 := (hs.answered r (named_eq hr).1).1.trans hseqId
    have hfound : slot.found r.id r.mode.custom := by
      simp [AtStorage.found, hused, hid, hr1, hmode]
    obtain ⟨i, hi, hslot'⟩ := Slots.findIdx_of_unique hslot hfound fun other hother hfound' => by
      simp only [AtStorage.found, Bool.and_eq_true, decide_eq_true_eq] at hfound'
      exact hs.alone slot hslot hused (by simp [howner]) other hother hfound'.1.1
        (hfound'.1.2.trans hr1)
    have hget := AtTable.get_eq_some_iff.mpr ⟨i, hi, AtTable.giveUp_of_getElem hslot'⟩
    refine ⟨_, hget, fun msgIdStr hmsgId => ?_⟩
    rw [SendMode.receive_eq, hmsgId, tr50AtCmdReceive, hget]
  · obtain ⟨i, hslot, hfound, -⟩ := AtTable.get_eq_some hget
    simp only [AtStorage.found, Bool.and_eq_true, decide_eq_true_eq] at hfound
    obtain ⟨⟨hid, -⟩, -, hnamed⟩ :=
      hs.stored slot (List.mem_of_getElem? hslot) hfound.1.1 handle howner
    have hr1 : r.id = 1 := hfound.1.2.symm.trans hid
    exact (hnamed r (hr1 ▸ hr)).symm
  · rw [tr50AtStorageGet, hs.getting get hget, Option.bind_some]

/-! ### Steps of the client -/

/-- The ids of old requests stay. -/
theorem Kept.seqIds_goOn (hs : Kept s) {a : Action AtCallback}
    (h : Tr50Client.Effect s.client a client) (answer : List AtAnswer) {handle : ℕ}
    (hh : handle < s.client.nextHandle) :
    (s.goOn answer client).seqIds handle = s.seqIds handle := by
  cases hcall : client.call with
  | none => simp only [goOn, hcall]
  | some call =>
    simp only [goOn, hcall]
    by_cases heq : handle = call.message.handle
    · subst heq
      rw [Function.update_self]
      rcases h.ids_cases (Tr50Client.mem_ids_call hcall) with hold | ⟨hnew, -⟩
      · exact (hs.ids _ hold).1
      · exact absurd hnew hh.ne
    · exact Function.update_of_ne heq _ _

/-- **A step of the client keeps it**, where the command that it answers finds no other result. -/
theorem Kept.goOn (hs : Kept s) {a : Action AtCallback} (h : Tr50Client.Effect s.client a client)
    (answer : List AtAnswer)
    (hanswer : ∀ r ∈ answer, ∃ call, s.client.call = some call
      ∧ (r.id, r.handle) = Tr50Client.idOf call.message)
    (hgood : ∀ r ∈ answer, r.id = 1 → ∀ slot ∈ s.table.slots, slot.isUsed →
      ∀ handle ∈ slot.owner, handle = r.handle) : Kept (s.goOn answer client) := by
  have hle : s.client.nextHandle ≤ client.nextHandle := h.takes.handles
  have hold : ∀ {handle}, handle < s.client.nextHandle →
      (s.goOn answer client).seqIds handle = s.seqIds handle := hs.seqIds_goOn h answer
  -- the ids of before are kept
  have hids : ∀ p ∈ s.client.ids, p.1 = (s.goOn answer client).seqIds p.2
      ∧ p.2 < client.nextHandle := fun p hp =>
    ⟨(hs.ids p hp).1.trans (hold (hs.ids p hp).2).symm, (hs.ids p hp).2.trans_le hle⟩
  refine ⟨hs.inv.step h, hs.callbackOnce.step hs.inv h, fun p hp => ?_, fun d hd => ?_,
    fun r hr => ?_, fun handle hh => h.callbacks_mono (hs.called handle hh), hs.once, hs.held,
    fun slot hslot hused handle howner => ?_, hs.alone, fun thread put hput handle howner => ?_,
    hs.found, hs.getting⟩
  · rcases h.ids_cases hp with hp | ⟨hnew, hnext, call, hcall, rfl⟩
    · exact hids p hp
    · refine ⟨?_, hnew.trans_lt (hnext ▸ Nat.lt_succ_self _)⟩
      simp only [AtSystem.goOn, hcall]
      exact (Function.update_self call.message.handle call.message.seqId s.seqIds).symm
  · rcases h.delivery_cases hd with hd | hd
    · obtain ⟨hid, hlt⟩ := hs.taken d hd
      exact ⟨hid.trans (hold hlt).symm, hlt.trans_le hle⟩
    · exact hids _ hd
  · rcases List.mem_append.mp hr with hr | hr
    · obtain ⟨call, hcall, heq⟩ := hanswer r hr
      have := hids _ (Tr50Client.mem_ids_call hcall)
      rwa [← heq] at this
    · obtain ⟨hid, hlt⟩ := hs.answered r hr
      exact ⟨hid.trans (hold hlt).symm, hlt.trans_le hle⟩
  · obtain ⟨hslot', ⟨hid, hlt⟩, hnamed⟩ := hs.stored slot hslot hused handle howner
    refine ⟨hslot', ⟨(hold hlt).trans hid, hlt.trans_le hle⟩, fun r hr => ?_⟩
    rw [Option.mem_def, named, AtSystem.goOn, List.find?_append, Option.or_eq_some_iff] at hr
    rcases hr with hr | ⟨-, hr⟩
    · have hid1 : r.id = 1 := by simpa using List.find?_some hr
      exact (hgood r (List.mem_of_find?_eq_some hr) hid1 slot hslot hused handle howner).symm
    · exact hnamed r hr
  · obtain ⟨hput', hlt⟩ := hs.putting thread put hput handle howner
    exact ⟨hput', hlt.trans_le hle⟩

/-! ### Puts -/

/-- What the other threads are in. -/
theorem storing_update {thread other : AtThread} {x : Option AtPutCall} {put : AtPutCall}
    (h : Function.update s.storing thread x other = some put) :
    other = thread ∧ x = some put ∨ other ≠ thread ∧ s.storing other = some put := by
  by_cases heq : other = thread
  · subst heq
    exact Or.inl ⟨rfl, by rwa [Function.update_self] at h⟩
  · exact Or.inr ⟨heq, by rwa [Function.update_of_ne heq] at h⟩

/-- **A put is called**, by a thread that is in none. -/
theorem Kept.call (hs : Kept s) {thread : AtThread} {put : AtPutCall}
    (hnone : s.storing thread = none) (hfound : put.found = none)
    (howner : ∀ handle, put.owner = some handle →
      (put.id = 1 ∧ put.mode ≠ tr50AtSendModeMethod) ∧ handle < s.client.nextHandle
      ∧ handle ∈ s.client.history.callbacks.map (·.handle)
      ∧ handle ∉ s.fetched ++ (s.underway ++ s.table.owners)) : Kept (s.putting thread put) := by
  have hperm : (s.fetched ++ ((s.putting thread put).underway ++ s.table.owners)).Perm
      (put.owner.toList ++ (s.fetched ++ (s.underway ++ s.table.owners))) := by
    refine (((underway_putting_of_none put hnone).append_right _).append_left _).trans ?_
    rw [List.append_assoc]
    exact List.perm_append_comm_assoc ..
  refine ⟨hs.inv, hs.callbackOnce, hs.ids, hs.taken, hs.answered, fun handle hh => ?_, ?_, hs.held,
    hs.stored, hs.alone, fun other put' hput' handle hh => ?_,
    fun other put' hput' storing hh => ?_, hs.getting⟩
  · rcases List.mem_append.mp (hperm.mem_iff.mp hh) with hh | hh
    · exact (howner handle (Option.mem_toList.mp hh)).2.2.1
    · exact hs.called handle hh
  · refine hperm.nodup_iff.mpr (List.nodup_append.mpr ⟨?_, hs.once, ?_⟩)
    · cases put.owner <;> simp
    · rintro handle hh _ hh' rfl
      exact (howner handle (Option.mem_toList.mp hh)).2.2.2 hh'
  · rcases storing_update hput' with ⟨-, heq⟩ | ⟨-, hput'⟩
    · obtain rfl := Option.some.inj heq
      exact ⟨(howner handle hh).1, (howner handle hh).2.1⟩
    · exact hs.putting other put' hput' handle hh
  · rcases storing_update hput' with ⟨-, heq⟩ | ⟨hne, hput'⟩
    · obtain rfl := Option.some.inj heq
      cases hfound.symm.trans hh
    · obtain ⟨hfinds, hget, hothers⟩ := hs.found other put' hput' storing hh
      refine ⟨hfinds, hget, fun third hthird put'' hput'' => ?_⟩
      rcases storing_update hput'' with ⟨-, heq⟩ | ⟨-, hput''⟩
      · obtain rfl := Option.some.inj heq
        exact hfound
      · exact hothers third hthird put'' hput''

/-- **A put returns** that stores nothing. -/
theorem Kept.putReturns (hs : Kept s) (thread : AtThread) (rings : List AtRing) :
    Kept (s.putReturns thread rings) := by
  have hperm : (s.fetched ++ (s.underway ++ s.table.owners)).Perm (s.putOwner thread
      ++ (s.fetched ++ ((s.putReturns thread rings).underway ++ s.table.owners))) := by
    refine (((s.underway_perm thread rings).append_right _).append_left _).trans ?_
    rw [List.append_assoc]
    exact List.perm_append_comm_assoc ..
  refine ⟨hs.inv, hs.callbackOnce, hs.ids, hs.taken, hs.answered,
    fun handle hh => hs.called handle (hperm.mem_iff.mpr (List.mem_append_right _ hh)),
    (List.nodup_append.mp (hperm.nodup_iff.mp hs.once)).2.1, hs.held, hs.stored, hs.alone,
    fun other put' hput' => ?_, fun other put' hput' storing hh => ?_, hs.getting⟩
  · obtain ⟨-, hnone⟩ | ⟨-, hput'⟩ := storing_update hput'
    · cases hnone
    · exact hs.putting other put' hput'
  · obtain ⟨-, hnone⟩ | ⟨-, hput'⟩ := storing_update hput'
    · cases hnone
    · obtain ⟨hfinds, hget, hothers⟩ := hs.found other put' hput' storing hh
      refine ⟨hfinds, hget, fun third hthird put'' hput'' => ?_⟩
      obtain ⟨-, hnone⟩ | ⟨-, hput''⟩ := storing_update hput''
      · cases hnone
      · exact hothers third hthird put'' hput''

/-- **A put finds its slot**, apart from the others. -/
theorem Kept.find (hs : Kept s) {thread : AtThread} {put : AtPutCall} {storing : AtStoring}
    (hput : s.storing thread = some put) (hapart : s.Apart)
    (hfinds : AtTable.Finds s.table put.mode put.id put.owner storing) :
    Kept (s.putting thread { put with found := some storing }) := by
  have hperm : (s.putting thread { put with found := some storing }).underway.Perm s.underway :=
    underway_putting_of_some hput rfl
  have hothers : ∀ other, ∀ put' ∈ s.storing other, put'.found = none := by
    rintro (_ | _)
    · exact hapart.2.1
    · exact hapart.2.2
  have hall := (hperm.append_right s.table.owners).append_left s.fetched
  refine ⟨hs.inv, hs.callbackOnce, hs.ids, hs.taken, hs.answered,
    fun handle hh => hs.called handle (hall.mem_iff.mp hh), hall.nodup_iff.mpr hs.once, hs.held,
    hs.stored, hs.alone, fun other put' hput' => ?_, fun other put' hput' storing' hh => ?_,
    hs.getting⟩
  · rcases storing_update hput' with ⟨rfl, heq⟩ | ⟨-, hput'⟩
    · obtain rfl := Option.some.inj heq
      exact hs.putting other put hput
    · exact hs.putting other put' hput'
  · rcases storing_update hput' with ⟨rfl, heq⟩ | ⟨-, hput'⟩
    · obtain rfl := Option.some.inj heq
      obtain rfl := Option.some.inj hh
      refine ⟨hfinds, hapart.1, fun third hthird put'' hput'' => ?_⟩
      rcases storing_update hput'' with ⟨heq, -⟩ | ⟨-, hput''⟩
      · exact absurd heq hthird
      · exact hothers third put'' hput''
    · cases (hothers other put' hput').symm.trans hh

/-- **A put writes the slot it has found**, where its result is filed well. -/
theorem Kept.store (hs : Kept s) {thread : AtThread} {put : AtPutCall} {storing : AtStoring}
    (hput : s.storing thread = some put) (hfound : put.found = some storing)
    (hgood : s.Filed put) (rings : List AtRing) :
    Kept { s.putReturns thread rings with
      table := s.table.store storing
      stored := put.owner.toList ++ s.stored } := by
  obtain ⟨hfinds, hget, hothers⟩ := hs.found thread put hput storing hfound
  have hmem : ∀ slot ∈ (s.table.store storing).slots, slot = storing.slot ∨ slot ∈ s.table.slots :=
    fun slot => Slots.mem_set_cases
  have hperm : (s.fetched ++ ((s.putReturns thread rings).underway
      ++ (s.table.store storing).owners)).Perm (s.fetched ++ (s.underway ++ s.table.owners)) := by
    have hunderway := s.underway_perm thread rings
    rw [putOwner, hput, Option.bind_some] at hunderway
    refine (((AtTable.store_owners hfinds).append_left _).append_left _).trans
      (.trans ?_ ((hunderway.append_right _).symm.append_left _))
    rw [List.append_assoc]
    exact (List.perm_append_comm_assoc ..).append_left _
  refine ⟨hs.inv, hs.callbackOnce, hs.ids, hs.taken, hs.answered,
    fun handle hh => hs.called handle (hperm.mem_iff.mp hh), hperm.nodup_iff.mpr hs.once,
    fun handle hh => ?_, fun other hother hused handle hh => ?_,
    fun other hother hused hne x hx hxUsed hx1 => ?_, fun other put' hput' => ?_,
    fun other put' hput' storing' hh => ?_, fun get hgetting => ?_⟩
  · rw [List.mem_append, (AtTable.store_owners hfinds).mem_iff, List.mem_append]
    rcases List.mem_append.mp hh with hh | hh
    · exact Or.inr (Or.inl hh)
    · exact (List.mem_append.mp (hs.held handle hh)).imp_right Or.inr
  · rcases hmem other hother with rfl | hother
    · have howner := hfinds.owner_eq.symm.trans hh
      obtain ⟨⟨hid, hmode⟩, hlt⟩ := hs.putting thread put hput handle howner
      obtain ⟨hseqId, -, hnamed⟩ := hgood.1 handle howner
      exact ⟨⟨hfinds.id_eq.trans hid, hfinds.mode_eq.trans_ne hmode⟩, ⟨hseqId, hlt⟩, hnamed⟩
    · exact hs.stored other hother hused handle hh
  · -- what is stored under `1` is the new one, or there is no result
    rcases hmem other hother with rfl | hother
    · obtain ⟨handle, hh⟩ := Option.ne_none_iff_exists'.mp hne
      obtain ⟨-, hunused, -⟩ := hgood.1 handle (hfinds.owner_eq.symm.trans hh)
      rcases hmem x hx with rfl | hx
      · rfl
      · exact absurd hx1 (hunused x hx hxUsed)
    · rcases hmem x hx with rfl | hx
      · cases howner : put.owner with
        | none =>
          exact absurd (hgood.2 howner (hfinds.id_eq.symm.trans hx1) other hother hused) hne
        | some handle =>
          obtain ⟨-, hunused, -⟩ := hgood.1 handle howner
          obtain ⟨handle', hh⟩ := Option.ne_none_iff_exists'.mp hne
          exact absurd (hs.stored other hother hused handle' hh).1.1 (hunused other hother hused)
      · exact hs.alone other hother hused hne x hx hxUsed hx1
  · obtain ⟨-, hnone⟩ | ⟨-, hput'⟩ := storing_update hput'
    · cases hnone
    · exact hs.putting other put' hput'
  · obtain ⟨-, hnone⟩ | ⟨hne, hput'⟩ := storing_update hput'
    · cases hnone
    · cases (hothers other hne put' hput').symm.trans hh
  · cases hget.symm.trans hgetting

/-! ### Gets -/

/-- **A get finds its slot**, apart from the others… -/
theorem Kept.receive (hs : Kept s) {mode : SendMode} {msgIdStr : List UInt8} (hapart : s.Apart)
    (h : s.receive mode msgIdStr = some t) : Kept t := by
  unfold AtSystem.receive at h
  split_ifs at h
  split at h <;> rename_i hfind <;> obtain rfl := Option.some.inj h
  · exact hs
  · refine ⟨hs.inv, hs.callbackOnce, hs.ids, hs.taken, hs.answered, hs.called, hs.once, hs.held,
      hs.stored, hs.alone, hs.putting, fun thread put hput storing hh => ?_, fun get hget => ?_⟩
    · have hnone : put.found = none := by
        cases thread with
        | sweep => exact hapart.2.1 put hput
        | receive => exact hapart.2.2 put hput
      cases hnone.symm.trans hh
    · obtain rfl := Option.some.inj hget
      exact hfind

/-- …and hands it out. -/
theorem Kept.storageGet (hs : Kept s) (h : s.storageGet = some t) : Kept t := by
  obtain ⟨get, hget, h⟩ := Option.bind_eq_some_iff.mp h
  obtain ⟨⟨slot, table⟩, hgive, rfl⟩ := Option.map_eq_some_iff.mp h
  obtain ⟨slot', hslot, hfound⟩ := Slots.findIdx_eq_some (hs.getting get hget)
  have heq := hgive
  rw [AtTable.giveUp_of_getElem hslot, Option.some.injEq, Prod.mk.injEq] at heq
  obtain ⟨rfl, -⟩ := heq
  obtain ⟨-, hslots, howners⟩ := AtTable.giveUp_owners hgive
  have howners := howners (AtTable.found_iff.mp hfound).1
  have hperm : ((slot'.owner.toList ++ s.fetched) ++ (s.underway ++ table.owners)).Perm
      (s.fetched ++ (s.underway ++ s.table.owners)) := by
    rw [List.append_assoc]
    refine (List.perm_append_comm_assoc ..).trans (.append_left _ ?_)
    exact (List.perm_append_comm_assoc ..).trans (howners.symm.append_left _)
  refine ⟨hs.inv, hs.callbackOnce, hs.ids, hs.taken, hs.answered,
    fun handle hh => hs.called handle (hperm.mem_iff.mp hh), hperm.nodup_iff.mpr hs.once,
    fun handle hh => ?_,
    fun other hother hused handle hh => hs.stored other (hslots other hother hused) hused handle hh,
    fun other hother hused hne x hx hxUsed hx1 => hs.alone other (hslots other hother hused) hused
      hne x (hslots x hx hxUsed) hxUsed hx1, hs.putting, fun thread put hput storing hh => ?_, ?_⟩
  · have hheld := hs.held handle hh
    rw [List.mem_append, howners.mem_iff, List.mem_append] at hheld
    rw [List.mem_append, List.mem_append]
    tauto
  · cases (hs.found thread put hput storing hh).2.1.symm.trans hget
  · rintro _ ⟨⟩

/-! ### Callbacks -/

/-- **A callback of the client runs.** -/
theorem Kept.sendReply (hs : Kept s) {thread : AtThread} {i : Invocation AtCallback}
    (hnone : s.storing thread = none)
    (hcalled : i.handle ∈ s.client.history.callbacks.map (·.handle))
    (hnew : i.handle ∉ s.fetched ++ (s.underway ++ s.table.owners))
    (hlt : i.handle < s.client.nextHandle) : Kept (s.tr50AtSendReply thread i) := by
  unfold tr50AtSendReply
  cases i.callback with
  | other => exact hs
  | sendReply mode =>
    simp only
    split_ifs
    · refine hs.call hnone rfl fun handle hh => ?_
      obtain rfl := Option.some.inj hh
      exact ⟨⟨rfl, show (0 : ℤ) ≠ tr50AtSendModeMethod by decide⟩, hlt, hcalled, hnew⟩
    · split
      · refine hs.call hnone rfl fun handle hh => ?_
        obtain rfl := Option.some.inj hh
        exact ⟨⟨rfl, mode.custom_ne_method⟩, hlt, hcalled, hnew⟩
      · exact hs

/-- **A request has its callback.** -/
theorem Kept.run (hs : Kept s) {thread : AtThread} {a : Action AtCallback}
    (h : Tr50Client.Effect s.client a client) {m : Tr50Message AtCallback} {status : ℤ}
    {answer : Option Answer} (hnone : s.storing thread = none)
    (hcallbacks : client.history.callbacks = (m.callback.toList.map fun k =>
      ⟨m.handle, k, status, answer⟩) ++ s.client.history.callbacks)
    (hnew : m.handle ∉ s.client.history.callbacks.map (·.handle))
    (hlt : m.handle < s.client.nextHandle) : Kept (s.run thread client) := by
  have hgoOn : Kept (s.goOn [] client) := hs.goOn h [] (by rintro _ ⟨⟩) (by rintro _ ⟨⟩)
  unfold AtSystem.run
  rw [hcallbacks]
  cases hcallback : m.callback with
  | none => simpa [hcallback] using hgoOn
  | some k =>
    have hfresh : m.handle ∉ s.fetched ++ (s.underway ++ s.table.owners) := fun hmem =>
      hnew (hs.called _ hmem)
    have hsend := hgoOn.sendReply (i := ⟨m.handle, k, status, answer⟩) hnone
      (by simp [AtSystem.goOn, hcallbacks, hcallback]) hfresh (hlt.trans_le h.takes.handles)
    simpa [hcallback] using hsend

/-! ## Runs -/

/-- A step of the client that calls no callback. -/
theorem Kept.quiet (hs : Kept s) {a : Action AtCallback} (h : s.client.step inflate a = some client)
    (hgood : s.UnderOne (.client a)) : Kept (s.goOn (s.answer a) client) := by
  refine hs.goOn (Tr50Client.step_effect h) _ (fun r hr => ?_) hgood.2.2
  obtain ⟨call, hcall, -, -, heq⟩ := (mem_answer_iff hs.inv h).mp hr
  exact ⟨call, hcall, heq⟩

theorem Kept.enter (hs : Kept s) {inSweep : Bool} {messageType : MessageType} {timeout : ℤ}
    {callback : Option AtCallback}
    (h : s.client.apiEnter inSweep messageType timeout callback = some client) :
    Kept (s.goOn [] client) :=
  hs.goOn (Tr50Client.apiEnter_effect h) [] (by rintro _ ⟨⟩) (by rintro _ ⟨⟩)

/-- The receive thread runs the callback of the request in hand. -/
theorem Kept.deliver (hs : Kept s) (h : s.client.deliver = some client)
    (hnone : s.storing .receive = none) : Kept (s.run .receive client) := by
  obtain ⟨d, hd, rfl⟩ := Option.map_eq_some_iff.mp h
  have heffect := Tr50Client.Effect.deliver d hd
  rcases MailboxSystem.handleReply_cases d with ⟨answer, hcall⟩ | ⟨hquiet, -⟩
  · have hnew : d.request.handle ∉ s.client.history.callbacks.map (·.handle) := fun hmem =>
      (List.disjoint_of_nodup_append hs.callbackOnce) hmem (by simp [hd])
    exact hs.run heffect hnone (congrArg (· ++ s.client.history.callbacks) hcall) hnew
      (hs.taken d hd).2
  · have hgoOn := hs.goOn heffect [] (by rintro _ ⟨⟩) (by rintro _ ⟨⟩)
    unfold AtSystem.run
    simpa [hquiet] using hgoOn

/-- The sweep runs the callback of a request that has expired. -/
theorem Kept.visit (hs : Kept s) (h : s.client.visit = some client)
    (hnone : s.storing .sweep = none) : Kept (s.run .sweep client) := by
  have heffect := Tr50Client.visit_effect (a := .visit) h
  have hquiet : client.history.callbacks = s.client.history.callbacks →
      Kept (s.run .sweep client) := fun hsame => by
    have hgoOn := hs.goOn heffect [] (by rintro _ ⟨⟩) (by rintro _ ⟨⟩)
    unfold AtSystem.run
    simpa [hsame] using hgoOn
  unfold Tr50Client.visit at h
  split at h
  · rename_i now handle hscan
    obtain ⟨m, hfind, rfl⟩ := Option.map_eq_some_iff.mp h
    have hmem := List.mem_of_find?_eq_some hfind
    unfold Tr50Client.visitMessage at hquiet heffect ⊢
    cases hjudge : tr50PendingJudge now m <;> simp only [hjudge] at hquiet heffect ⊢
    · exact hquiet trivial
    · exact hquiet trivial
    · exact hs.run heffect hnone rfl (hs.inv.not_called hmem)
        (hs.ids _ (Tr50Client.mem_ids_pending (List.mem_map_of_mem hmem))).2
  · obtain rfl := Option.some.inj h
    exact hquiet rfl
  · cases h

theorem Kept.clientStep (hs : Kept s) {a : Action AtCallback} (hgood : s.UnderOne (.client a))
    (h : s.clientStep inflate a = some t) : Kept t := by
  unfold AtSystem.clientStep at h
  split_ifs at h with hput
  split at h
  · obtain ⟨client, hclient, rfl⟩ := Option.map_eq_some_iff.mp h
    exact hs.deliver hclient (by simpa [inPut] using hput)
  · obtain ⟨client, hclient, rfl⟩ := Option.map_eq_some_iff.mp h
    exact hs.visit hclient (by simpa [inPut] using hput)
  · split at h
    · cases h
    · obtain ⟨client, hclient, rfl⟩ := Option.map_eq_some_iff.mp h
      exact hs.enter hclient
  · obtain ⟨client, hclient, rfl⟩ := Option.map_eq_some_iff.mp h
    exact hs.quiet hclient hgood

theorem Kept.methodExec (hs : Kept s) (text : JsonText) (id : List UInt8) (params : Json)
    (hnone : s.storing .receive = none) : Kept (s.tr50MethodEventExecute text id params) := by
  have hgoOn := hs.goOn (a := .msgIdNext) (.counters (tr50ApiMsgIdNext s.client.seqId)
    s.client.stopped s.client.isStopping) [] (by rintro _ ⟨⟩) (by rintro _ ⟨⟩)
  unfold tr50MethodEventExecute
  split
  · exact hgoOn.call hnone rfl (by rintro _ ⟨⟩)
  · exact hgoOn

theorem Kept.storagePut (hs : Kept s) {thread : AtThread}
    (hgood : s.UnderOne (.storagePut thread)) (h : s.storagePut text thread = some t) :
    Kept t := by
  obtain ⟨put, hput, rfl⟩ := Option.map_eq_some_iff.mp h
  cases hfound : put.found with
  | some storing => exact hs.store hput hfound (hgood.2.1 put (by simp [writes, hput, hfound])) _
  | none =>
    have hapart := hgood.1 (by simp [searches, hput, hfound])
    rcases AtTable.find_cases text s.table put.message put.mode put.id put.owner with
      ⟨ret, hfind, -⟩ | ⟨storing, hfind, -, hfinds⟩
    · simp only [hfind]
      exact hs.putReturns thread _
    · simp only [hfind]
      exact hs.find hput hapart hfinds

/-- **Every step keeps it.** -/
theorem Kept.step (hs : Kept s) {a : AtAction} (hgood : s.UnderOne a)
    (h : s.step text inflate a = some t) : Kept t := by
  cases a with
  | client a => exact hs.clientStep hgood h
  | dwsend send =>
    obtain ⟨client, hclient, rfl⟩ := Option.map_eq_some_iff.mp h
    exact hs.enter hclient
  | methodExec id params =>
    simp only [AtSystem.step] at h
    split_ifs at h with hbusy
    obtain rfl := Option.some.inj h
    rw [not_or, Option.not_isSome_iff_eq_none, Option.not_isSome_iff_eq_none] at hbusy
    exact hs.methodExec text id params hbusy.2
  | storagePut thread => exact hs.storagePut hgood h
  | dwrcv msgIdStr | dwrcvr msgIdStr => exact hs.receive (hgood.1 rfl) h
  | storageGet => exact hs.storageGet h

/-- Numbers that are integers. -/
def integers : JsonText := ⟨atoi, id, fun _ => []⟩

/-- `AT#DWSEND`, up to the id it prints. -/
def sent : List AtAction :=
  [.dwsend .normal, .client (.payload 0), .client (.add 0), .client (.publish 0)]

/-- The reply to the request with the id of `topic`, up to its put… -/
def delivered (topic : List UInt8) : List AtAction :=
  [.client (.receive topic (cstring "\x7b\"1\":\x7b\"success\":true\x7d\x7d".toList)),
    .client .deliver]

/-- …and with it. -/
def replied (topic : List UInt8) : List AtAction :=
  delivered topic ++ [.storagePut .receive, .storagePut .receive]

/-- The reply to a first request and the timeout of a second one, whose puts are not apart. -/
def overlapping : List AtAction :=
  delivered (cstring "reply/1".toList) ++ [.client (.sweep 40000), .client .visit,
    .storagePut .receive, .storagePut .sweep, .storagePut .receive, .storagePut .sweep]

/-- They find one slot, and the result of the first is lost. -/
example : ((sent ++ sent ++ overlapping).foldlM (step integers fun _ => none) init).map
    (fun s => (s.stored, s.table.owners)) = some ([1, 0], [1]) := by
  decide +kernel

end AtSystem

end Tr50
