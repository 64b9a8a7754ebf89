import Tr50.Machinery.Runs
import Tr50.Util.Memory
import Tr50.Api.Pending

/-!
# Api/Client — submitters, the receive thread and the sweep around one pending list

`tr50_api_call_async` and `tr50_api_raw_async`, `_tr50_publish_handler`, and
`_tr50_pending_expiration_handler`, cut where they take or give up a lock or call a callback.
`client->mux` admits one call at a time (`call`); `pending->mux` is the sweep's from its first
message to its last, and everyone else's list operation waits for it — except a call made by a
callback that the sweep runs, for the lock is recursive.

The outcomes of `_tr50_build_payload`, `_compress_deflate`, `_compress_inflate` and
`mqtt_async_publish`, the times read and the publishes received are the choice of the step.
`History` records what has happened; no step reads it.

Every call has a message object of its own, as `tr50_message_create` makes it; a message that a
failed call has left and that is submitted again is the matter of `Api/LinkedClient`.
-/

namespace Tr50

open Machinery

variable {κ : Type}

/-! ## States -/

/-- Where a call stands; `remove` remembers why the publish failed. -/
inductive Stage
  | payload
  | add
  | compress
  | publish
  | remove (ret : ℤ)
deriving DecidableEq, Repr

/-- A call that has `client->mux`; `inSweep` is whether a callback of the sweep makes it. -/
structure ApiCall (κ : Type) where
  inSweep : Bool
  message : Tr50Message κ
  stage : Stage
deriving DecidableEq, Repr

/-- The sweep: sleeping, at the message `next` of its loop, or in a callback before it. -/
inductive Sweep
  | idle
  | scan (now : ℤ) (next : Option ℕ)
  | callback (now : ℤ) (next : Option ℕ)
deriving DecidableEq, Repr

def Sweep.inCallback : Sweep → Bool
  | .callback _ _ => true
  | _ => false

/-- The pointer to the next message that the sweep has saved. -/
def Sweep.next : Sweep → Option ℕ
  | .idle => none
  | .scan _ next => next
  | .callback _ next => next

/-- The receive thread between taking a request out and its callback. -/
structure Delivery (κ : Type) where
  request : Tr50Message κ
  seqId : ℤ
  data : List UInt8
deriving DecidableEq, Repr

/-- What a callback is given for a reply. -/
inductive Answer
  | text (data : List UInt8)
  | message (reply : Tr50Reply)

/-- One call of a callback. -/
structure Invocation (κ : Type) where
  handle : ℕ
  callback : κ
  status : ℤ
  answer : Option Answer

/-- Who takes requests out of the list. -/
inductive Party
  | call
  | reply
  | sweep
deriving DecidableEq, Repr

/-- A call that has returned. -/
structure Returned where
  handle : ℕ
  messageType : MessageType
  ret : ℤ
deriving DecidableEq, Repr

structure History (κ : Type) where
  added : List (ℕ × Option κ)
  unlinked : List ((ℕ × Option κ) × Party)
  callbacks : List (Invocation κ)
  returned : List Returned

structure Tr50Client (κ : Type) where
  stopped : Bool
  isStopping : Bool
  seqId : ℤ
  /-- The handle of the next message. -/
  nextHandle : ℕ
  call : Option (ApiCall κ)
  pending : Tr50Pending κ
  sweep : Sweep
  delivery : Option (Delivery κ)
  history : History κ

/-- Started, and nothing submitted. -/
def Tr50Client.init : Tr50Client κ :=
  ⟨false, false, 0, 0, none, tr50PendingCreate, .idle, none, ⟨[], [], [], []⟩⟩

/-! ## Submitting -/

def tr50MaxId : ℤ := 65536

/-- The next id, as `tr50_api_msg_id_next` and both submitters count. -/
def tr50ApiMsgIdNext (seqId : ℤ) : ℤ := (if seqId = tr50MaxId then 0 else seqId) + 1

namespace Tr50Client

/-- Whether `pending->mux` lets the caller in. -/
def PendingFree (s : Tr50Client κ) (inSweep : Bool) : Prop := inSweep ∨ s.sweep = .idle

instance (s : Tr50Client κ) (inSweep : Bool) : Decidable (s.PendingFree inSweep) :=
  inferInstanceAs (Decidable (inSweep = true ∨ s.sweep = .idle))

/-- The call returns. -/
def leave (s : Tr50Client κ) (message : Tr50Message κ) (ret : ℤ) : Tr50Client κ :=
  { s with
    call := none
    history.returned := ⟨message.handle, message.messageType, ret⟩ :: s.history.returned }

/-- The call goes on. -/
def goOn (s : Tr50Client κ) (call : ApiCall κ) (stage : Stage) : Tr50Client κ :=
  { s with call := some { call with stage } }

/-- Into `tr50_api_call_async` or `tr50_api_raw_async`: the lock, the state checks, the id. -/
def apiEnter (s : Tr50Client κ) (inSweep : Bool) (messageType : MessageType) (timeout : ℤ)
    (callback : Option κ) : Option (Tr50Client κ) :=
  if s.call.isSome then none
  else if inSweep ∧ ¬ s.sweep.inCallback then none
  else
    let message := ⟨s.nextHandle, messageType, 0, timeout, callback, 0, 0⟩
    let s := { s with nextHandle := s.nextHandle + 1 }
    if s.stopped then some (s.leave message errTr50NotConnected)
    else if s.isStopping then some (s.leave message errTr50Stopping)
    else
      let seqId := tr50ApiMsgIdNext s.seqId
      let stage := match messageType with
        | .obj => Stage.payload
        | .raw => Stage.add
      some { s with seqId, call := some ⟨inSweep, { message with seqId }, stage⟩ }

/-- The message of the call goes into the list. -/
def apiAdd (s : Tr50Client κ) (call : ApiCall κ) (now : ℤ) : Option (Tr50Client κ) :=
  if s.PendingFree call.inSweep then
    let s := { s with
      pending := tr50PendingAdd s.pending call.message now
      history.added := call.message.submission :: s.history.added }
    some (s.goOn call (match call.message.messageType with
      | .obj => .publish
      | .raw => .compress))
  else none

/-- The publish has failed with `ret`: the call looks for its message. -/
def apiRemove (s : Tr50Client κ) (call : ApiCall κ) (ret : ℤ) : Option (Tr50Client κ) :=
  if s.PendingFree call.inSweep then
    match tr50PendingFindAndRemove s.pending call.message.seqId with
    | (some message, pending) =>
      let s := { s with
        pending := pending
        history.unlinked := (message.submission, .call) :: s.history.unlinked }
      some (s.leave call.message ret)
    -- already expired, return okay
    | (none, _) => some (s.leave call.message 0)
  else none

end Tr50Client

/-- What a step of a call, or of the world around the client, does. -/
inductive Action (κ : Type)
  | api (inSweep : Bool) (messageType : MessageType) (timeout : ℤ) (callback : Option κ)
  /-- `_tr50_build_payload` returns. -/
  | payload (ret : ℤ)
  | add (now : ℤ)
  /-- `_compress_deflate` returns; `0` also where there is nothing to compress. -/
  | compress (ret : ℤ)
  /-- `mqtt_async_publish` returns. -/
  | publish (ret : ℤ)
  | remove
  /-- `tr50_api_msg_id_next` -/
  | msgIdNext
  /-- `tr50_start` and `tr50_stop`, as far as submitters see them. -/
  | lifecycle (stopped isStopping : Bool)
  /-- `_tr50_publish_handler` -/
  | receive (topic data : List UInt8)
  /-- …and its callback. -/
  | deliver
  /-- The sweep locks the list; its message; the end of a callback. -/
  | sweep (now : ℤ)
  | visit
  | callbackReturn

namespace Tr50Client

/-- The next move of the call in progress. -/
def apiStep (s : Tr50Client κ) (call : ApiCall κ) : Stage → Action κ → Option (Tr50Client κ)
  | .payload, .payload ret =>
      some (if ret ≠ 0 then s.leave call.message ret else s.goOn call .add)
  | .add, .add now => s.apiAdd call now
  -- the message is freed where it stands, in the list
  | .compress, .compress ret =>
      some (if ret ≠ 0 then s.leave call.message ret else s.goOn call .publish)
  | .publish, .publish ret =>
      some (if ret ≠ 0 then s.goOn call (.remove ret) else s.leave call.message 0)
  | .remove ret, .remove => s.apiRemove call ret
  | _, _ => none

end Tr50Client

/-! ## Receiving -/

/-- `atoi`, of a value that fits a `long`. -/
def atoi (s : List UInt8) : ℤ :=
  let s := s.dropWhile fun c => c = 32 ∨ (9 ≤ c ∧ c ≤ 13)
  let negative := deref s = ch '-'
  let s := if negative ∨ deref s = ch '+' then s.tail else s
  let n : ℕ := (s.takeWhile isDigit).foldl (fun n d => n * 10 + (d - ch '0').toNat) 0
  toInt32 (max (-2 ^ 63) (min (2 ^ 63 - 1) (if negative then -(n : ℤ) else n)))

/-- What a publish asks of the client. -/
inductive Inbound
  | reply (seqId : ℤ) (data : List UInt8)
  /-- A mailbox check. -/
  | notify
  | other
deriving DecidableEq, Repr

/-- `_tr50_publish_handler`, up to `_tr50_publish_handle_publish`. -/
def tr50PublishHandler (inflate : List UInt8 → Option (List UInt8)) (topic data : List UInt8) :
    Inbound :=
  if hasPrefix ['r', 'e', 'p', 'l', 'y', 'z', '/'] topic then
    match inflate data with
    | none => .other
    | some out => .reply (atoi (topic.drop 7)) out
  else if hasPrefix ['r', 'e', 'p', 'l', 'y', '/'] topic then
    .reply (atoi (topic.drop 6)) data
  else if topic.takeWhile (· ≠ 0) = cstring "notify/mailbox_activity".toList then .notify
  else .other

/-- The callbacks of `_tr50_publish_handle_publish` for the request it has taken out. -/
def tr50HandleReply (d : Delivery κ) : List (Invocation κ) :=
  match d.request.messageType with
  | .raw => d.request.callback.toList.map fun k => ⟨d.request.handle, k, 0, some (.text d.data)⟩
  | .obj =>
    match tr50MessageFromString d.data with
    | .error _ => []
    | .ok reply =>
      if ¬ reply.isReply then []
      else d.request.callback.toList.map fun k =>
        ⟨d.request.handle, k, 0, some (.message { reply with seqId := d.seqId })⟩

namespace Tr50Client

/-- The receive thread takes the request out that the reply is for. -/
def receive (inflate : List UInt8 → Option (List UInt8)) (s : Tr50Client κ)
    (topic data : List UInt8) : Option (Tr50Client κ) :=
  if s.delivery.isSome then none
  else
    match tr50PublishHandler inflate topic data with
    | .reply seqId data =>
      if s.PendingFree false then
        match tr50PendingFindAndRemove s.pending seqId with
        | (some request, pending) =>
          some { s with
            pending := pending
            delivery := some ⟨request, seqId, data⟩
            history.unlinked := (request.submission, .reply) :: s.history.unlinked }
        | (none, _) => some s
      else none
    -- the check that a notification starts is a call like any other
    | .notify => some s
    | .other => some s

/-- …and runs its callback. -/
def deliver (s : Tr50Client κ) : Option (Tr50Client κ) :=
  s.delivery.map fun d =>
    { s with
      delivery := none
      history.callbacks := tr50HandleReply d ++ s.history.callbacks }

/-! ## The sweep -/

/-- The sweep at the message `handle`, with the pointer to the next one saved first. -/
def visitMessage (s : Tr50Client κ) (now : ℤ) (message : Tr50Message κ) : Tr50Client κ :=
  let next := tr50PendingNext s.pending.list message.handle
  match tr50PendingJudge now message with
  | .keep => { s with sweep := .scan now next }
  | .reschedule =>
    { s with
      sweep := .scan now next
      pending := tr50PendingReschedule s.pending message.handle now }
  | .expire =>
    let pending := tr50PendingLinklistRemove s.pending message
    { s with
      sweep := if message.callback.isSome then .callback now next else .scan now next
      pending := { pending with expiredCount := pending.expiredCount + 1 }
      history.unlinked := (message.submission, .sweep) :: s.history.unlinked
      history.callbacks := (message.callback.toList.map fun k =>
        ⟨message.handle, k, errTr50ReqTimeout, none⟩) ++ s.history.callbacks }

/-- One step of the loop; behind the last message the lock is given up. -/
def visit (s : Tr50Client κ) : Option (Tr50Client κ) :=
  match s.sweep with
  | .scan now (some handle) =>
    (s.pending.list.find? fun m => m.handle = handle).map (s.visitMessage now)
  | .scan _ none => some { s with sweep := .idle }
  | _ => none

/-- The callback of the sweep returns, when no call of its own is in progress. -/
def callbackReturn (s : Tr50Client κ) : Option (Tr50Client κ) :=
  match s.sweep with
  | .callback now next =>
    if s.call.any (·.inSweep) then none else some { s with sweep := .scan now next }
  | _ => none

/-! ## Steps -/

def step (inflate : List UInt8 → Option (List UInt8)) (s : Tr50Client κ) :
    Action κ → Option (Tr50Client κ)
  | .api inSweep messageType timeout callback => s.apiEnter inSweep messageType timeout callback
  | .msgIdNext =>
      if s.call.isSome then none else some { s with seqId := tr50ApiMsgIdNext s.seqId }
  | .lifecycle stopped isStopping =>
      if s.call.isSome then none else some { s with stopped, isStopping }
  | .receive topic data => s.receive inflate topic data
  | .deliver => s.deliver
  | .sweep now =>
      if s.sweep = .idle then
        some { s with sweep := .scan now (tr50PendingHead s.pending.list) }
      else none
  | .visit => s.visit
  | .callbackReturn => s.callbackReturn
  | a =>
    match s.call with
    | none => none
    | some call => s.apiStep call call.stage a

end Tr50Client

end Tr50
