import Tr50.Api.Submit
import Tr50.Api.Resubmit

/-!
# Api/LinkedClient — the client over the pointers of its list

The submitters, the receive thread and the sweep of `Api/Client`, over the list of `Api/Linked`.  A
message of `tr50_message_create` is its application's until a call puts it into the list, and again
after a call that has failed: `tr50_api_call_async` takes the one it is given and sets its fields,
but not its pointers.  `tr50_api_raw_async` creates its message itself, and deletes it.

Calls are numbered, and the records of `History` are about numbers; `number` is that of the last
call with a message.  No step reads it, or the history.
-/

namespace Tr50

open Machinery

variable {κ : Type}

/-! ## States -/

/-- `owned` are the messages that are their applications', or of a call that has yet to add its own;
`created` all that there have been. -/
structure LinkedClient (κ : Type) where
  stopped : Bool
  isStopping : Bool
  seqId : ℤ
  /-- The number of the next call. -/
  submissions : ℕ
  call : Option (ApiCall κ)
  pending : LinkedPending κ
  sweep : PendingSweep
  delivery : Option (Delivery κ)
  owned : List ℕ
  created : List ℕ
  number : ℕ → ℕ
  history : History κ

inductive OwnerAction (κ : Type)
  /-- `tr50_message_create` and `tr50_message_delete`, by an application. -/
  | create (message : ℕ)
  | discard (message : ℕ)
  /-- Into a call with a message; that of `tr50_api_raw_async` is new. -/
  | api (message : ℕ) (inSweep : Bool) (messageType : MessageType) (timeout : ℤ)
    (callback : Option κ)
  /-- Any other step. -/
  | step (a : Action κ)

/-- Whether `_tr50_publish_handle_publish` deletes the request: not for a reply that it cannot read,
or that is none. -/
def Delivery.deletes (d : Delivery κ) : Bool :=
  match d.request.messageType with
  | .raw => true
  | .obj =>
    match tr50MessageFromString d.data with
    | .error _ => false
    | .ok reply => reply.isReply

/-- A message under another handle. -/
def Tr50Message.rename (f : ℕ → ℕ) (m : Tr50Message κ) : Tr50Message κ :=
  { m with handle := f m.handle }

/-- …in the hands of the receive thread. -/
def Delivery.rename (f : ℕ → ℕ) (d : Delivery κ) : Delivery κ :=
  { d with request := d.request.rename f }

namespace LinkedClient

/-- Started, and nothing created. -/
def init : LinkedClient κ :=
  ⟨false, false, 0, 0, none, .create, .idle, none, [], [], fun _ => 0, ⟨[], [], [], []⟩⟩

/-- Turns of a loop over the list: one that takes more goes round for ever. -/
def fuel (s : LinkedClient κ) : ℕ := s.created.length + 1

/-- What is read from `list_head` on: the requests that wait, under their numbers. -/
def requests (s : LinkedClient κ) : List (Tr50Message κ) :=
  (s.pending.links.walk s.fuel s.pending.links.head).map fun x => x.2.rename s.number

/-- A new message: zeros. -/
def tr50MessageCreate (s : LinkedClient κ) (message : ℕ) : LinkedClient κ :=
  { s with
    pending := s.pending.messageCreate ⟨message, .obj, 0, 0, none, 0, 0⟩
    owned := message :: s.owned
    created := message :: s.created }

/-- A call is refused. -/
def refuse (s : LinkedClient κ) (messageType : MessageType) (ret : ℤ) : LinkedClient κ :=
  { s with
    submissions := s.submissions + 1
    history.returned := ⟨s.submissions, messageType, ret⟩ :: s.history.returned }

/-- The call returns. -/
def leave (s : LinkedClient κ) (call : ApiCall κ) (ret : ℤ) : LinkedClient κ :=
  { s with
    call := none
    history.returned :=
      ⟨s.number call.message.handle, call.message.messageType, ret⟩ :: s.history.returned }

/-- The call goes on. -/
def goOn (s : LinkedClient κ) (call : ApiCall κ) (stage : Stage) : LinkedClient κ :=
  { s with call := some { call with stage } }

/-! ## Submitting -/

/-- A caller has its message; a raw call's is new. -/
def Submits (s : LinkedClient κ) (message : ℕ) : MessageType → Prop
  | .obj => message ∈ s.owned
  | .raw => message ∉ s.created

instance (s : LinkedClient κ) (message : ℕ) (messageType : MessageType) :
    Decidable (s.Submits message messageType) :=
  match messageType with
  | .obj => inferInstanceAs (Decidable (_ ∈ _))
  | .raw => inferInstanceAs (Decidable (_ ∉ _))

/-- Into `tr50_api_call_async` or `tr50_api_raw_async`: the lock, the state checks, the id, and the
fields of the message. -/
def apiEnter (s : LinkedClient κ) (message : ℕ) (inSweep : Bool) (messageType : MessageType)
    (timeout : ℤ) (callback : Option κ) : Option (LinkedClient κ) :=
  if s.call.isSome then none
  else if inSweep ∧ ¬ s.sweep.lets true then none
  else if ¬ s.Submits message messageType then none
  else if s.stopped then some (s.refuse messageType errTr50NotConnected)
  else if s.isStopping then some (s.refuse messageType errTr50Stopping)
  else
    let seqId := tr50ApiMsgIdNext s.seqId
    let s := match messageType with
      | .obj => s
      | .raw => s.tr50MessageCreate message
    let stage := match messageType with
      | .obj => Stage.payload
      | .raw => Stage.add
    -- its two times are set when it is added
    let value : Tr50Message κ := ⟨message, messageType, seqId, timeout, callback, 0, 0⟩
    (s.pending.links.modify message fun n => { n with value }).map fun links =>
      { s with
        seqId
        submissions := s.submissions + 1
        pending.links := links
        number := Function.update s.number message s.submissions
        call := some ⟨inSweep, value, stage⟩ }

/-- The message of the call goes into the list. -/
def apiAdd (s : LinkedClient κ) (call : ApiCall κ) (now : ℤ) : Option (LinkedClient κ) :=
  if s.sweep.lets call.inSweep then
    (s.pending.add call.message.handle now).map fun pending =>
      let s := { s with
        pending
        owned := s.owned.erase call.message.handle
        history.added :=
          (s.number call.message.handle, call.message.callback) :: s.history.added }
      s.goOn call (match call.message.messageType with
        | .obj => .publish
        | .raw => .compress)
  else none

/-- The publish has failed with `ret`: the call looks for its message. -/
def apiRemove (s : LinkedClient κ) (call : ApiCall κ) (ret : ℤ) : Option (LinkedClient κ) :=
  if s.sweep.lets call.inSweep then
    (s.pending.findAndRemove s.fuel call.message.seqId).bind fun
      | (some ptr, pending) => (pending.links.node ptr).map fun n =>
        let s := { s with
          pending
          history.unlinked := ((s.number ptr, n.value.callback), .call) :: s.history.unlinked }
        match call.message.messageType with
        -- its caller has it again
        | .obj => { s with owned := call.message.handle :: s.owned }.leave call ret
        | .raw => { s with pending := s.pending.messageDelete ptr }.leave call ret
      -- already expired, return okay
      | (none, _) => some (s.leave call 0)
  else none

/-- The next move of the call in progress. -/
def apiStep (s : LinkedClient κ) (call : ApiCall κ) :
    Stage → Action κ → Option (LinkedClient κ)
  | .payload, .payload ret =>
      some (if ret ≠ 0 then s.leave call ret else s.goOn call .add)
  | .add, .add now => s.apiAdd call now
  -- the message is freed where it stands, in the list
  | .compress, .compress ret =>
      some (if ret ≠ 0 then
        { s with pending := s.pending.messageDelete call.message.handle }.leave call ret
      else s.goOn call .publish)
  | .publish, .publish ret =>
      some (if ret ≠ 0 then s.goOn call (.remove ret) else s.leave call 0)
  | .remove ret, .remove => s.apiRemove call ret
  | _, _ => none

/-! ## Receiving -/

/-- The receive thread takes the request out that the reply is for. -/
def receive (inflate : List UInt8 → Option (List UInt8)) (s : LinkedClient κ)
    (topic data : List UInt8) : Option (LinkedClient κ) :=
  if s.delivery.isSome then none
  else
    match tr50PublishHandler inflate topic data with
    | .reply seqId data =>
      if s.sweep.lets false then
        (s.pending.findAndRemove s.fuel seqId).bind fun
          | (some ptr, pending) => (pending.links.node ptr).map fun n =>
            { s with
              pending
              delivery := some ⟨n.value, seqId, data⟩
              history.unlinked :=
                ((s.number ptr, n.value.callback), .reply) :: s.history.unlinked }
          | (none, _) => some s
      else none
    | .notify => some s
    | .other => some s

/-- …and runs its callback. -/
def deliver (s : LinkedClient κ) : Option (LinkedClient κ) :=
  s.delivery.map fun d =>
    { s with
      delivery := none
      pending := if d.deletes then s.pending.messageDelete d.request.handle else s.pending
      history.callbacks := tr50HandleReply (d.rename s.number) ++ s.history.callbacks }

/-! ## The sweep -/

/-- The sweep at a message. -/
def visitMessage (s : LinkedClient κ) (now : ℤ) (message : ℕ) : Option (LinkedClient κ) :=
  (s.pending.links.node message).bind fun n =>
    (PendingSystem.visitMessage ⟨s.pending, s.sweep, [], []⟩ now message).map fun r =>
      let s := { s with pending := r.pending, sweep := r.sweep }
      match tr50PendingJudge now n.value with
      | .expire =>
        { s with
          history.unlinked :=
            ((s.number message, n.value.callback), .sweep) :: s.history.unlinked
          history.callbacks := (n.value.callback.toList.map fun k =>
            ⟨s.number message, k, errTr50ReqTimeout, none⟩) ++ s.history.callbacks }
      | _ => s

/-- One step of the loop; behind the last message the lock is given up. -/
def visit (s : LinkedClient κ) : Option (LinkedClient κ) :=
  match s.sweep with
  | .scan now (some message) => s.visitMessage now message
  | .scan _ none => some { s with sweep := .idle }
  | _ => none

/-- The callback of the sweep returns, when no call of its own is in progress. -/
def callbackReturn (s : LinkedClient κ) : Option (LinkedClient κ) :=
  match s.sweep with
  | .callback now message next =>
    if s.call.any (·.inSweep) then none
    else some { s with sweep := .scan now next, pending := s.pending.messageDelete message }
  | _ => none

/-! ## Steps -/

def step (inflate : List UInt8 → Option (List UInt8)) (s : LinkedClient κ) :
    OwnerAction κ → Option (LinkedClient κ)
  | .create message => if message ∉ s.created then some (s.tr50MessageCreate message) else none
  | .discard message =>
      -- not while a call has it
      if message ∈ s.owned ∧ s.call.all fun call => call.message.handle ≠ message then
        some { s with
          pending := s.pending.messageDelete message
          owned := s.owned.erase message }
      else none
  | .api message inSweep messageType timeout callback =>
      s.apiEnter message inSweep messageType timeout callback
  | .step a =>
    match a with
    | .api _ _ _ _ => none
    | .msgIdNext =>
        if s.call.isSome then none else some { s with seqId := tr50ApiMsgIdNext s.seqId }
    | .lifecycle stopped isStopping =>
        if s.call.isSome then none else some { s with stopped, isStopping }
    | .receive topic data => s.receive inflate topic data
    | .deliver => s.deliver
    | .sweep now =>
        if s.sweep = .idle then some { s with sweep := .scan now s.pending.links.head } else none
    | .visit => s.visit
    | .callbackReturn => s.callbackReturn
    | a =>
      match s.call with
      | none => none
      | some call => s.apiStep call call.stage a

end LinkedClient

end Tr50
