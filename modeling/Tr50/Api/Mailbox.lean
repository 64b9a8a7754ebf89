import Tr50.Machinery.Stacks
import Tr50.Api.Requests
import Tr50.Api.Deadlock

/-!
# Api/Mailbox — mailbox checks around a client

`tr50.mailbox.c`: `tr50_mailbox_check` and `_tr50_mailbox_check_callback`, cut where they take
`mailbox_check_mux`, call `tr50_api_call_async` or run a handler, in any number of threads around
one `Tr50Client`.  A notification starts a check in the receive thread; the callback of a check runs
in the receive thread or, for one that expires, in the sweep.

The receive thread calls the callback of the request it has taken out in the same step: nothing it
does in between takes a lock.  `MailboxSystem.events` records checks and publishes; no step reads
it.
-/

namespace Tr50

open Machinery

variable {κ : Type}

/-! ## States -/

/-- A `reply_callback`: the mailbox's own, or one of the application. -/
inductive ReplyCallback (κ : Type)
  | mailboxCheck
  | app (callback : κ)
deriving DecidableEq, Repr

def ReplyCallback.isMailboxCheck : ReplyCallback κ → Bool
  | .mailboxCheck => true
  | .app _ => false

/-- The request of a mailbox check. -/
def Tr50Message.isMailboxCheck (message : Tr50Message (ReplyCallback κ)) : Bool :=
  message.callback.any (·.isMailboxCheck)

inductive MailboxThread
  | app (n : ℕ)
  | receive
  | sweep
deriving DecidableEq, Repr

/-- Where `tr50_mailbox_check` stands. -/
inductive MailboxPc
  /-- At its test of `mailbox_suspend`; at the lock behind it. -/
  | entry
  | lock
  /-- `mailbox_send_in_progress` is set: the request is to be created, and submitted. -/
  | create
  | call
  /-- Inside its `tr50_api_call_async`. -/
  | called
  | endError
deriving DecidableEq, Repr

inductive MailboxFrame
  | check (pc : MailboxPc)
  /-- `_tr50_mailbox_check_callback`, up to its lock; `count` is the number of messages. -/
  | callback (count : ℕ)
  /-- A callback of the application. -/
  | app
deriving DecidableEq, Repr

inductive MailboxEvent
  /-- A call of `tr50_mailbox_check`. -/
  | check
  /-- `mqtt_async_publish` of a mailbox check. -/
  | publish (ret : ℤ)
deriving DecidableEq, Repr

structure MailboxSystem (κ : Type) where
  client : Tr50Client (ReplyCallback κ)
  mailbox : Deadlock.Mailbox
  frames : List (MailboxThread × MailboxFrame)
  /-- The last one first. -/
  events : List MailboxEvent

/-! ## Replies -/

/-- `tr50_reply_get_params`, without detaching. -/
def tr50ReplyGetParams (reply : Tr50Reply) (cmdId : List UInt8) : Option Json := do
  let cmd ← tr50JsonGetObjectItem (some reply.json) cmdId
  tr50JsonGetObjectItem (some cmd) (cstring ['p', 'a', 'r', 'a', 'm', 's'])

def tr50JsonGetArraySize (array : Option Json) : ℕ := (array.map (·.child.length)).getD 0

/-- `count` in `_tr50_mailbox_check_callback`. -/
def tr50MailboxCount (status : ℤ) : Option Answer → ℕ
  | some (.message reply) =>
    if status ≠ 0 then 0
    else
      let params := tr50ReplyGetParams reply (cstring ['1'])
      tr50JsonGetArraySize (tr50JsonGetObjectItem params
        (cstring ['m', 'e', 's', 's', 'a', 'g', 'e', 's']))
  | _ => 0

/-- The frame that the call of a callback puts up. -/
def Invocation.frame (i : Invocation (ReplyCallback κ)) : MailboxFrame :=
  match i.callback with
  | .mailboxCheck => .callback (tr50MailboxCount i.status i.answer)
  | .app _ => .app

namespace MailboxSystem

def init : MailboxSystem κ := ⟨Tr50Client.init, ⟨false, false, false⟩, [], []⟩

/-! ## Checks -/

def pop (s : MailboxSystem κ) (t : MailboxThread) : MailboxSystem κ :=
  { s with frames := Stacks.pop s.frames t }

def goOn (s : MailboxSystem κ) (t : MailboxThread) (frame : MailboxFrame) : MailboxSystem κ :=
  { s with frames := Stacks.goOn s.frames t frame }

@[simp] theorem frames_pop (s : MailboxSystem κ) (t : MailboxThread) :
    (s.pop t).frames = Stacks.pop s.frames t := rfl

@[simp] theorem frames_goOn (s : MailboxSystem κ) (t : MailboxThread) (frame : MailboxFrame) :
    (s.goOn t frame).frames = Stacks.goOn s.frames t frame := rfl

/-- The thread calls `tr50_mailbox_check`. -/
def callCheck (s : MailboxSystem κ) (t : MailboxThread) : MailboxSystem κ :=
  { s with frames := (t, .check .entry) :: s.frames, events := .check :: s.events }

/-- The next move inside `tr50_mailbox_check`; `granted` is whether there is memory. -/
def tr50MailboxCheck (s : MailboxSystem κ) (t : MailboxThread) (granted : Bool) :
    MailboxPc → Option (MailboxSystem κ)
  | .entry => some (if s.mailbox.suspend then s.pop t else s.goOn t (.check .lock))
  | .lock => some (
      if s.mailbox.sendInProgress then { s.pop t with mailbox.anotherRequest := true }
      else { s.goOn t (.check .create) with mailbox.sendInProgress := true })
  | .create => some (s.goOn t (.check (if granted then .call else .endError)))
  | .call =>
      (s.client.apiEnter (t = .sweep) .obj 30000 (some .mailboxCheck)).map fun client =>
        { s.goOn t (.check (if client.call.isSome then .called else .endError)) with client }
  | .called => none
  | .endError => some { s.pop t with
      mailbox := { s.mailbox with sendInProgress := false, anotherRequest := false } }

/-- `_tr50_mailbox_check_callback` behind its handlers. -/
def tr50MailboxCheckCallback (s : MailboxSystem κ) (t : MailboxThread) (count : ℕ) :
    MailboxSystem κ :=
  if count > 0 ∨ s.mailbox.anotherRequest then
    { s.pop t with
      mailbox := { s.mailbox with sendInProgress := false, anotherRequest := false } }.callCheck t
  else { s.pop t with mailbox.sendInProgress := false }

end MailboxSystem

/-- What a thread does next, where its calls leave a choice. -/
inductive MailboxChoice
  | go (granted : Bool)
  /-- Call `tr50_mailbox_check`. -/
  | check

inductive MailboxAction (κ : Type)
  /-- A step of the client, whoever makes it. -/
  | client (a : Action (ReplyCallback κ))
  | move (t : MailboxThread) (choice : MailboxChoice)
  /-- `tr50_mailbox_suspend`, `tr50_mailbox_resume`. -/
  | suspend (b : Bool)

namespace MailboxSystem

/-- The next move of a thread.  The sweep makes none while a callback's call of the client is in
progress. -/
def move (s : MailboxSystem κ) (t : MailboxThread) (choice : MailboxChoice) :
    Option (MailboxSystem κ) :=
  if t = .sweep ∧ s.client.call.any (·.inSweep) then none
  else
    match Stacks.top s.frames t, choice with
    | none, .check => if t = .sweep then none else some (s.callCheck t)
    | some .app, .check => some (s.callCheck t)
    | some .app, .go _ => some (s.pop t)
    -- a handler of one of the messages
    | some (.callback count), .check => if count = 0 then none else some (s.callCheck t)
    | some (.callback count), .go _ => some (s.tr50MailboxCheckCallback t count)
    | some (.check pc), .go granted => s.tr50MailboxCheck t granted pc
    | _, _ => none

/-! ## The client -/

/-- The client has gone on, and called callbacks in thread `t`. -/
def run (s : MailboxSystem κ) (t : MailboxThread) (client : Tr50Client (ReplyCallback κ)) :
    MailboxSystem κ :=
  let called := client.history.callbacks.take
    (client.history.callbacks.length - s.client.history.callbacks.length)
  { s with client, frames := called.map (fun i => (t, i.frame)) ++ s.frames }

/-- The record goes on where a mailbox check is published. -/
def clientEvents (s : MailboxSystem κ) : Action (ReplyCallback κ) → List MailboxEvent
  | .publish ret =>
      if s.client.call.any (·.message.isMailboxCheck) then .publish ret :: s.events else s.events
  | _ => s.events

/-- The check whose call has failed goes to its `end_error`… -/
def failCalled (frames : List (MailboxThread × MailboxFrame)) :
    List (MailboxThread × MailboxFrame) :=
  frames.map fun f => if f.2 = .check .called then (f.1, .check .endError) else f

/-- …or it has succeeded, and the check returns. -/
def dropCalled (frames : List (MailboxThread × MailboxFrame)) :
    List (MailboxThread × MailboxFrame) :=
  frames.filter fun f => f.2 ≠ .check .called

/-- The client has gone on; the call of a mailbox check may have returned. -/
def finish (s : MailboxSystem κ) (a : Action (ReplyCallback κ))
    (client : Tr50Client (ReplyCallback κ)) : MailboxSystem κ :=
  if s.client.call.any (·.message.isMailboxCheck) ∧ client.call.isNone then
    { s with
      client
      frames := if client.history.returned.head?.any (·.ret ≠ 0) then failCalled s.frames
        else dropCalled s.frames
      events := s.clientEvents a }
  else { s with client, events := s.clientEvents a }

/-- A step of the client.  The sweep and the receive thread go on when their callbacks are over. -/
def clientStep (inflate : List UInt8 → Option (List UInt8)) (s : MailboxSystem κ)
    (a : Action (ReplyCallback κ)) : Option (MailboxSystem κ) :=
  match a with
  | .api _ _ _ callback =>
    if callback.any (·.isMailboxCheck) then none else (s.client.step inflate a).map (s.finish a)
  | .receive topic data =>
    if (Stacks.top s.frames .receive).isSome then none
    else
      (s.client.receive inflate topic data).bind fun client =>
        if client.delivery.isSome then client.deliver.map (s.run .receive)
        else if tr50PublishHandler inflate topic data = .notify then
          some ({ s with client }.callCheck .receive)
        else some { s with client }
  -- follows at once
  | .deliver => none
  | .visit =>
    if (Stacks.top s.frames .sweep).isSome then none else s.client.visit.map (s.run .sweep)
  | .callbackReturn =>
    if (Stacks.top s.frames .sweep).isSome then none
    else s.client.callbackReturn.map fun client => { s with client }
  | a => (s.client.step inflate a).map (s.finish a)

def step (inflate : List UInt8 → Option (List UInt8)) (s : MailboxSystem κ) :
    MailboxAction κ → Option (MailboxSystem κ)
  | .client a => s.clientStep inflate a
  | .move t choice => s.move t choice
  | .suspend b => some { s with mailbox.suspend := b }

end MailboxSystem

end Tr50
