import Tr50.Api.Mailbox

/-!
# Api/Outstanding — what `mailbox_send_in_progress` stands for

While the flag is set there is a check on its way: a thread that submits one or runs the callback of
one, or a request in the list (`outstanding`).  Each step hands it on, but for a reply that takes
the request out and is no reply message, and for a call of the application that takes the request
back in place of its own (`flagCovered`, `not_flagCovered_text`).
-/

namespace Tr50

open Machinery

variable {κ : Type}

/-! ## Counting -/

/-- A frame whose thread has set the flag, and neither handed it on nor cleared it. -/
def MailboxFrame.holds : MailboxFrame → Bool
  | .check .create => true
  | .check .call => true
  | .check .endError => true
  | .callback _ => true
  | _ => false

namespace ApiCall

/-- The call of a mailbox check whose request is not in the list yet. -/
def submitting (call : ApiCall (ReplyCallback κ)) : Bool :=
  call.message.isMailboxCheck && (call.stage = .payload || call.stage = .add)

/-- …or is not published yet. -/
def unsent (call : ApiCall (ReplyCallback κ)) : Bool :=
  call.message.isMailboxCheck && match call.stage with
    | .remove _ => false
    | _ => true

end ApiCall

namespace Tr50Client

variable {s : Tr50Client (ReplyCallback κ)}

/-- The mailbox checks that are called, submitted and in the list. -/
def calledChecks (s : Tr50Client (ReplyCallback κ)) : ℕ :=
  s.call.toList.countP (·.message.isMailboxCheck)

def submittedChecks (s : Tr50Client (ReplyCallback κ)) : ℕ := s.call.toList.countP (·.submitting)

def waitingChecks (s : Tr50Client (ReplyCallback κ)) : ℕ :=
  s.pending.list.countP (·.isMailboxCheck)

/-- A message that is taken out was one of them, or none. -/
theorem waitingChecks_remove (hs : s.Inv) {m : Tr50Message (ReplyCallback κ)}
    (hm : m ∈ s.pending.list) :
    s.waitingChecks = (tr50PendingLinklistRemove s.pending m).list.countP (·.isMailboxCheck)
      + if m.isMailboxCheck then 1 else 0 := by
  rw [waitingChecks, (eraseP_handle hs.accounted.pending_nodup hm).countP_eq, List.countP_cons]
  rfl

/-- A message that is added is one of them, or none. -/
theorem countP_add (pending : Tr50Pending (ReplyCallback κ))
    (message : Tr50Message (ReplyCallback κ)) (now : ℤ) :
    (tr50PendingAdd pending message now).list.countP (·.isMailboxCheck)
      = pending.list.countP (·.isMailboxCheck) + if message.isMailboxCheck then 1 else 0 := by
  rw [tr50PendingAdd, List.countP_append, List.countP_singleton]
  rfl

/-- Rescheduling leaves them. -/
theorem countP_reschedule (pending : Tr50Pending (ReplyCallback κ)) (handle : ℕ) (now : ℤ) :
    (tr50PendingReschedule pending handle now).list.countP (·.isMailboxCheck)
      = pending.list.countP (·.isMailboxCheck) := by
  rw [tr50PendingReschedule, List.countP_map]
  refine List.countP_congr fun m _ => ?_
  simp only [Function.comp_apply, Tr50Message.isMailboxCheck]
  split_ifs <;> rfl

/-- A client between two steps of the mailbox. -/
structure Between (s : Tr50Client (ReplyCallback κ)) : Prop where
  inv : s.Inv
  delivery : s.delivery = none

end Tr50Client

namespace MailboxSystem

variable {inflate : List UInt8 → Option (List UInt8)} {s t : MailboxSystem κ}

/-- The checks that threads hold. -/
def held (frames : List (MailboxThread × MailboxFrame)) : ℕ := frames.countP (·.2.holds)

/-- The checks on their way. -/
def outstanding (s : MailboxSystem κ) : ℕ :=
  held s.frames + (s.client.submittedChecks + s.client.waitingChecks)

/-! ## What a step does -/

/-- The effect of a step on the frames, the flags and the checks of the client. -/
inductive Effect (s : MailboxSystem κ) : MailboxSystem κ → Prop
  | check (thread : MailboxThread) : Effect s (s.callCheck thread)
  | leave (thread : MailboxThread) (frame : MailboxFrame)
      (htop : Stacks.top s.frames thread = some frame)
      (hframe : frame = .app ∨ frame = .check .entry ∧ s.mailbox.suspend) : Effect s (s.pop thread)
  | lock (thread : MailboxThread) (htop : Stacks.top s.frames thread = some (.check .entry)) :
      Effect s (s.goOn thread (.check .lock))
  | busy (thread : MailboxThread) (htop : Stacks.top s.frames thread = some (.check .lock))
      (hflag : s.mailbox.sendInProgress) :
      Effect s { s.pop thread with mailbox.anotherRequest := true }
  | set (thread : MailboxThread) (htop : Stacks.top s.frames thread = some (.check .lock))
      (hflag : s.mailbox.sendInProgress = false) :
      Effect s { s.goOn thread (.check .create) with mailbox.sendInProgress := true }
  | create (thread : MailboxThread) (pc : MailboxPc) (hpc : pc = .call ∨ pc = .endError)
      (htop : Stacks.top s.frames thread = some (.check .create)) :
      Effect s (s.goOn thread (.check pc))
  | refuse (thread : MailboxThread) (client : Tr50Client (ReplyCallback κ))
      (htop : Stacks.top s.frames thread = some (.check .call)) (hclient : client.Between)
      (hcalled : client.calledChecks = s.client.calledChecks)
      (hwaiting : client.submittedChecks + client.waitingChecks
        = s.client.submittedChecks + s.client.waitingChecks) :
      Effect s { s.goOn thread (.check .endError) with client }
  | enter (thread : MailboxThread) (client : Tr50Client (ReplyCallback κ))
      (htop : Stacks.top s.frames thread = some (.check .call)) (hclient : client.Between)
      (hunsent : client.call.any (·.unsent))
      (hcalled : client.calledChecks = s.client.calledChecks + 1)
      (hwaiting : client.submittedChecks + client.waitingChecks
        = s.client.submittedChecks + s.client.waitingChecks + 1) :
      Effect s { s.goOn thread (.check .called) with client }
  | endError (thread : MailboxThread)
      (htop : Stacks.top s.frames thread = some (.check .endError)) :
      Effect s { s.pop thread with
        mailbox := { s.mailbox with sendInProgress := false, anotherRequest := false } }
  | done (thread : MailboxThread) (count : ℕ)
      (htop : Stacks.top s.frames thread = some (.callback count))
      (hanother : s.mailbox.anotherRequest = false) :
      Effect s { s.pop thread with mailbox.sendInProgress := false }
  | again (thread : MailboxThread) (count : ℕ)
      (htop : Stacks.top s.frames thread = some (.callback count)) :
      Effect s ({ s.pop thread with
        mailbox := { s.mailbox with
          sendInProgress := false
          anotherRequest := false } }.callCheck thread)
  | suspend (b : Bool) : Effect s { s with mailbox.suspend := b }
  /-- The client goes on; a call of a check that is not published yet stays so, unless `events` has
  its publish. -/
  | client (client : Tr50Client (ReplyCallback κ)) (events : List MailboxEvent)
      (hclient : client.Between) (hcalled : client.calledChecks = s.client.calledChecks)
      (hevents : events = s.events ∧ (s.client.call.any (·.unsent) → client.call.any (·.unsent))
        ∨ ∃ ret, events = .publish ret :: s.events)
      (hwaiting : client.submittedChecks + client.waitingChecks
        = s.client.submittedChecks + s.client.waitingChecks) :
      Effect s { s with client, events }
  | success (client : Tr50Client (ReplyCallback κ)) (events : List MailboxEvent)
      (hclient : client.Between) (hcalled : client.calledChecks = 0)
      (hevents : events = s.events ∧ ¬ s.client.call.any (·.unsent)
        ∨ ∃ ret, events = .publish ret :: s.events)
      (hwaiting : client.submittedChecks + client.waitingChecks
        = s.client.submittedChecks + s.client.waitingChecks) :
      Effect s { s with client, frames := dropCalled s.frames, events }
  | failure (client : Tr50Client (ReplyCallback κ)) (hclient : client.Between)
      (hcall : s.client.calledChecks = 1) (hcalled : client.calledChecks = 0)
      (hwaiting : client.submittedChecks + client.waitingChecks + 1
          = s.client.submittedChecks + s.client.waitingChecks
        ∨ client.submittedChecks + client.waitingChecks
          = s.client.submittedChecks + s.client.waitingChecks) :
      Effect s { s with client, frames := failCalled s.frames }
  /-- The callback of a check… -/
  | answer (thread : MailboxThread) (client : Tr50Client (ReplyCallback κ)) (count : ℕ)
      (hclient : client.Between) (hcall : client.call = s.client.call)
      (hwaiting : client.waitingChecks + 1 = s.client.waitingChecks) :
      Effect s { s with client, frames := (thread, .callback count) :: s.frames }
  /-- …and of another request. -/
  | app (thread : MailboxThread) (client : Tr50Client (ReplyCallback κ))
      (hclient : client.Between) (hcall : client.call = s.client.call)
      (hwaiting : client.waitingChecks = s.client.waitingChecks) :
      Effect s { s with client, frames := (thread, .app) :: s.frames }

/-- A reply that takes a mailbox check out is one, and no call of the application takes one back. -/
def Answered (inflate : List UInt8 → Option (List UInt8)) (s : MailboxSystem κ) :
    MailboxAction κ → Prop
  | .client (.receive topic data) => ∀ seqId text message,
      tr50PublishHandler inflate topic data = .reply seqId text →
      (tr50PendingFindAndRemove s.client.pending seqId).1 = some message →
      message.isMailboxCheck → Tr50Client.IsReply text
  | .client .remove => ∀ call message, s.client.call = some call → ¬ call.message.isMailboxCheck →
      (tr50PendingFindAndRemove s.client.pending call.message.seqId).1 = some message →
      ¬ message.isMailboxCheck
  | _ => True

/-- As often as a thread is inside a call of a check, so is the client. -/
structure Placed (s : MailboxSystem κ) : Prop where
  between : s.client.Between
  called : s.frames.countP (·.2 = .check .called) = s.client.calledChecks

theorem placed_init : Placed (init : MailboxSystem κ) := ⟨⟨Tr50Client.inv_init, rfl⟩, rfl⟩

end MailboxSystem

/-! ## Calls -/

namespace Tr50Client

variable {inflate : List UInt8 → Option (List UInt8)} {s t : Tr50Client (ReplyCallback κ)}

/-- A call that enters is at its first stage, or has been refused. -/
theorem apiEnter_checks {inSweep : Bool} {messageType : MessageType} {timeout : ℤ}
    {callback : Option (ReplyCallback κ)} (hs : s.Between)
    (h : s.apiEnter inSweep messageType timeout callback = some t) :
    t.Between ∧ s.call = none ∧ t.pending = s.pending
      ∧ (t.call = none ∨ ∃ call, t.call = some call ∧ call.message.callback = callback
        ∧ (call.stage = .payload ∨ call.stage = .add)) := by
  have hinv := hs.inv.step (apiEnter_effect h)
  simp only [apiEnter] at h
  split_ifs at h with hcall hsweep
  all_goals
    have hnone : s.call = none := Option.not_isSome_iff_eq_none.mp hcall
    obtain rfl := Option.some.inj h
  · exact ⟨⟨hinv, hs.delivery⟩, hnone, rfl, Or.inl rfl⟩
  · exact ⟨⟨hinv, hs.delivery⟩, hnone, rfl, Or.inl rfl⟩
  · refine ⟨⟨hinv, hs.delivery⟩, hnone, rfl, Or.inr ⟨_, rfl, rfl, ?_⟩⟩
    cases messageType <;> simp

end Tr50Client

namespace MailboxSystem

variable {inflate : List UInt8 → Option (List UInt8)} {s t : MailboxSystem κ}

theorem check_effect {thread : MailboxThread} {granted : Bool} {pc : MailboxPc} (hs : Placed s)
    (htop : Stacks.top s.frames thread = some (.check pc))
    (h : s.tr50MailboxCheck thread granted pc = some t) : Effect s t := by
  cases pc with
  | entry =>
    obtain rfl := Option.some.inj h
    split_ifs with hsuspend
    · exact .leave thread _ htop (Or.inr ⟨rfl, hsuspend⟩)
    · exact .lock thread htop
  | lock =>
    obtain rfl := Option.some.inj h
    split_ifs with hflag
    · exact .busy thread htop hflag
    · exact .set thread htop (Bool.not_eq_true _ ▸ hflag)
  | create =>
    obtain rfl := Option.some.inj h
    refine .create thread _ ?_ htop
    cases granted <;> simp
  | call =>
    obtain ⟨client, hclient, rfl⟩ := Option.map_eq_some_iff.mp h
    obtain ⟨hbetween, hnone, hpending, hcall⟩ :=
      Tr50Client.apiEnter_checks hs.between hclient
    have hwaiting : client.waitingChecks = s.client.waitingChecks := by
      rw [Tr50Client.waitingChecks, hpending]
      rfl
    rcases hcall with hcall | ⟨call, hcall, hcallback, hstage⟩
    · rw [if_neg (by simp [hcall])]
      refine .refuse thread client htop hbetween ?_ ?_
      · simp [Tr50Client.calledChecks, hcall, hnone]
      · simp [Tr50Client.submittedChecks, hcall, hnone, hwaiting]
    · have hmailbox : call.message.isMailboxCheck := by
        rw [Tr50Message.isMailboxCheck, hcallback]
        rfl
      rw [if_pos (by simp [hcall])]
      refine .enter thread client htop hbetween ?_ ?_ ?_
      · rcases hstage with hstage | hstage <;> simp [hcall, ApiCall.unsent, hmailbox, hstage]
      · simp [Tr50Client.calledChecks, hcall, hnone, hmailbox]
      · have hsubmitting : call.submitting := by
          simpa [ApiCall.submitting, hmailbox] using hstage
        simp [Tr50Client.submittedChecks, hcall, hnone, hsubmitting, hwaiting, add_comm]
  | called => cases h
  | endError =>
    obtain rfl := Option.some.inj h
    exact .endError thread htop

theorem move_effect {thread : MailboxThread} {choice : MailboxChoice} (hs : Placed s)
    (h : s.move thread choice = some t) : Effect s t := by
  unfold move at h
  split at h
  · cases h
  split at h
  · split at h
    · cases h
    · obtain rfl := Option.some.inj h
      exact .check thread
  · obtain rfl := Option.some.inj h
    exact .check thread
  · rename_i htop
    obtain rfl := Option.some.inj h
    exact .leave thread _ htop (Or.inl rfl)
  · split at h
    · cases h
    · obtain rfl := Option.some.inj h
      exact .check thread
  · rename_i count _ htop
    obtain rfl := Option.some.inj h
    unfold tr50MailboxCheckCallback
    split_ifs with hagain
    · exact .again thread count htop
    · exact .done thread count htop (Bool.not_eq_true _ ▸ fun h => hagain (Or.inr h))
  · rename_i pc granted htop
    exact check_effect hs htop h
  · cases h

section Calls

variable {call : ApiCall (ReplyCallback κ)} {client : Tr50Client (ReplyCallback κ)}
  {a : Action (ReplyCallback κ)}

/-- A call of the application. -/
theorem finish_app (hcall : s.client.call = some call)
    (happ : call.message.isMailboxCheck = false) (hclient : client.Between)
    (hnext : client.call = none ∨ ∃ stage, client.call = some { call with stage })
    (hwaiting : client.waitingChecks = s.client.waitingChecks) : Effect s (s.finish a client) := by
  have hevents : s.clientEvents a = s.events := by
    unfold clientEvents
    split
    · rw [if_neg (by simp [hcall, happ])]
    · rfl
  have hnone : s.client.calledChecks = 0 ∧ s.client.submittedChecks = 0 := by
    simp [Tr50Client.calledChecks, Tr50Client.submittedChecks, hcall, ApiCall.submitting, happ]
  have hnone' : client.calledChecks = 0 ∧ client.submittedChecks = 0 := by
    rcases hnext with hnext | ⟨stage, hnext⟩ <;>
      simp [Tr50Client.calledChecks, Tr50Client.submittedChecks, hnext, ApiCall.submitting, happ]
  rw [finish, if_neg (by simp [hcall, happ]), hevents]
  refine .client client s.events hclient (hnone'.1.trans hnone.1.symm) (Or.inl ⟨rfl, ?_⟩) ?_
  · simp [hcall, ApiCall.unsent, happ]
  · rw [hnone.2, hnone'.2, hwaiting]

/-- The call of a check that goes on. -/
theorem finish_goOn (hcall : s.client.call = some call) (hcheck : call.message.isMailboxCheck)
    (hclient : client.Between) {stage : Stage} (hnext : client.call = some { call with stage })
    (hevents : s.clientEvents a = s.events ∧ (call.unsent → { call with stage }.unsent)
      ∨ ∃ ret, s.clientEvents a = .publish ret :: s.events)
    (hwaiting : ({ call with stage }.submitting.toNat) + client.waitingChecks
      = call.submitting.toNat + s.client.waitingChecks) : Effect s (s.finish a client) := by
  rw [finish, if_neg (by simp [hnext])]
  refine .client client _ hclient ?_ ?_ ?_
  · simp [Tr50Client.calledChecks, hcall, hnext, hcheck]
  · simpa [hcall, hnext] using hevents
  · simpa [Tr50Client.submittedChecks, hcall, hnext, List.countP_singleton, Bool.toNat,
      Bool.cond_eq_ite] using hwaiting

/-- …that fails… -/
theorem finish_failure (hcall : s.client.call = some call) (hcheck : call.message.isMailboxCheck)
    (hclient : client.Between) (hnext : client.call = none) (ha : s.clientEvents a = s.events)
    (hfailed : client.history.returned.head?.any (·.ret ≠ 0))
    (hwaiting : client.waitingChecks + 1 = call.submitting.toNat + s.client.waitingChecks
      ∨ client.waitingChecks = call.submitting.toNat + s.client.waitingChecks) :
    Effect s (s.finish a client) := by
  rw [finish, if_pos (by simp [hcall, hcheck, hnext]), if_pos hfailed, ha]
  refine .failure client hclient ?_ ?_ ?_
  · simp [Tr50Client.calledChecks, hcall, hcheck]
  · simp [Tr50Client.calledChecks, hnext]
  · simpa [Tr50Client.submittedChecks, hcall, hnext, List.countP_singleton, Bool.toNat,
      Bool.cond_eq_ite] using hwaiting

/-- …and that succeeds. -/
theorem finish_success (hcall : s.client.call = some call) (hcheck : call.message.isMailboxCheck)
    (hclient : client.Between) (hnext : client.call = none)
    (hok : client.history.returned.head?.any (·.ret ≠ 0) = false)
    (hevents : s.clientEvents a = s.events ∧ ¬ call.unsent
      ∨ ∃ ret, s.clientEvents a = .publish ret :: s.events)
    (hwaiting : client.waitingChecks = call.submitting.toNat + s.client.waitingChecks) :
    Effect s (s.finish a client) := by
  rw [finish, if_pos (by simp [hcall, hcheck, hnext]), hok, if_neg Bool.false_ne_true]
  refine .success client _ hclient ?_ ?_ ?_
  · simp [Tr50Client.calledChecks, hnext]
  · simpa [hcall] using hevents
  · simpa [Tr50Client.submittedChecks, hcall, hnext, List.countP_singleton, Bool.toNat,
      Bool.cond_eq_ite] using hwaiting

/-- A step of a call of the application… -/
theorem appStep_effect (hs : Placed s) (hcall : s.client.call = some call)
    (happ : call.message.isMailboxCheck = false)
    (h : s.client.apiStep call call.stage a = some client) (hclient : client.Between)
    (hgood : Answered inflate s (.client a)) : Effect s (s.finish a client) := by
  unfold Tr50Client.apiStep at h
  split at h
  · split_ifs at h <;> obtain rfl := Option.some.inj h
    · exact finish_app hcall happ hclient (Or.inl rfl) rfl
    · exact finish_app hcall happ hclient (Or.inr ⟨_, rfl⟩) rfl
  · unfold Tr50Client.apiAdd at h
    split_ifs at h
    obtain rfl := Option.some.inj h
    refine finish_app hcall happ hclient (Or.inr ⟨_, rfl⟩) ?_
    exact (Tr50Client.countP_add ..).trans (by simp [happ, Tr50Client.waitingChecks])
  · split_ifs at h <;> obtain rfl := Option.some.inj h
    · exact finish_app hcall happ hclient (Or.inl rfl) rfl
    · exact finish_app hcall happ hclient (Or.inr ⟨_, rfl⟩) rfl
  · split_ifs at h <;> obtain rfl := Option.some.inj h
    · exact finish_app hcall happ hclient (Or.inr ⟨_, rfl⟩) rfl
    · exact finish_app hcall happ hclient (Or.inl rfl) rfl
  · unfold Tr50Client.apiRemove at h
    split_ifs at h
    rcases findAndRemove_cases s.client.pending call.message.seqId with
      ⟨hfind, -⟩ | ⟨m, hmem, -, hfind⟩
    · rw [hfind] at h
      obtain rfl := Option.some.inj h
      exact finish_app hcall happ hclient (Or.inl rfl) rfl
    · have hm := hgood call m hcall (by simp [happ]) (by rw [hfind])
      rw [hfind] at h
      obtain rfl := Option.some.inj h
      refine finish_app hcall happ hclient (Or.inl rfl) ?_
      have hcount := Tr50Client.waitingChecks_remove hs.between.inv hmem
      rw [if_neg hm] at hcount
      exact hcount.symm
  · cases h

/-- …and of a mailbox check. -/
theorem checkStep_effect (hs : Placed s) (hcall : s.client.call = some call)
    (hcheck : call.message.isMailboxCheck = true)
    (h : s.client.apiStep call call.stage a = some client) (hclient : client.Between) :
    Effect s (s.finish a client) := by
  unfold Tr50Client.apiStep at h
  split at h
  · rename_i hstage
    split_ifs at h with hret <;> obtain rfl := Option.some.inj h
    · refine finish_failure hcall hcheck hclient rfl rfl (by simpa [Tr50Client.leave] using hret)
        (Or.inl ?_)
      simp [ApiCall.submitting, hcheck, hstage, Tr50Client.leave, Tr50Client.waitingChecks,
        add_comm]
    · refine finish_goOn hcall hcheck hclient rfl (Or.inl ⟨rfl, ?_⟩) ?_
      · simp [ApiCall.unsent, hcheck]
      · simp [ApiCall.submitting, hcheck, hstage, Tr50Client.goOn, Tr50Client.waitingChecks]
  · rename_i now hstage
    unfold Tr50Client.apiAdd at h
    split_ifs at h
    obtain rfl := Option.some.inj h
    refine finish_goOn hcall hcheck hclient rfl (Or.inl ⟨rfl, ?_⟩) ?_
    · cases call.message.messageType <;> simp [ApiCall.unsent, hcheck]
    · have hcount := Tr50Client.countP_add s.client.pending call.message now
      rw [if_pos hcheck] at hcount
      cases call.message.messageType <;>
        simp [ApiCall.submitting, hcheck, hstage, Tr50Client.goOn, Tr50Client.waitingChecks,
          hcount, add_comm]
  · rename_i hstage
    split_ifs at h with hret <;> obtain rfl := Option.some.inj h
    · refine finish_failure hcall hcheck hclient rfl rfl (by simpa [Tr50Client.leave] using hret)
        (Or.inr ?_)
      simp [ApiCall.submitting, hstage, Tr50Client.leave, Tr50Client.waitingChecks]
    · refine finish_goOn hcall hcheck hclient rfl (Or.inl ⟨rfl, ?_⟩) ?_
      · simp [ApiCall.unsent, hcheck]
      · simp [ApiCall.submitting, hstage, Tr50Client.goOn, Tr50Client.waitingChecks]
  · rename_i ret hstage
    have hevents : s.clientEvents (.publish ret) = .publish ret :: s.events := by
      simp [clientEvents, hcall, hcheck]
    split_ifs at h with hret <;> obtain rfl := Option.some.inj h
    · refine finish_goOn hcall hcheck hclient rfl (Or.inr ⟨ret, hevents⟩) ?_
      simp [ApiCall.submitting, hstage, Tr50Client.goOn, Tr50Client.waitingChecks]
    · refine finish_success hcall hcheck hclient rfl (by simp [Tr50Client.leave])
        (Or.inr ⟨ret, hevents⟩) ?_
      simp [ApiCall.submitting, hstage, Tr50Client.leave, Tr50Client.waitingChecks]
  · rename_i ret hstage
    have hret : ret ≠ 0 := (hs.between.inv.callPlaced call hcall).remove ret hstage
    have hsubmitting : call.submitting = false := by simp [ApiCall.submitting, hstage]
    unfold Tr50Client.apiRemove at h
    split_ifs at h
    rcases findAndRemove_cases s.client.pending call.message.seqId with
      ⟨hfind, -⟩ | ⟨m, hmem, -, hfind⟩
    · rw [hfind] at h
      obtain rfl := Option.some.inj h
      refine finish_success hcall hcheck hclient rfl (by simp [Tr50Client.leave])
        (Or.inl ⟨rfl, by simp [ApiCall.unsent, hstage]⟩) ?_
      simp [hsubmitting, Tr50Client.leave, Tr50Client.waitingChecks]
    · rw [hfind] at h
      obtain rfl := Option.some.inj h
      refine finish_failure hcall hcheck hclient rfl rfl (by simpa [Tr50Client.leave] using hret) ?_
      have hcount := Tr50Client.waitingChecks_remove hs.between.inv hmem
      simp only [hsubmitting, Bool.toNat_false, Nat.zero_add]
      split_ifs at hcount
      · exact Or.inl hcount.symm
      · exact Or.inr hcount.symm
  · cases h

/-- A step of the call in progress. -/
theorem callStep_effect (hs : Placed s) (hcall : s.client.call = some call)
    (h : s.client.apiStep call call.stage a = some client) (hclient : client.Between)
    (hgood : Answered inflate s (.client a)) : Effect s (s.finish a client) := by
  cases hcheck : call.message.isMailboxCheck with
  | false => exact appStep_effect hs hcall hcheck h hclient hgood
  | true => exact checkStep_effect hs hcall hcheck h hclient

end Calls

/-! ## Steps of the client -/

section Steps

variable {client : Tr50Client (ReplyCallback κ)} {a : Action (ReplyCallback κ)}

/-- A step that leaves calls and list alone. -/
theorem quiet_effect (hclient : client.Between) (hcall : client.call = s.client.call)
    (hwaiting : client.waitingChecks = s.client.waitingChecks) :
    Effect s { s with client } := by
  refine .client client s.events hclient ?_ (Or.inl ⟨rfl, fun h => ?_⟩) ?_
  · rw [Tr50Client.calledChecks, hcall]
    rfl
  · rwa [hcall]
  · rw [Tr50Client.submittedChecks, hcall, hwaiting]
    rfl

/-- A request that has been taken out has its callback. -/
theorem run_effect {thread : MailboxThread} (message : Tr50Message (ReplyCallback κ))
    {status : ℤ} (answer : Option Answer) (hclient : client.Between)
    (hcall : client.call = s.client.call)
    (hcallbacks : client.history.callbacks
      = (message.callback.toList.map fun k => ⟨message.handle, k, status, answer⟩)
        ++ s.client.history.callbacks)
    (hwaiting : s.client.waitingChecks
      = client.waitingChecks + if message.isMailboxCheck then 1 else 0) :
    Effect s (s.run thread client) := by
  rw [Tr50Message.isMailboxCheck] at hwaiting
  unfold run
  rw [hcallbacks]
  cases hcb : message.callback with
  | none =>
    rw [hcb] at hwaiting
    simpa using quiet_effect hclient hcall hwaiting.symm
  | some k =>
    rw [hcb] at hwaiting
    cases k with
    | mailboxCheck =>
      simpa [Invocation.frame] using Effect.answer thread client _ hclient hcall hwaiting.symm
    | app k =>
      simpa [Invocation.frame] using Effect.app thread client hclient hcall hwaiting.symm

theorem run_quiet {thread : MailboxThread} (hclient : client.Between)
    (hcall : client.call = s.client.call)
    (hcallbacks : client.history.callbacks = s.client.history.callbacks)
    (hwaiting : client.waitingChecks = s.client.waitingChecks) :
    Effect s (s.run thread client) := by
  unfold run
  rw [hcallbacks]
  simpa using quiet_effect hclient hcall hwaiting

theorem visit_effect {thread : MailboxThread} (hs : Placed s) (h : s.client.visit = some client)
    (hclient : client.Between) : Effect s (s.run thread client) := by
  unfold Tr50Client.visit at h
  split at h
  · obtain ⟨m, hfind, rfl⟩ := Option.map_eq_some_iff.mp h
    have hmem := List.mem_of_find?_eq_some hfind
    unfold Tr50Client.visitMessage at hclient ⊢
    split at hclient
    · exact run_quiet hclient rfl rfl rfl
    · exact run_quiet hclient rfl rfl (Tr50Client.countP_reschedule ..)
    · exact run_effect m none hclient rfl rfl
        (Tr50Client.waitingChecks_remove hs.between.inv hmem)
  · obtain rfl := Option.some.inj h
    exact run_quiet hclient rfl rfl rfl
  · cases h

/-- A reply calls the callback there is, unless it is none. -/
theorem handleReply_cases (d : Delivery κ) :
    (∃ answer, tr50HandleReply d
      = d.request.callback.toList.map fun k => ⟨d.request.handle, k, 0, some answer⟩)
    ∨ tr50HandleReply d = [] ∧ ¬ Tr50Client.IsReply d.data := by
  unfold tr50HandleReply
  split
  · exact Or.inl ⟨_, rfl⟩
  · split
    · rename_i herror
      exact Or.inr ⟨rfl, by simp [Tr50Client.IsReply, herror]⟩
    · rename_i reply hreply
      split_ifs with hnot
      · exact Or.inl ⟨_, rfl⟩
      · exact Or.inr ⟨rfl, by simpa [Tr50Client.IsReply, hreply] using hnot⟩

theorem receive_effect {topic data : List UInt8} (hs : Placed s)
    (h : s.clientStep inflate (.receive topic data) = some t)
    (hgood : Answered inflate s (.client (.receive topic data))) : Effect s t := by
  simp only [clientStep] at h
  split at h
  · cases h
  obtain ⟨client, hreceive, hnext⟩ := Option.bind_eq_some_iff.mp h
  have hinv := hs.between.inv.step (Tr50Client.receive_effect (a := .deliver) hreceive)
  have hdelivery := hs.between.delivery
  unfold Tr50Client.receive at hreceive
  rw [if_neg (by simp [hdelivery])] at hreceive
  -- what finds nothing, and what is no reply, leaves the client as it is
  have hsame : client = s.client → Effect s t := by
    rintro rfl
    rw [if_neg (by simp [hdelivery])] at hnext
    split at hnext <;> obtain rfl := Option.some.inj hnext
    · exact .check .receive
    · exact quiet_effect hs.between rfl rfl
  split at hreceive
  · rename_i seqId text hinbound
    split at hreceive
    · rcases findAndRemove_cases s.client.pending seqId with ⟨hfind, -⟩ | ⟨m, hmem, -, hfind⟩
      · rw [hfind] at hreceive
        exact hsame (Option.some.inj hreceive).symm
      · have hreply := hgood seqId text m hinbound (by rw [hfind])
        rw [hfind] at hreceive
        obtain rfl := Option.some.inj hreceive
        have hbetween := Tr50Client.Between.mk (hinv.step (.deliver ⟨m, seqId, text⟩ rfl)) rfl
        have hwaiting := Tr50Client.waitingChecks_remove hs.between.inv hmem
        obtain rfl := Option.some.inj hnext
        rcases handleReply_cases ⟨m, seqId, text⟩ with ⟨answer, hcall⟩ | ⟨hnone, hnot⟩
        · exact run_effect m (some answer) hbetween rfl
            (congrArg (· ++ s.client.history.callbacks) hcall) hwaiting
        · rw [if_neg fun hcheck => hnot (hreply hcheck)] at hwaiting
          exact run_quiet hbetween rfl (congrArg (· ++ s.client.history.callbacks) hnone)
            hwaiting.symm
    · cases hreceive
  all_goals exact hsame (Option.some.inj hreceive).symm

/-- A step of a call, whichever is in progress. -/
theorem call_effect (hs : Placed s) (h : s.client.step inflate a = some client)
    (hstep : s.client.step inflate a = s.client.call.bind fun call =>
      s.client.apiStep call call.stage a)
    (hgood : Answered inflate s (.client a)) : Effect s (s.finish a client) := by
  obtain ⟨call, hcall, hnext⟩ := Option.bind_eq_some_iff.mp (hstep.symm.trans h)
  exact callStep_effect hs hcall hnext ⟨hs.between.inv.step (Tr50Client.step_effect h),
    (Tr50Client.apiStep_keeps hnext).delivery.trans hs.between.delivery⟩ hgood

/-- Where no call returns the frames stay. -/
theorem finish_quiet (hclient : client.Between) (hcall : client.call = s.client.call)
    (ha : s.clientEvents a = s.events) (hwaiting : client.waitingChecks = s.client.waitingChecks) :
    Effect s (s.finish a client) := by
  unfold finish
  rw [if_neg, ha]
  · exact quiet_effect hclient hcall hwaiting
  · rintro ⟨hany, hnone⟩
    rw [hcall, Option.isNone_iff_eq_none] at hnone
    rw [hnone] at hany
    cases hany

/-- The application submits a request of its own. -/
theorem api_effect {inSweep : Bool} {messageType : MessageType} {timeout : ℤ}
    {callback : Option (ReplyCallback κ)} (hs : Placed s)
    (happ : ¬ callback.any (·.isMailboxCheck))
    (h : s.client.apiEnter inSweep messageType timeout callback = some client) :
    Effect s (s.finish (.api inSweep messageType timeout callback) client) := by
  obtain ⟨hbetween, hnone, hpending, hcall⟩ := Tr50Client.apiEnter_checks hs.between h
  have hwaiting : client.waitingChecks = s.client.waitingChecks := by
    rw [Tr50Client.waitingChecks, hpending]
    rfl
  have hcalled : client.calledChecks = 0 ∧ client.submittedChecks = 0 := by
    rcases hcall with hcall | ⟨call, hcall, rfl, -⟩
    · simp [Tr50Client.calledChecks, Tr50Client.submittedChecks, hcall]
    · have hnot : call.message.isMailboxCheck = false := Bool.not_eq_true _ ▸ happ
      simp [Tr50Client.calledChecks, Tr50Client.submittedChecks, hcall, ApiCall.submitting, hnot]
  rw [finish, if_neg (by simp [hnone])]
  refine .client client _ hbetween ?_ (Or.inl ⟨rfl, by simp [hnone]⟩) ?_
  · rw [hcalled.1, Tr50Client.calledChecks, hnone]
    rfl
  · rw [hcalled.2, hwaiting, Tr50Client.submittedChecks, hnone]
    rfl

/-- **Every step has one of these effects**, where replies are replies. -/
theorem step_effect {a : MailboxAction κ} (hs : Placed s) (h : s.step inflate a = some t)
    (hgood : Answered inflate s a) : Effect s t := by
  cases a with
  | move thread choice => exact move_effect hs h
  | suspend b =>
    obtain rfl := Option.some.inj h
    exact .suspend b
  | client a =>
    have hbetween : ∀ {client}, s.client.step inflate a = some client →
        client.delivery = s.client.delivery → client.Between := fun hclient hdelivery =>
      ⟨hs.between.inv.step (Tr50Client.step_effect hclient),
        hdelivery.trans hs.between.delivery⟩
    change s.clientStep inflate a = some t at h
    cases a with
    | receive topic data => exact receive_effect hs h hgood
    | deliver => cases h
    | visit =>
      simp only [clientStep] at h
      split at h
      · cases h
      · obtain ⟨client, hclient, rfl⟩ := Option.map_eq_some_iff.mp h
        exact visit_effect hs hclient
          (hbetween hclient (Tr50Client.visit_keeps hclient).delivery)
    | callbackReturn =>
      simp only [clientStep] at h
      split at h
      · cases h
      · obtain ⟨client, hclient, rfl⟩ := Option.map_eq_some_iff.mp h
        have hbetween : client.delivery = s.client.delivery → client.Between := hbetween hclient
        unfold Tr50Client.callbackReturn at hclient
        split at hclient
        · split_ifs at hclient
          obtain rfl := Option.some.inj hclient
          exact quiet_effect (hbetween rfl) rfl rfl
        · cases hclient
    | api inSweep messageType timeout callback =>
      simp only [clientStep] at h
      split at h
      · cases h
      · rename_i happ
        obtain ⟨client, hclient, rfl⟩ := Option.map_eq_some_iff.mp h
        exact api_effect hs happ hclient
    | msgIdNext =>
      obtain ⟨client, hclient, rfl⟩ := Option.map_eq_some_iff.mp h
      have hbetween := hbetween hclient
      simp only [Tr50Client.step] at hclient
      split_ifs at hclient
      obtain rfl := Option.some.inj hclient
      exact finish_quiet (hbetween rfl) rfl rfl rfl
    | lifecycle stopped isStopping =>
      obtain ⟨client, hclient, rfl⟩ := Option.map_eq_some_iff.mp h
      have hbetween := hbetween hclient
      simp only [Tr50Client.step] at hclient
      split_ifs at hclient
      obtain rfl := Option.some.inj hclient
      exact finish_quiet (hbetween rfl) rfl rfl rfl
    | sweep now =>
      obtain ⟨client, hclient, rfl⟩ := Option.map_eq_some_iff.mp h
      have hbetween := hbetween hclient
      simp only [Tr50Client.step] at hclient
      split_ifs at hclient
      obtain rfl := Option.some.inj hclient
      exact finish_quiet (hbetween rfl) rfl rfl rfl
    | payload _ | add _ | compress _ | publish _ | remove =>
      obtain ⟨client, hclient, rfl⟩ := Option.map_eq_some_iff.mp h
      refine call_effect hs hclient ?_ hgood
      cases hcall : s.client.call <;> simp [Tr50Client.step, hcall]

end Steps

/-! ## What a set flag stands for -/

section Frames

variable {frames : List (MailboxThread × MailboxFrame)} {p : MailboxFrame → Bool}

/-- The checks inside a call are gone when it has returned. -/
theorem countP_dropCalled (hp : p (.check .called) = false) :
    (dropCalled frames).countP (p ·.2) = frames.countP (p ·.2) := by
  rw [dropCalled, List.countP_filter]
  refine List.countP_congr fun f _ => ?_
  by_cases hf : f.2 = .check .called
  · simp [hf, hp]
  · simp [hf]

theorem countP_called_dropCalled : (dropCalled frames).countP (·.2 = .check .called) = 0 := by
  simp [dropCalled, List.countP_eq_zero]

/-- …or they are at their `end_error`. -/
theorem countP_failCalled (hp : p (.check .called) = false) :
    (failCalled frames).countP (p ·.2) = frames.countP (p ·.2)
      + if p (.check .endError) then frames.countP (·.2 = .check .called) else 0 := by
  induction frames with
  | nil => simp [failCalled]
  | cons f frames ih =>
    obtain ⟨thread, frame⟩ := f
    change List.countP (p ·.2) (_ :: failCalled frames) = _
    simp only [List.countP_cons, ih]
    by_cases hf : frame = .check .called
    · subst hf
      simp only [hp, if_true, Bool.false_eq_true, if_false, decide_true]
      split_ifs <;> omega
    · simp only [hf, if_false, decide_false, Bool.false_eq_true]
      split_ifs <;> omega

theorem countP_called_failCalled : (failCalled frames).countP (·.2 = .check .called) = 0 := by
  rw [failCalled, List.countP_map, List.countP_eq_zero]
  intro f _
  simp only [Function.comp_apply]
  split_ifs with hf
  · simp
  · simpa using hf

end Frames

/-- A frame other than a call comes and goes. -/
theorem called_pop {thread : MailboxThread} {frame : MailboxFrame} (hs : Placed s)
    (htop : Stacks.top s.frames thread = some frame) (hframe : frame ≠ .check .called) :
    (Stacks.pop s.frames thread).countP (·.2 = .check .called) = s.client.calledChecks := by
  have hcount := Stacks.countP_pop (fun f => f = .check .called) htop
  rw [if_neg (by simpa using hframe), Nat.add_zero] at hcount
  exact hcount.symm.trans hs.called

theorem called_push {thread : MailboxThread} {frame : MailboxFrame}
    {frames : List (MailboxThread × MailboxFrame)} (hframe : frame ≠ .check .called) :
    List.countP (·.2 = .check .called) ((thread, frame) :: frames)
      = frames.countP (·.2 = .check .called) :=
  List.countP_cons_of_neg (by simpa using hframe)

theorem Effect.placed (hs : Placed s) (h : Effect s t) : Placed t := by
  cases h with
  | check thread => exact ⟨hs.between, (called_push (by simp)).trans hs.called⟩
  | leave thread frame htop hframe =>
    refine ⟨hs.between, called_pop hs htop ?_⟩
    rcases hframe with rfl | ⟨rfl, -⟩ <;> simp
  | lock thread htop =>
    exact ⟨hs.between, (called_push (by simp)).trans (called_pop hs htop (by simp))⟩
  | busy thread htop hflag => exact ⟨hs.between, called_pop hs htop (by simp)⟩
  | set thread htop hflag =>
    exact ⟨hs.between, (called_push (by simp)).trans (called_pop hs htop (by simp))⟩
  | create thread pc hpc htop =>
    refine ⟨hs.between, (called_push ?_).trans (called_pop hs htop (by simp))⟩
    rcases hpc with rfl | rfl <;> simp
  | refuse thread client htop hclient hcalled hwaiting =>
    exact ⟨hclient, ((called_push (by simp)).trans (called_pop hs htop (by simp))).trans
      hcalled.symm⟩
  | enter thread client htop hclient hunsent hcalled hwaiting =>
    refine ⟨hclient, ?_⟩
    have hcount := Stacks.countP_goOn (fun f => f = .check .called) htop (.check .called)
    simp only [decide_true, if_true, hs.called] at hcount
    simpa [hcalled] using hcount
  | endError thread htop => exact ⟨hs.between, called_pop hs htop (by simp)⟩
  | done thread count htop hanother => exact ⟨hs.between, called_pop hs htop (by simp)⟩
  | again thread count htop =>
    exact ⟨hs.between, (called_push (by simp)).trans (called_pop hs htop (by simp))⟩
  | suspend b => exact ⟨hs.between, hs.called⟩
  | client client events hclient hcalled hevents hwaiting =>
    exact ⟨hclient, hs.called.trans hcalled.symm⟩
  | success client events hclient hcalled hevents hwaiting =>
    exact ⟨hclient, countP_called_dropCalled.trans hcalled.symm⟩
  | failure client hclient hcall hcalled hwaiting =>
    exact ⟨hclient, countP_called_failCalled.trans hcalled.symm⟩
  | answer thread client count hclient hcall hwaiting =>
    refine ⟨hclient, (called_push (by simp)).trans (hs.called.trans ?_)⟩
    rw [Tr50Client.calledChecks, Tr50Client.calledChecks, hcall]
  | app thread client hclient hcall hwaiting =>
    refine ⟨hclient, (called_push (by simp)).trans (hs.called.trans ?_)⟩
    rw [Tr50Client.calledChecks, Tr50Client.calledChecks, hcall]

/-- What a step does to the flag, and to what it stands for. -/
inductive Turn (s t : MailboxSystem κ) : Prop
  | keep (hflag : t.mailbox.sendInProgress = s.mailbox.sendInProgress)
      (h : t.outstanding = s.outstanding)
  | set (hfree : s.mailbox.sendInProgress = false) (hflag : t.mailbox.sendInProgress = true)
      (h : t.outstanding = s.outstanding + 1)
  | clear (hflag : t.mailbox.sendInProgress = false) (h : t.outstanding + 1 = s.outstanding)
  /-- A check has failed that did not take its own request back. -/
  | twice (hflag : t.mailbox.sendInProgress = s.mailbox.sendInProgress)
      (hfailed : ∃ f ∈ t.frames, f.2 = .check .endError) (h : t.outstanding = s.outstanding + 1)

theorem held_push {thread : MailboxThread} {frame : MailboxFrame}
    {frames : List (MailboxThread × MailboxFrame)} :
    held ((thread, frame) :: frames) = held frames + if frame.holds then 1 else 0 :=
  List.countP_cons ..

theorem Placed.exists_failed (hs : Placed s) (hcall : s.client.calledChecks = 1) :
    ∃ f ∈ failCalled s.frames, f.2 = .check .endError := by
  obtain ⟨f, hf, hcalled⟩ := List.countP_pos_iff.mp (hs.called.trans hcall ▸ Nat.one_pos)
  refine ⟨(f.1, .check .endError), List.mem_map.mpr ⟨f, hf, ?_⟩, rfl⟩
  rw [if_pos (of_decide_eq_true hcalled)]

/-- **A step hands the check on**, or sets or clears the flag. -/
theorem Effect.turn (hs : Placed s) (h : Effect s t) : Turn s t := by
  cases h with
  | check thread => exact .keep rfl (congrArg (· + _) held_push)
  | leave thread frame htop hframe =>
    have hcount := Stacks.countP_pop MailboxFrame.holds htop
    refine .keep rfl ?_
    rcases hframe with rfl | ⟨rfl, -⟩ <;> exact congrArg (· + _) hcount.symm
  | lock thread htop =>
    exact .keep rfl (congrArg (· + _) (Stacks.countP_goOn MailboxFrame.holds htop (.check .lock)))
  | busy thread htop hflag =>
    exact .keep rfl (congrArg (· + _) (Stacks.countP_pop MailboxFrame.holds htop).symm)
  | set thread htop hflag =>
    have hcount : held (Stacks.goOn s.frames thread (.check .create)) + 0 = held s.frames + 1 :=
      Stacks.countP_goOn MailboxFrame.holds htop _
    refine .set hflag rfl ?_
    simp only [outstanding, goOn]
    omega
  | create thread pc hpc htop =>
    have hcount := Stacks.countP_goOn MailboxFrame.holds htop (.check pc)
    refine .keep rfl ?_
    rcases hpc with rfl | rfl <;> exact congrArg (· + _) (Nat.add_right_cancel hcount)
  | refuse thread client htop hclient hcalled hwaiting =>
    have hcount : held (Stacks.goOn s.frames thread (.check .endError)) = held s.frames :=
      Nat.add_right_cancel (Stacks.countP_goOn MailboxFrame.holds htop _)
    exact .keep rfl (congrArg₂ (· + ·) hcount hwaiting)
  | enter thread client htop hclient hunsent hcalled hwaiting =>
    have hcount : held (Stacks.goOn s.frames thread (.check .called)) + 1 = held s.frames :=
      Stacks.countP_goOn MailboxFrame.holds htop _
    refine .keep rfl ?_
    simp only [outstanding, frames_goOn]
    omega
  | endError thread htop =>
    have hcount : held s.frames = held (Stacks.pop s.frames thread) + 1 :=
      Stacks.countP_pop MailboxFrame.holds htop
    refine .clear rfl ?_
    simp only [outstanding, pop]
    omega
  | done thread count htop hanother =>
    have hcount : held s.frames = held (Stacks.pop s.frames thread) + 1 :=
      Stacks.countP_pop MailboxFrame.holds htop
    refine .clear rfl ?_
    simp only [outstanding, pop]
    omega
  | again thread count htop =>
    have hcount : held s.frames = held (Stacks.pop s.frames thread) + 1 :=
      Stacks.countP_pop MailboxFrame.holds htop
    have hpush : held ((thread, .check .entry) :: Stacks.pop s.frames thread)
        = held (Stacks.pop s.frames thread) := held_push
    refine .clear rfl ?_
    simp only [outstanding, callCheck, pop]
    omega
  | suspend b => exact .keep rfl rfl
  | client client events hclient hcalled hevents hwaiting =>
    exact .keep rfl (congrArg (_ + ·) hwaiting)
  | success client events hclient hcalled hevents hwaiting =>
    exact .keep rfl (congrArg₂ (· + ·) (countP_dropCalled rfl) hwaiting)
  | failure client hclient hcall hcalled hwaiting =>
    have hone : s.frames.countP (·.2 = .check .called) = 1 := hs.called.trans hcall
    have hcount : held (failCalled s.frames) = held s.frames + 1 :=
      (countP_failCalled rfl).trans (congrArg (_ + ·) hone)
    rcases hwaiting with hwaiting | hwaiting
    · refine .keep rfl ?_
      simp only [outstanding]
      omega
    · refine .twice rfl (hs.exists_failed hcall) ?_
      simp only [outstanding]
      omega
  | answer thread client count hclient hcall hwaiting =>
    have hpush : held ((thread, .callback count) :: s.frames) = held s.frames + 1 := held_push
    refine .keep rfl ?_
    simp only [outstanding, Tr50Client.submittedChecks, hcall]
    omega
  | app thread client hclient hcall hwaiting =>
    have hpush : held ((thread, .app) :: s.frames) = held s.frames := held_push
    refine .keep rfl ?_
    simp only [outstanding, Tr50Client.submittedChecks, hcall]
    omega

/-! ## The flag -/

/-- While the flag is set a thread is inside `tr50_mailbox_check` or `_tr50_mailbox_check_callback`,
or a mailbox check is in the list. -/
def FlagCovered (s : MailboxSystem κ) : Prop :=
  s.mailbox.sendInProgress → (∃ f ∈ s.frames, f.2 ≠ .app)
    ∨ ∃ m ∈ s.client.pending.list, m.isMailboxCheck

/-- Whoever has a check on its way is in there. -/
theorem Placed.covered (hs : Placed s) (h : 0 < s.outstanding) :
    (∃ f ∈ s.frames, f.2 ≠ .app) ∨ ∃ m ∈ s.client.pending.list, m.isMailboxCheck := by
  have hsubmitted : s.client.submittedChecks ≤ s.frames.countP (·.2 = .check .called) := by
    rw [hs.called]
    refine List.countP_mono_left fun call _ hcall => ?_
    exact (Bool.and_eq_true_iff.mp hcall).1
  rcases Nat.add_pos_iff_pos_or_pos.mp h with h | h
  · obtain ⟨f, hf, hholds⟩ := List.countP_pos_iff.mp h
    refine Or.inl ⟨f, hf, fun happ => ?_⟩
    rw [happ] at hholds
    cases hholds
  rcases Nat.add_pos_iff_pos_or_pos.mp h with h | h
  · obtain ⟨f, hf, hcalled⟩ := List.countP_pos_iff.mp (h.trans_le hsubmitted)
    refine Or.inl ⟨f, hf, ?_⟩
    rw [of_decide_eq_true hcalled]
    simp
  · exact Or.inr (List.countP_pos_iff.mp h)

/-- **The flag stands for a check on its way**, in a run in which every reply that takes one out is
a reply message and no call of the application takes one back. -/
theorem flagCovered (inflate : List UInt8 → Option (List UInt8)) {s : MailboxSystem κ}
    (h : Reach (step inflate) (Answered inflate) init s) : FlagCovered s := by
  have hboth : Placed s ∧ (s.mailbox.sendInProgress → 0 < s.outstanding) := by
    refine h.invariant (I := fun s => Placed s ∧ (s.mailbox.sendInProgress → 0 < s.outstanding))
      ⟨placed_init, by simp [init]⟩ fun s a t hs hgood hstep => ?_
    have heffect := step_effect hs.1 hstep hgood
    refine ⟨heffect.placed hs.1, fun hflag => ?_⟩
    cases heffect.turn hs.1 with
    | keep hsame hcount => exact (hs.2 (hsame ▸ hflag)).trans_eq hcount.symm
    | set hfree hset hcount => exact hcount ▸ Nat.succ_pos _
    | clear hclear hcount => exact absurd hflag (by simp [hclear])
    | twice hsame hfailed hcount => exact hcount ▸ Nat.succ_pos _
  exact fun hflag => hboth.1.covered (hboth.2 hflag)

/-- A check, submitted and sent. -/
def checked : List (MailboxAction Unit) :=
  [.move (.app 0) .check, .move (.app 0) (.go true), .move (.app 0) (.go true),
    .move (.app 0) (.go true), .move (.app 0) (.go true), .client (.payload 0), .client (.add 0),
    .client (.publish 0)]

theorem answered_checked (s : MailboxSystem Unit) :
    ∀ a ∈ checked, Answered (fun _ => none) s a := by simp [checked, Answered]

/-- A reply to the request with an id. -/
def reply (topic text : String) : MailboxAction Unit :=
  .client (.receive (cstring topic.toList) (cstring text.toList))

/-- …with a message. -/
def message : String := "\x7b\"1\":\x7b\"params\":\x7b\"messages\":[0]\x7d\x7d\x7d"

/-- A text that is a reply answers. -/
theorem answered_reply {topic text : String} (s : MailboxSystem Unit) (id : ℤ)
    (htopic : tr50PublishHandler (fun _ => none) (cstring topic.toList) (cstring text.toList)
      = .reply id (cstring text.toList))
    (htext : Tr50Client.IsReply (cstring text.toList)) :
    Answered (fun _ => none) s (reply topic text) := by
  intro seqId data m hreply _ _
  rw [htopic] at hreply
  cases hreply
  exact htext

/-- …as it does while the callback of a check has a message to handle. -/
theorem flagCovered_message : ∃ s : MailboxSystem Unit,
    Reach (step fun _ => none) (Answered fun _ => none) init s ∧ s.mailbox.sendInProgress
    ∧ s.frames = [(.receive, .callback 1)] ∧ FlagCovered s := by
  have heval : ((checked ++ [reply "reply/1" message]).foldlM (step fun _ => none) init).map
      (fun s => (s.mailbox.sendInProgress, s.frames)) = some (true, [(.receive, .callback 1)]) := by
    decide +kernel
  obtain ⟨s, hs, hview⟩ := Option.map_eq_some_iff.mp heval
  obtain ⟨hflag, hframes⟩ := by simpa only [Prod.mk.injEq] using hview
  have hreach : Reach (step fun _ => none) (Answered fun _ => none) init s :=
    Reach.of_foldlM _ (fun s => List.forall_mem_append.mpr
      ⟨answered_checked s, List.forall_mem_singleton.mpr
        (answered_reply s 1 (by decide +kernel) (by decide +kernel))⟩) hs
  exact ⟨s, hreach, hflag, hframes, flagCovered _ hreach⟩

/-- **A reply that is not JSON leaves the flag set, and nothing for it to stand for.** -/
theorem not_flagCovered_text : ¬ ∀ s : MailboxSystem Unit,
    Reach (step fun _ => none) (fun _ _ => True) init s → FlagCovered s := by
  intro h
  have heval : ((checked ++ [reply "reply/1" "x"]).foldlM (step fun _ => none) init).map (fun s =>
      (s.mailbox.sendInProgress, s.frames, s.client.pending.list)) = some (true, [], []) := by
    decide +kernel
  obtain ⟨s, hs, hview⟩ := Option.map_eq_some_iff.mp heval
  obtain ⟨hflag, hframes, hlist⟩ := by simpa only [Prod.mk.injEq] using hview
  have hcovered := h s (Reach.of_foldlM _ (by simp) hs) hflag
  simp [hframes, hlist] at hcovered

end MailboxSystem

end Tr50
