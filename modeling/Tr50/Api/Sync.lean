import Tr50.Api.Submit
import Tr50.Machinery.Decimal
import Tr50.Machinery.Events

/-!
# Api/Sync — synchronous calls

`tr50_api_call_sync` and `tr50_api_raw_sync`: an asynchronous call, with an object on the caller's
stack for the callback to fill, and an event in it to wait for (`linux.event.c`).  The callback runs
in the receive thread or in the sweep, and the object is gone when the caller returns.

As long as no call gets an id that is still pending, and no deflation of a raw call fails, no
callback comes too late (`syncCall_sound`).  A caller that waits has something to wait for, unless
its request was taken out by what is no reply (`syncCall_waits`); one that is itself a callback of
the sweep waits forever (`syncCall_inSweep`), and one in the receive thread can only time out
(`syncCall_inReceive`).
-/

namespace Tr50

open Machinery

variable {κ : Type}

/-! ## States -/

/-- The callbacks of requests: of the synchronous calls, or any other. -/
inductive SyncCallback (κ : Type)
  | sync
  | other (callback : κ)
deriving DecidableEq, Repr

/-- The threads that run callbacks. -/
inductive Runner
  | sweep
  | receive
deriving DecidableEq, Repr

/-- The two that use the event of a synchronous call. -/
inductive SyncSide
  | caller
  | callback
deriving DecidableEq, Repr

/-- Where a synchronous call is: in the asynchronous one, in `_tr50_event_wait`, or at its end. -/
inductive SyncPhase
  | calling
  | waiting
  | refused (ret : ℤ)
  | returned
deriving DecidableEq, Repr

/-- The object is there. -/
def SyncPhase.isAlive : SyncPhase → Bool
  | .calling => true
  | .waiting => true
  | _ => false

/-- `_TR50_SYNC_OBJ`, with its call; `runner` is the thread whose callback makes the call, if one
does. -/
structure SyncObj where
  runner : Option Runner
  messageType : MessageType
  phase : SyncPhase
  status : ℤ
  reply : Option Answer
  evt : Event SyncSide

/-- The client with its synchronous calls, by the handles of their messages.  `signalling` is the
object whose callback a thread is in, and `within` the one whose call it has made itself; a thread
that has written to an object that is gone leaves `dangling` set. -/
structure SyncSystem (κ : Type) where
  client : Tr50Client (SyncCallback κ)
  objs : ℕ → Option SyncObj
  signalling : Runner → Option ℕ
  within : Runner → Option ℕ
  dangling : Bool

/-! ## The code -/

/-- `_tr50_api_call_sync_callback`, and that of raw calls: what is kept of the reply. -/
def heardReply (i : Invocation κ) : Option Answer :=
  if i.status = 0 then
    i.answer.map fun answer =>
      match answer with
      | .text data => .text (cut data)
      | .message reply => .message reply
  else none

/-- The reply that a caller gets when there is none. -/
def syncErrorReply (status : ℤ) : Tr50Reply where
  json := .object [(cstring "success".toList, .false),
    (cstring "errorcodes".toList, .array [.number (decimalText status)]),
    (cstring "errormessages".toList, .array [.string (cstring "TR50: Operation Timeout.".toList)])]
  isReply := true
  seqId := 0

/-- What the call returns, and hands out. -/
def SyncObj.out (o : SyncObj) : ℤ × Option Answer :=
  match o.messageType with
  | .obj => (0, if o.status = 0 then o.reply else some (.message (syncErrorReply o.status)))
  | .raw => (o.status, if o.status = 0 then o.reply else none)

inductive SyncAction (κ : Type)
  /-- Anything that the client does apart from these calls. -/
  | client (a : Action (SyncCallback κ))
  | call (runner : Option Runner) (messageType : MessageType) (timeout : ℤ)
  /-- The asynchronous call has returned. -/
  | resume (obj : ℕ)
  /-- The caller in `_tr50_event_wait`, or awake for no reason. -/
  | wait (obj : ℕ) (wake : Bool)
  /-- The callback in `_tr50_event_signal`. -/
  | signal (obj : ℕ)
  /-- The caller behind its wait: it deletes the event and returns. -/
  | finish (obj : ℕ)

/-- The thread that a step of the client belongs to, where it is one that runs callbacks. -/
def Action.runner : Action κ → Option Runner
  | .api inSweep _ _ _ => if inSweep then some .sweep else none
  | .sweep _ => some .sweep
  | .visit => some .sweep
  | .callbackReturn => some .sweep
  | .receive _ _ => some .receive
  | .deliver => some .receive
  | _ => none

/-- A call of the asynchronous function with the callback of the synchronous ones. -/
def Action.isSync : Action (SyncCallback κ) → Bool
  | .api _ _ _ (some .sync) => true
  | _ => false

namespace SyncSystem

def init : SyncSystem κ := ⟨.init, fun _ => none, fun _ => none, fun _ => none, false⟩

/-- The thread is in no callback of a synchronous call, and makes none. -/
def free (s : SyncSystem κ) (runner : Option Runner) : Bool :=
  runner.all fun r => (s.signalling r).isNone && (s.within r).isNone

/-- The callback writes to its object, and goes on to the event. -/
def hear (s : SyncSystem κ) (runner : Runner) (i : Invocation (SyncCallback κ)) : SyncSystem κ :=
  match i.callback with
  | .other _ => s
  | .sync =>
    match (s.objs i.handle).filter (·.phase.isAlive) with
    | none => { s with dangling := true }
    | some o =>
      { s with
        objs := Function.update s.objs i.handle (some { o with
          status := i.status
          reply := heardReply i
          evt := o.evt.goTo o.evt.mux .callback .signal })
        signalling := Function.update s.signalling runner (some i.handle) }

/-- A step of the client, and the callbacks it runs. -/
def clientStep (inflate : List UInt8 → Option (List UInt8)) (s : SyncSystem κ)
    (a : Action (SyncCallback κ)) : Option (SyncSystem κ) :=
  (s.client.step inflate a).map fun client =>
    let count := client.history.callbacks.length - s.client.history.callbacks.length
    (client.history.callbacks.take count).foldl (hear · (a.runner.getD .receive)) { s with client }

/-- The object is set up: the event is locked, and the status is not known. -/
def newObj (runner : Option Runner) (messageType : MessageType) : SyncObj :=
  ⟨runner, messageType, .calling, -1, none, .create⟩

/-- The call is over for the thread that made it. -/
def leaveObj (s : SyncSystem κ) (obj : ℕ) (o : SyncObj) (phase : SyncPhase) : SyncSystem κ :=
  { s with
    objs := Function.update s.objs obj (some { o with phase })
    within := fun r => if s.within r = some obj then none else s.within r }

def setEvt (s : SyncSystem κ) (obj : ℕ) (o : SyncObj) (evt : Event SyncSide) : SyncSystem κ :=
  { s with objs := Function.update s.objs obj (some { o with evt }) }

def step (inflate : List UInt8 → Option (List UInt8)) (s : SyncSystem κ) :
    SyncAction κ → Option (SyncSystem κ)
  | .client a => if a.isSync ∨ ¬ s.free a.runner then none else s.clientStep inflate a
  | .call runner messageType timeout =>
    if ¬ s.free runner ∨ runner = some .receive ∧ s.client.delivery.isSome then none
    else do
      let obj := s.client.nextHandle
      let api := .api (runner = some .sweep) messageType timeout (some .sync)
      let client ← s.client.step inflate api
      return { s with
        client
        objs := Function.update s.objs obj (some (newObj runner messageType))
        within := fun r => if runner = some r then some obj else s.within r }
  | .resume obj => do
    let o ← (s.objs obj).filter (·.phase = .calling)
    let r ← s.client.history.returned.find? (·.handle = obj)
    if r.ret ≠ 0 then return s.leaveObj obj o (.refused r.ret)
    else return s.setEvt obj { o with phase := .waiting } (o.evt.goTo o.evt.mux .caller .entry)
  | .wait obj wake => do
    let o ← (s.objs obj).filter (·.phase = .waiting)
    let evt ← o.evt.step .caller (if wake then .wake else .go)
    return s.setEvt obj o evt
  | .signal obj => do
    let o ← s.objs obj
    let evt ← o.evt.step .callback .go
    let signalling := fun r =>
      if s.signalling r = some obj ∧ evt.pc .callback = .out then none else s.signalling r
    if o.phase.isAlive then return { s.setEvt obj o evt with signalling }
    else return { s with signalling, dangling := true }
  | .finish obj => do
    let o ← (s.objs obj).filter (·.phase = .waiting)
    if o.evt.pc .caller = .out then return s.leaveObj obj o .returned else none

end SyncSystem

/-! ## One object -/

/-- A place of the caller… -/
def EventPc.isWait : EventPc → Bool
  | .signal => false
  | .broadcast => false
  | _ => true

/-- …and of the callback. -/
def EventPc.isSignal : EventPc → Bool
  | .out => true
  | .signal => true
  | .broadcast => true
  | _ => false

namespace SyncObj

/-- What holds of an object whose callback has run, or has not.  The event is locked until the
callback is past its broadcast, and the caller comes past its wait when the callback is done. -/
structure Ok (heard : Prop) (o : SyncObj) : Prop where
  sound : o.evt.Sound
  caller : EventPc.isWait (o.evt.pc .caller)
  callback : EventPc.isSignal (o.evt.pc .callback)
  locked : o.evt.isLocked ↔ ¬ heard ∨ o.evt.pc .callback = .signal
  silent : ¬ heard → o.evt.pc .callback = .out
  calling : o.phase = .calling → o.evt.pc .caller = .out
  passed : o.phase = .waiting → o.evt.pc .caller = .out →
    o.evt.isLocked = false ∧ o.evt.pc .callback = .out
  refused : ∀ ret, o.phase = .refused ret → ¬ heard
  returned : o.phase = .returned → o.evt.isLocked = false ∧ o.evt.pc .callback = .out

variable {heard : Prop} {o : SyncObj} {evt : Event SyncSide}

theorem ok_new (runner : Option Runner) (messageType : MessageType) (hheard : ¬ heard) :
    (SyncSystem.newObj runner messageType).Ok heard where
  sound := Event.sound_create
  caller := rfl
  callback := rfl
  locked := iff_of_true rfl (Or.inl hheard)
  silent _ := rfl
  calling _ := rfl
  passed := nofun
  refused _ := nofun
  returned := nofun

/-- The callback writes to an object that is there. -/
theorem Ok.hear (h : o.Ok heard) (hheard : ¬ heard) (halive : o.phase.isAlive) (status : ℤ)
    (reply : Option Answer) : Ok True { o with
      status, reply, evt := o.evt.goTo o.evt.mux .callback .signal } := by
  have hout := h.silent hheard
  have hlocked : o.evt.isLocked := h.locked.mpr (Or.inl hheard)
  have hcaller : (o.evt.goTo o.evt.mux .callback .signal).pc .caller = o.evt.pc .caller :=
    Event.pc_goTo_of_ne _ _ nofun
  have hcallback : (o.evt.goTo o.evt.mux .callback .signal).pc .callback = .signal :=
    Event.pc_goTo_self ..
  refine ⟨h.sound.outside (by rw [hout]; rfl) rfl fun _ => nofun, ?_, ?_, ?_,
    fun hnot => absurd trivial hnot, fun hphase => ?_, fun hphase hpass => ?_, fun ret hphase => ?_,
    fun hphase => ?_⟩
  · exact hcaller.symm ▸ h.caller
  · exact hcallback.symm ▸ rfl
  · exact iff_of_true hlocked (Or.inr hcallback)
  · exact hcaller.trans (h.calling hphase)
  · have hopen := (h.passed hphase (hcaller.symm.trans hpass)).1
    rw [hlocked] at hopen
    exact Bool.noConfusion hopen
  · have hphase : o.phase = .refused ret := hphase
    rw [hphase] at halive
    exact Bool.noConfusion halive
  · have hphase : o.phase = .returned := hphase
    rw [hphase] at halive
    exact Bool.noConfusion halive

/-- The caller moves on in its wait. -/
theorem Ok.callerAt (h : o.Ok heard) (hphase : o.phase = .waiting) {mux : Option SyncSide}
    {pc : EventPc} (hsound : (o.evt.goTo mux .caller pc).Sound) (hpc : EventPc.isWait pc)
    (hpass : pc = .out → o.evt.isLocked = false ∧ o.evt.pc .callback = .out) :
    Ok heard { o with evt := o.evt.goTo mux .caller pc } := by
  have hcallback : (o.evt.goTo mux .caller pc).pc .callback = o.evt.pc .callback :=
    Event.pc_goTo_of_ne _ _ nofun
  have hcaller : (o.evt.goTo mux .caller pc).pc .caller = pc := Event.pc_goTo_self ..
  refine ⟨hsound, ?_, ?_, ?_, fun hheard => ?_, fun h' => ?_, fun _ hout => ?_, fun ret h' => ?_,
    fun h' => ?_⟩
  · exact hcaller.symm ▸ hpc
  · exact hcallback.symm ▸ h.callback
  · show o.evt.isLocked ↔ _
    rw [hcallback]
    exact h.locked
  · exact hcallback.trans (h.silent hheard)
  · exact SyncPhase.noConfusion (hphase.symm.trans h')
  · have hopen := hpass (hcaller.symm.trans hout)
    exact ⟨hopen.1, hcallback.trans hopen.2⟩
  · exact SyncPhase.noConfusion (hphase.symm.trans h')
  · exact SyncPhase.noConfusion (hphase.symm.trans h')

theorem Ok.wait (h : o.Ok heard) (hphase : o.phase = .waiting) {move : EventMove}
    (hmove : move = .go ∨ move = .wake) (hstep : o.evt.step .caller move = some evt) :
    Ok heard { o with evt } := by
  have hsound := h.sound.step hstep
  rcases hmove with rfl | rfl
  · simp only [Event.step, Event.go] at hstep
    split at hstep
    · obtain ⟨-, heq⟩ := Option.ite_none_right_eq_some.mp hstep
      obtain rfl := Option.some.inj heq
      exact h.callerAt hphase hsound rfl (absurd · (by decide))
    · obtain ⟨-, heq⟩ := Option.ite_none_right_eq_some.mp hstep
      obtain rfl := Option.some.inj heq
      exact h.callerAt hphase hsound rfl (absurd · (by decide))
    · rename_i hflag
      obtain rfl := Option.some.inj hstep
      refine h.callerAt hphase hsound (by split_ifs <;> rfl) fun hout => ?_
      have hopen : ¬ o.evt.isLocked := fun hlocked => by simp [hlocked] at hout
      -- with the mutex the caller has, the callback is not behind its broadcast
      have hmux := (h.sound.holder .caller).mpr (by rw [hflag]; rfl)
      have hnot : o.evt.pc .callback ≠ .broadcast := fun hpc => by
        have := (h.sound.holder .callback).mpr (by rw [hpc]; rfl)
        rw [hmux] at this
        exact SyncSide.noConfusion (Option.some.inj this)
      have hsignal : o.evt.pc .callback ≠ .signal := fun hpc => hopen (h.locked.mpr (Or.inr hpc))
      have hcallback := h.callback
      refine ⟨Bool.eq_false_iff.mpr hopen, ?_⟩
      cases hpc : o.evt.pc .callback with
      | out => rfl
      | signal => exact absurd hpc hsignal
      | broadcast => exact absurd hpc hnot
      | _ => rw [hpc] at hcallback; exact Bool.noConfusion hcallback
    · have hcaller := h.caller
      rename_i hpc
      rw [hpc] at hcaller
      exact Bool.noConfusion hcaller
    · have hcaller := h.caller
      rename_i hpc
      rw [hpc] at hcaller
      exact Bool.noConfusion hcaller
    · cases hstep
    · cases hstep
  · obtain ⟨-, heq⟩ := Option.ite_none_right_eq_some.mp hstep
    obtain rfl := Option.some.inj heq
    exact h.callerAt hphase hsound rfl (absurd · (by decide))

/-- The callback moves on in its signal. -/
theorem Ok.signal (h : o.Ok heard) (hstep : o.evt.step .callback .go = some evt) :
    o.phase.isAlive ∧ Ok heard { o with evt } := by
  have hsound := h.sound.step hstep
  have hbusy : o.evt.pc .callback ≠ .out := fun hout => by
    simp [Event.step, Event.go, hout] at hstep
  have hheard : heard := not_not.mp (mt h.silent hbusy)
  have hpassed : o.phase = .waiting → o.evt.pc .caller ≠ .out := fun hphase hout =>
    hbusy (h.passed hphase hout).2
  have halive : o.phase.isAlive := by
    cases hphase : o.phase with
    | calling => rfl
    | waiting => rfl
    | refused ret => exact absurd hheard (h.refused ret hphase)
    | returned => exact absurd (h.returned hphase).2 hbusy
  refine ⟨halive, ?_⟩
  have hrest : ∀ {evt : Event SyncSide}, evt.Sound → EventPc.isWait (evt.pc .caller) →
      (evt.pc .caller = .out ↔ o.evt.pc .caller = .out) → EventPc.isSignal (evt.pc .callback) →
      evt.isLocked = false → evt.pc .callback ≠ .signal → Ok heard { o with evt } := by
    intro evt hsound hcaller hout hcallback hopen hsignal
    refine ⟨hsound, hcaller, hcallback, ?_, fun hnot => absurd hheard hnot,
      fun h' => hout.mpr (h.calling h'), fun h' hpass => absurd (hout.mp hpass) (hpassed h'),
      h.refused, fun h' => ?_⟩
    · exact iff_of_false (hopen ▸ Bool.false_ne_true) (not_or.mpr ⟨not_not.mpr hheard, hsignal⟩)
    · rw [show o.phase = .returned from h'] at halive
      exact Bool.noConfusion halive
  simp only [Event.step, Event.go] at hstep
  have hcallback := h.callback
  split at hstep
  · rename_i hpc
    rw [hpc] at hcallback
    exact Bool.noConfusion hcallback
  · rename_i hpc
    rw [hpc] at hcallback
    exact Bool.noConfusion hcallback
  · rename_i hpc
    rw [hpc] at hcallback
    exact Bool.noConfusion hcallback
  · obtain ⟨-, heq⟩ := Option.ite_none_right_eq_some.mp hstep
    obtain rfl := Option.some.inj heq
    have hpc : (o.evt.opened .callback).pc .caller
        = if o.evt.pc .caller = .asleep then .awake else o.evt.pc .caller :=
      Event.pc_opened_of_ne (by decide)
    have hbroadcast : (o.evt.opened .callback).pc .callback = .broadcast := Event.pc_opened_self
    refine hrest hsound ?_ ?_ (hbroadcast ▸ rfl) rfl (hbroadcast ▸ by decide)
    · rw [hpc]
      split_ifs
      · rfl
      · exact h.caller
    · rw [hpc]
      split_ifs with hasleep
      · rw [hasleep]
        exact iff_of_false (by decide) (by decide)
      · exact Iff.rfl
  · rename_i hpc
    obtain rfl := Option.some.inj hstep
    have hcaller : (o.evt.goTo none .callback .out).pc .caller = o.evt.pc .caller :=
      Event.pc_goTo_of_ne _ _ (by decide)
    have hout : (o.evt.goTo none .callback .out).pc .callback = .out := Event.pc_goTo_self ..
    refine hrest hsound (hcaller ▸ h.caller) (hcaller ▸ Iff.rfl) (hout ▸ rfl) ?_
      (ne_of_eq_of_ne hout (by decide))
    refine Bool.eq_false_iff.mpr fun hlocked => ?_
    rcases h.locked.mp hlocked with hnot | hsignal
    · exact hnot hheard
    · exact EventPc.noConfusion (hpc.symm.trans hsignal)
  · cases hstep
  · cases hstep

/-- The asynchronous call has returned `0`… -/
theorem Ok.resume (h : o.Ok heard) (hphase : o.phase = .calling) :
    Ok heard { o with phase := .waiting, evt := o.evt.goTo o.evt.mux .caller .entry } := by
  have hout := h.calling hphase
  have hcallback : (o.evt.goTo o.evt.mux .caller .entry).pc .callback = o.evt.pc .callback :=
    Event.pc_goTo_of_ne _ _ nofun
  have hcaller : (o.evt.goTo o.evt.mux .caller .entry).pc .caller = .entry := Event.pc_goTo_self ..
  refine ⟨h.sound.outside (by rw [hout]; rfl) rfl fun _ => nofun, hcaller.symm ▸ rfl,
    hcallback.symm ▸ h.callback, ?_, fun hheard => hcallback.trans (h.silent hheard), nofun,
    fun _ hpass => EventPc.noConfusion (hcaller.symm.trans hpass), fun _ => nofun, nofun⟩
  show o.evt.isLocked ↔ _
  rw [hcallback]
  exact h.locked

/-- …or an error. -/
theorem Ok.refuse (h : o.Ok heard) (hheard : ¬ heard) (ret : ℤ) :
    Ok heard { o with phase := .refused ret } :=
  ⟨h.sound, h.caller, h.callback, h.locked, h.silent, nofun, nofun, fun _ _ => hheard, nofun⟩

/-- The caller is past its wait. -/
theorem Ok.finish (h : o.Ok heard) (hphase : o.phase = .waiting) (hout : o.evt.pc .caller = .out) :
    Ok heard { o with phase := .returned } :=
  ⟨h.sound, h.caller, h.callback, h.locked, h.silent, nofun, nofun, fun _ => nofun,
    fun _ => h.passed hphase hout⟩

end SyncObj

/-! ## The client -/

namespace Tr50Client

/-- No deflation of a raw call fails. -/
def Deflates : Action κ → Prop
  | .compress ret => ret = 0
  | _ => True

/-- A call that returns an error has not added its message, or has taken it back. -/
def Refused (s : Tr50Client κ) : Prop :=
  ∀ r ∈ s.history.returned, r.ret ≠ 0 → r.handle ∉ s.history.added.map Prod.fst
    ∨ ∃ p ∈ s.history.unlinked, p.1.1 = r.handle ∧ p.2 = .call

variable {s t : Tr50Client κ} {a : Action κ}

/-- Only a step of the call itself ends it. -/
theorem compress_of_leave {inflate : List UInt8 → Option (List UInt8)} {call : ApiCall κ} {ret : ℤ}
    (h : s.step inflate a = some t) (hcall : s.call = some call) (hstage : call.stage = .compress)
    (ht : t = s.leave call.message ret) : a = .compress ret := by
  have hnone : t.call = none := by rw [ht]; rfl
  have hsome : s.call ≠ none := by rw [hcall]; exact Option.some_ne_none _
  cases a with
  | compress ret' =>
    simp only [Tr50Client.step, hcall, apiStep, hstage] at h
    split_ifs at h
    · have hleave := (Option.some.inj h).trans ht
      have hreturned := congrArg (fun t : Tr50Client κ => t.history.returned.head?) hleave
      have hret : ret' = ret := congrArg Returned.ret (Option.some.inj hreturned)
      rw [hret]
    · rw [← Option.some.inj h] at hnone
      exact absurd hnone (Option.some_ne_none _)
  | api => simp [Tr50Client.step, apiEnter, hcall] at h
  | msgIdNext => simp [Tr50Client.step, hcall] at h
  | lifecycle => simp [Tr50Client.step, hcall] at h
  | payload => simp [Tr50Client.step, hcall, apiStep, hstage] at h
  | add => simp [Tr50Client.step, hcall, apiStep, hstage] at h
  | publish => simp [Tr50Client.step, hcall, apiStep, hstage] at h
  | remove => simp [Tr50Client.step, hcall, apiStep, hstage] at h
  | receive topic data =>
    have hkeep : t.call = s.call := by
      simp only [Tr50Client.step, receive] at h
      split at h
      · cases h
      · split at h
        · split_ifs at h
          split at h <;> obtain rfl := Option.some.inj h <;> rfl
        all_goals
          obtain rfl := Option.some.inj h
          rfl
    exact absurd (hkeep.symm.trans hnone) hsome
  | deliver =>
    obtain ⟨d, -, rfl⟩ := Option.map_eq_some_iff.mp h
    exact absurd hnone hsome
  | sweep now =>
    obtain ⟨-, h⟩ := Option.ite_none_right_eq_some.mp h
    rw [← Option.some.inj h] at hnone
    exact absurd hnone hsome
  | visit =>
    have hkeep : t.call = s.call := by
      simp only [Tr50Client.step, visit] at h
      split at h
      · obtain ⟨m, -, rfl⟩ := Option.map_eq_some_iff.mp h
        unfold visitMessage
        split <;> rfl
      · obtain rfl := Option.some.inj h
        rfl
      · cases h
    exact absurd (hkeep.symm.trans hnone) hsome
  | callbackReturn =>
    simp only [Tr50Client.step, callbackReturn] at h
    split at h
    · split_ifs at h
      rw [← Option.some.inj h] at hnone
      exact absurd hnone hsome
    · cases h

/-- **A refusal is kept** as long as deflations succeed. -/
theorem Refused.step {inflate : List UInt8 → Option (List UInt8)} (hs : Refused s)
    (hinv : SubmitInv s) (hgood : Deflates a) (h : s.step inflate a = some t) : Refused t := by
  have hmore : ∀ {r : Returned} {p : (ℕ × Option κ) × Party}, r ∈ s.history.returned → r.ret ≠ 0 →
      r.handle ∉ s.history.added.map Prod.fst
        ∨ ∃ q ∈ p :: s.history.unlinked, q.1.1 = r.handle ∧ q.2 = .call := fun hr hret =>
    (hs _ hr hret).imp_right fun ⟨q, hq, hboth⟩ => ⟨q, List.mem_cons_of_mem _ hq, hboth⟩
  intro r hr hret
  have heffect := step_effect h
  cases heffect with
  | refuse message ret hcall hhandle hret' =>
    rcases List.mem_cons.mp hr with rfl | hr
    · refine Or.inl fun hmem => ?_
      obtain ⟨p, hp, heq⟩ := List.mem_map.mp hmem
      exact (hinv.inv.accounted.fresh p hp).ne (heq.trans hhandle)
    · exact hs r hr hret
  | leave call ret hcall hret' =>
    rcases List.mem_cons.mp hr with rfl | hr
    · rcases hret' with ⟨hstage, -⟩ | ⟨hstage, -⟩ | ⟨-, hzero⟩
      · refine Or.inl fun hmem => ?_
        obtain ⟨p, hp, heq⟩ := List.mem_map.mp hmem
        exact (hinv.inv.callPlaced call hcall).early (Or.inl hstage) p hp heq
      · obtain rfl := compress_of_leave h hcall hstage rfl
        exact absurd hgood hret
      · exact absurd hzero hret
    · exact hs r hr hret
  | add call now stage hcall hadd hstage =>
    refine (hs r hr hret).imp_left fun hnot => ?_
    simp only [goOn, List.map_cons, List.mem_cons, not_or]
    exact ⟨hinv.outcomes.call call hcall r hr, hnot⟩
  | takeBack call ret message hcall hstage hfree hmem hid =>
    rcases List.mem_cons.mp hr with rfl | hr
    · exact Or.inr ⟨_, List.mem_cons_self, hinv.ids.call call hcall message hmem hid, rfl⟩
    · exact hmore hr hret
  | expired call ret hcall hstage hid =>
    rcases List.mem_cons.mp hr with rfl | hr
    · exact absurd rfl hret
    · exact hs r hr hret
  | take message seqId data hdelivery hidle hmem hid => exact hmore hr hret
  | expire message sweep pending hscan hnext hmem hpending => exact hmore hr hret
  | _ => exact hs r hr hret

/-- Nobody is called for a call that was refused. -/
theorem Refused.not_called (hs : Refused s) (hinv : Inv s) {r : Returned}
    (hr : r ∈ s.history.returned) (hret : r.ret ≠ 0) : ∀ i ∈ s.history.callbacks,
      i.handle ≠ r.handle := by
  intro i hi heq
  obtain ⟨party, hparty, hmem⟩ : ∃ party, party ≠ Party.call
      ∧ ((i.handle, some i.callback), party) ∈ s.history.unlinked := by
    rcases hinv.told.told i hi with ⟨-, h⟩ | ⟨-, h⟩
    · exact ⟨.reply, nofun, h⟩
    · exact ⟨.sweep, nofun, h⟩
  rcases hs r hr hret with hnot | ⟨p, hp, hhandle, hcall⟩
  · refine hnot (heq ▸ ?_)
    exact List.mem_map_of_mem (f := Prod.fst) (hinv.accounted.split.mem_iff.mpr
      (List.mem_append_right _ (List.mem_map_of_mem (f := Prod.fst) hmem)))
  · have hby := unlinkedBy_eq hinv.accounted hp
    rw [hhandle, ← heq, unlinkedBy_eq hinv.accounted hmem, hcall] at hby
    exact hparty (List.singleton_inj.mp hby)

/-- A step runs one callback at most, of a request that has been added and has not had it. -/
theorem callbacks_step (h : Effect s a t) (ht : SubmitInv t) :
    t.history.callbacks = s.history.callbacks ∨ ∃ i, t.history.callbacks = i :: s.history.callbacks
      ∧ (∀ j ∈ s.history.callbacks, j.handle ≠ i.handle)
      ∧ (i.handle, some i.callback) ∈ t.history.added := by
  have hone : ∀ {new : List (Invocation κ)}, t.history.callbacks = new ++ s.history.callbacks →
      new.length ≤ 1 → t.history.callbacks = s.history.callbacks ∨
        ∃ i, t.history.callbacks = i :: s.history.callbacks
          ∧ (∀ j ∈ s.history.callbacks, j.handle ≠ i.handle)
          ∧ (i.handle, some i.callback) ∈ t.history.added := by
    intro new hnew hlength
    rcases new with _ | ⟨i, _ | ⟨j, new⟩⟩
    · exact Or.inl hnew
    · have honce := (List.nodup_append.mp ht.once).1
      rw [hnew, List.singleton_append, List.map_cons, List.nodup_cons] at honce
      refine Or.inr ⟨i, hnew, fun j hj heq => honce.1 (heq ▸ List.mem_map_of_mem hj), ?_⟩
      have hi : i ∈ t.history.callbacks := by rw [hnew]; exact List.mem_cons_self
      refine ht.inv.accounted.split.mem_iff.mpr (List.mem_append_right _ ?_)
      rcases ht.inv.told.told i hi with ⟨-, h⟩ | ⟨-, h⟩ <;>
        exact List.mem_map_of_mem (f := Prod.fst) h
    · simp at hlength
  cases h with
  | deliver d hdelivery =>
    refine hone rfl ?_
    have := handleReply_handles d
    rw [← List.length_map (f := (·.handle))]
    rcases this with h | h <;> rw [h] <;> simp
  | expire message sweep pending hscan hnext hmem hpending =>
    refine hone rfl ?_
    cases message.callback <;> simp
  | _ => exact Or.inl rfl

/-- What a step leaves: handles are given out in turn, and the record grows. -/
structure Grows (s t : Tr50Client κ) : Prop where
  nextHandle : s.nextHandle ≤ t.nextHandle
  returned : s.history.returned ⊆ t.history.returned
  added : ∀ p ∈ t.history.added, p ∈ s.history.added
    ∨ ∃ call, s.call = some call ∧ p = call.message.submission

theorem Effect.grows (h : Effect s a t) : Grows s t := by
  cases h with
  | refuse => exact ⟨Nat.le_succ _, List.subset_cons_self _ _, fun _ => Or.inl⟩
  | enter => exact ⟨Nat.le_succ _, List.Subset.refl _, fun _ => Or.inl⟩
  | leave => exact ⟨le_rfl, List.subset_cons_self _ _, fun _ => Or.inl⟩
  | add call now stage hcall hadd hstage =>
    refine ⟨le_rfl, List.Subset.refl _, fun p hp => ?_⟩
    exact (List.mem_cons.mp hp).symm.imp_right fun heq => ⟨call, hcall, heq⟩
  | takeBack => exact ⟨le_rfl, List.subset_cons_self _ _, fun _ => Or.inl⟩
  | expired => exact ⟨le_rfl, List.subset_cons_self _ _, fun _ => Or.inl⟩
  | _ => exact ⟨le_rfl, List.Subset.refl _, fun _ => Or.inl⟩

/-- The call in progress is the one there was, or the one that is made. -/
theorem call_step {inflate : List UInt8 → Option (List UInt8)} (h : s.step inflate a = some t)
    {call : ApiCall κ} (hcall : t.call = some call) :
    (∃ before, s.call = some before ∧ before.message = call.message)
      ∨ ∃ inSweep messageType timeout, a = .api inSweep messageType timeout call.message.callback
        ∧ call.message.handle = s.nextHandle := by
  have heffect := step_effect h
  cases heffect with
  | refuse => exact absurd hcall.symm (Option.some_ne_none _)
  | @enter inSweep messageType timeout callback before hnone hhandle hid hstage hsweep =>
    obtain rfl := Option.some.inj hcall
    refine Or.inr ⟨inSweep, messageType, timeout, ?_, hhandle⟩
    simp only [Tr50Client.step, apiEnter] at h
    split_ifs at h
    all_goals
      have hcalls := congrArg Tr50Client.call (Option.some.inj h)
    · exact absurd hcalls.symm (Option.some_ne_none _)
    · exact absurd hcalls.symm (Option.some_ne_none _)
    · rw [← Option.some.inj hcalls]
  | leave => exact absurd hcall.symm (Option.some_ne_none _)
  | goOn before stage hbefore hstage =>
    obtain rfl := Option.some.inj hcall
    exact Or.inl ⟨before, hbefore, rfl⟩
  | add before now stage hbefore hadd hstage =>
    obtain rfl := Option.some.inj hcall
    exact Or.inl ⟨before, hbefore, rfl⟩
  | takeBack => exact absurd hcall.symm (Option.some_ne_none _)
  | expired => exact absurd hcall.symm (Option.some_ne_none _)
  | _ => exact Or.inl ⟨call, hcall, rfl⟩

end Tr50Client

/-! ## The system -/

namespace SyncSystem

variable {s t : SyncSystem κ} {inflate : List UInt8 → Option (List UInt8)}

/-- The callback of the object has run. -/
def Heard (s : SyncSystem κ) (obj : ℕ) : Prop :=
  ∃ i ∈ s.client.history.callbacks, i.handle = obj ∧ i.callback = .sync

/-- A step of the client in which no call gets an id that is pending, and no deflation fails. -/
def Calm (s : SyncSystem κ) : SyncAction κ → Prop
  | .client a => s.client.NewId a ∧ Tr50Client.Deflates a
  | .call runner messageType timeout =>
    s.client.NewId (.api (runner = some .sweep) messageType timeout (some .sync))
  | _ => True

/-- What holds of the client and its objects. -/
structure Inv (s : SyncSystem κ) : Prop where
  client : s.client.SubmitInv
  refused : s.client.Refused
  fresh : ∀ obj, s.client.nextHandle ≤ obj → s.objs obj = none
  known : ∀ p ∈ s.client.history.added, (s.objs p.1).isSome ↔ p.2 = some .sync
  calling : ∀ call, s.client.call = some call →
    ((s.objs call.message.handle).isSome ↔ call.message.callback = some .sync)
  obj : ∀ obj o, s.objs obj = some o → o.Ok (s.Heard obj)
  told : ∀ i ∈ s.client.history.callbacks, i.callback = .sync → ∀ o, s.objs i.handle = some o →
    o.status = i.status ∧ o.reply = heardReply i
  ended : ∀ obj o ret, s.objs obj = some o → o.phase = .refused ret →
    ret ≠ 0 ∧ ∃ r ∈ s.client.history.returned, r.handle = obj ∧ r.ret = ret
  accepted : ∀ obj o, s.objs obj = some o → o.phase = .waiting →
    ∃ r ∈ s.client.history.returned, r.handle = obj ∧ r.ret = 0
  alive : s.dangling = false

theorem inv_init : Inv (init : SyncSystem κ) where
  client := ⟨Tr50Client.inv_init, Tr50Client.ids_init, Tr50Client.cursor_init,
    Tr50Client.outcomes_init, List.nodup_nil⟩
  refused _ hr := absurd hr List.not_mem_nil
  fresh _ _ := rfl
  known _ hp := absurd hp List.not_mem_nil
  calling _ hcall := absurd hcall.symm (Option.some_ne_none _)
  obj _ _ ho := absurd ho.symm (Option.some_ne_none _)
  told _ hi := absurd hi List.not_mem_nil
  ended _ _ _ ho := absurd ho.symm (Option.some_ne_none _)
  accepted _ _ ho := absurd ho.symm (Option.some_ne_none _)
  alive := rfl

/-- The objects after one of them has changed. -/
theorem objs_update {objs : ℕ → Option SyncObj} {obj obj' : ℕ} {o o' : SyncObj}
    (h : Function.update objs obj (some o) obj' = some o') :
    obj' = obj ∧ o' = o ∨ obj' ≠ obj ∧ objs obj' = some o' := by
  rcases eq_or_ne obj' obj with rfl | hne
  · rw [Function.update_self] at h
    exact Or.inl ⟨rfl, (Option.some.inj h).symm⟩
  · rw [Function.update_of_ne hne] at h
    exact Or.inr ⟨hne, h⟩

theorem isSome_update {objs : ℕ → Option SyncObj} {obj : ℕ} {o : SyncObj}
    (ho : objs obj = some o) (o' : SyncObj) (obj' : ℕ) :
    (Function.update objs obj (some o') obj').isSome ↔ (objs obj').isSome := by
  rcases eq_or_ne obj' obj with rfl | hne
  · rw [Function.update_self, ho]
    exact iff_of_true rfl rfl
  · rw [Function.update_of_ne hne]

theorem ok_congr {heard heard' : Prop} {o : SyncObj} (h : heard ↔ heard') (ho : o.Ok heard) :
    o.Ok heard' := propext h ▸ ho

/-- Nobody is called for an object that is gone. -/
theorem Inv.isAlive (hs : Inv s) {obj : ℕ} {o : SyncObj} (ho : s.objs obj = some o)
    (hcalled : ∀ r ∈ s.client.history.returned, r.ret ≠ 0 → r.handle ≠ obj) (hnot : ¬ s.Heard obj) :
    o.phase.isAlive := by
  cases hphase : o.phase with
  | calling => rfl
  | waiting => rfl
  | refused ret =>
    obtain ⟨hret, r, hr, hhandle, rfl⟩ := hs.ended obj o ret ho hphase
    exact absurd hhandle (hcalled r hr hret)
  | returned =>
    have hok := hs.obj obj o ho
    have hlocked := hok.locked.mpr (Or.inl hnot)
    rw [(hok.returned hphase).1] at hlocked
    exact absurd hlocked Bool.false_ne_true

/-- An object changes, and its call is where it was. -/
theorem Inv.update (hs : Inv s) {obj : ℕ} {o o' : SyncObj} (ho : s.objs obj = some o)
    (hok : o'.Ok (s.Heard obj)) (hstatus : o'.status = o.status) (hreply : o'.reply = o.reply)
    (hended : ∀ ret, o'.phase = .refused ret →
      ret ≠ 0 ∧ ∃ r ∈ s.client.history.returned, r.handle = obj ∧ r.ret = ret)
    (haccepted : o'.phase = .waiting → ∃ r ∈ s.client.history.returned, r.handle = obj ∧ r.ret = 0)
    (signalling within : Runner → Option ℕ) : Inv { s with
      objs := Function.update s.objs obj (some o'), signalling, within } := by
  refine ⟨hs.client, hs.refused, fun obj' hle => ?_,
    fun p hp => (isSome_update ho o' _).trans (hs.known p hp),
    fun call hcall => (isSome_update ho o' _).trans (hs.calling call hcall),
    fun obj' o'' ho'' => ?_, fun i hi hsync o'' ho'' => ?_, fun obj' o'' ret ho'' hphase => ?_,
    fun obj' o'' ho'' hphase => ?_, hs.alive⟩
  · refine (Function.update_of_ne ?_ ..).trans (hs.fresh obj' hle)
    rintro rfl
    rw [hs.fresh obj' hle] at ho
    exact absurd ho nofun
  · rcases objs_update ho'' with ⟨rfl, rfl⟩ | ⟨-, ho''⟩
    · exact hok
    · exact hs.obj obj' o'' ho''
  · rcases objs_update ho'' with ⟨rfl, rfl⟩ | ⟨-, ho''⟩
    · obtain ⟨h1, h2⟩ := hs.told i hi hsync o ho
      exact ⟨hstatus.trans h1, hreply.trans h2⟩
    · exact hs.told i hi hsync o'' ho''
  · rcases objs_update ho'' with ⟨rfl, rfl⟩ | ⟨-, ho''⟩
    · exact hended ret hphase
    · exact hs.ended obj' o'' ret ho'' hphase
  · rcases objs_update ho'' with ⟨rfl, rfl⟩ | ⟨-, ho''⟩
    · exact haccepted hphase
    · exact hs.accepted obj' o'' ho'' hphase

/-- The requests that are added have an object if they are of these calls… -/
theorem Inv.knows (hs : Inv s) {client : Tr50Client (SyncCallback κ)}
    {a : Action (SyncCallback κ)} (hstep : s.client.step inflate a = some client) :
    ∀ p ∈ client.history.added, (s.objs p.1).isSome ↔ p.2 = some .sync := by
  intro p hp
  rcases (Tr50Client.step_effect hstep).grows.added p hp with hp | ⟨call, hcall, rfl⟩
  · exact hs.known p hp
  · exact hs.calling call hcall

/-- …and so has the one in the call. -/
theorem Inv.calls (hs : Inv s) {client : Tr50Client (SyncCallback κ)}
    {a : Action (SyncCallback κ)} (hstep : s.client.step inflate a = some client)
    (ha : a.isSync = false) : ∀ call, client.call = some call →
      ((s.objs call.message.handle).isSome ↔ call.message.callback = some .sync) := by
  intro call hcall
  rcases Tr50Client.call_step hstep hcall with ⟨before, hbefore, heq⟩ | ⟨_, _, _, hapi, hhandle⟩
  · rw [← heq]
    exact hs.calling before hbefore
  · rw [hhandle, hs.fresh _ le_rfl]
    refine iff_of_false Bool.false_ne_true fun hsync => ?_
    rw [hapi, hsync] at ha
    exact Bool.noConfusion ha

/-- The client goes on, and no callback of these calls runs. -/
theorem Inv.advance (hs : Inv s) {client : Tr50Client (SyncCallback κ)}
    {a : Action (SyncCallback κ)} (hstep : s.client.step inflate a = some client)
    (ha : a.isSync = false) (hclient : client.SubmitInv) (hrefused : client.Refused)
    (hheard : ∀ i ∈ client.history.callbacks, i.callback = .sync →
      i ∈ s.client.history.callbacks)
    (hsame : s.client.history.callbacks ⊆ client.history.callbacks) :
    Inv { s with client } := by
  have hgrows := (Tr50Client.step_effect hstep).grows
  refine ⟨hclient, hrefused, fun obj hle => hs.fresh obj (hgrows.nextHandle.trans hle),
    hs.knows hstep, hs.calls hstep ha, fun obj o ho => ?_,
    fun i hi hsync => hs.told i (hheard i hi hsync) hsync, fun obj o ret ho hphase => ?_,
    fun obj o ho hphase => ?_, hs.alive⟩
  · refine ok_congr ⟨fun ⟨i, hi, h⟩ => ⟨i, hsame hi, h⟩, fun ⟨i, hi, h⟩ => ?_⟩ (hs.obj obj o ho)
    exact ⟨i, hheard i hi h.2, h⟩
  · obtain ⟨hret, r, hr, hboth⟩ := hs.ended obj o ret ho hphase
    exact ⟨hret, r, hgrows.returned hr, hboth⟩
  · obtain ⟨r, hr, hboth⟩ := hs.accepted obj o ho hphase
    exact ⟨r, hgrows.returned hr, hboth⟩

/-- A callback of these calls runs. -/
theorem Inv.heard (hs : Inv s) {client : Tr50Client (SyncCallback κ)}
    {a : Action (SyncCallback κ)} (hstep : s.client.step inflate a = some client)
    (ha : a.isSync = false) (hclient : client.SubmitInv) (hrefused : client.Refused)
    {i : Invocation (SyncCallback κ)}
    (hnew : client.history.callbacks = i :: s.client.history.callbacks)
    (honce : ∀ j ∈ s.client.history.callbacks, j.handle ≠ i.handle) (hcallback : i.callback = .sync)
    {o : SyncObj} (ho : s.objs i.handle = some o) (halive : o.phase.isAlive)
    (signalling : Runner → Option ℕ) : Inv { s with
      client
      objs := Function.update s.objs i.handle (some { o with
        status := i.status
        reply := heardReply i
        evt := o.evt.goTo o.evt.mux .callback .signal })
      signalling } := by
  have hgrows := (Tr50Client.step_effect hstep).grows
  have hi : i ∈ client.history.callbacks := by rw [hnew]; exact List.mem_cons_self
  have hnot : ¬ s.Heard i.handle := fun ⟨j, hj, heq, _⟩ => honce j hj heq
  have hbefore : ∀ {obj : ℕ} {o' : SyncObj}, Function.update s.objs i.handle (some { o with
      status := i.status
      reply := heardReply i
      evt := o.evt.goTo o.evt.mux .callback .signal }) obj = some o' →
      ∃ o'', s.objs obj = some o'' ∧ o''.phase = o'.phase := fun ho' => by
    rcases objs_update ho' with ⟨rfl, rfl⟩ | ⟨-, ho'⟩
    · exact ⟨o, ho, rfl⟩
    · exact ⟨_, ho', rfl⟩
  refine ⟨hclient, hrefused, fun obj hle => ?_,
    fun p hp => (isSome_update ho _ _).trans (hs.knows hstep p hp),
    fun call hcall => (isSome_update ho _ _).trans (hs.calls hstep ha call hcall),
    fun obj o' ho' => ?_, fun j hj hsync o' ho' => ?_, fun obj o' ret ho' hphase => ?_,
    fun obj o' ho' hphase => ?_, hs.alive⟩
  · refine (Function.update_of_ne ?_ ..).trans (hs.fresh obj (hgrows.nextHandle.trans hle))
    rintro rfl
    rw [hs.fresh _ (hgrows.nextHandle.trans hle)] at ho
    exact absurd ho nofun
  · rcases objs_update ho' with ⟨rfl, rfl⟩ | ⟨hne, ho'⟩
    · exact ok_congr (iff_of_true trivial ⟨i, hi, rfl, hcallback⟩)
        ((hs.obj _ o ho).hear hnot halive i.status (heardReply i))
    · refine ok_congr ⟨fun ⟨j, hj, h⟩ => ?_, fun ⟨j, hj, h⟩ => ?_⟩ (hs.obj obj o' ho')
      · exact ⟨j, by rw [hnew]; exact List.mem_cons_of_mem _ hj, h⟩
      · rw [hnew] at hj
        exact ⟨j, (List.mem_cons.mp hj).resolve_left fun heq => hne (heq ▸ h.1.symm), h⟩
  · rw [hnew] at hj
    rcases objs_update ho' with ⟨heq, rfl⟩ | ⟨hne, ho'⟩
    · obtain rfl := (List.mem_cons.mp hj).resolve_right fun hj => honce j hj heq
      exact ⟨rfl, rfl⟩
    · exact hs.told j ((List.mem_cons.mp hj).resolve_left fun heq => hne (heq ▸ rfl)) hsync o' ho'
  · obtain ⟨o'', ho'', heq⟩ := hbefore ho'
    obtain ⟨hret, r, hr, hboth⟩ := hs.ended obj o'' ret ho'' (heq.trans hphase)
    exact ⟨hret, r, hgrows.returned hr, hboth⟩
  · obtain ⟨o'', ho'', heq⟩ := hbefore ho'
    obtain ⟨r, hr, hboth⟩ := hs.accepted obj o'' ho'' (heq.trans hphase)
    exact ⟨r, hgrows.returned hr, hboth⟩

/-- **A step of the client keeps everything in place**, with the callback that it runs. -/
theorem Inv.clientStep (hs : Inv s) {a : Action (SyncCallback κ)} (ha : a.isSync = false)
    (hgood : s.Calm (.client a)) (h : s.clientStep inflate a = some t) : Inv t := by
  obtain ⟨client, hstep, rfl⟩ := Option.map_eq_some_iff.mp h
  have hclient := hs.client.step hgood.1 hstep
  have hrefused := hs.refused.step hs.client hgood.2 hstep
  rcases Tr50Client.callbacks_step (Tr50Client.step_effect hstep) hclient with
    hsame | ⟨i, hnew, honce, hadded⟩
  · simp only [hsame, Nat.sub_self, List.take_zero, List.foldl_nil]
    exact hs.advance hstep ha hclient hrefused (fun i hi _ => hsame ▸ hi)
      (hsame ▸ List.Subset.refl _)
  · have htake : client.history.callbacks.take
        (client.history.callbacks.length - s.client.history.callbacks.length) = [i] := by
      rw [hnew, List.length_cons, Nat.add_sub_cancel_left]
      rfl
    simp only [htake, List.foldl_cons, List.foldl_nil]
    have hi : i ∈ client.history.callbacks := by rw [hnew]; exact List.mem_cons_self
    unfold hear
    cases hcallback : i.callback with
    | other k =>
      refine hs.advance hstep ha hclient hrefused (fun j hj hsync => ?_) ?_
      · rw [hnew] at hj
        refine (List.mem_cons.mp hj).resolve_left fun heq => ?_
        rw [heq, hcallback] at hsync
        exact absurd hsync nofun
      · rw [hnew]
        exact List.subset_cons_self _ _
    | sync =>
      have hgrows := (Tr50Client.step_effect hstep).grows
      rw [hcallback] at hadded
      obtain ⟨o, ho⟩ : ∃ o, s.objs i.handle = some o := by
        exact Option.isSome_iff_exists.mp ((hs.knows hstep _ hadded).mpr rfl)
      have hnot : ¬ s.Heard i.handle := fun ⟨j, hj, heq, _⟩ => honce j hj heq
      have halive := hs.isAlive ho (fun r hr hret heq =>
        hrefused.not_called hclient.inv (hgrows.returned hr) hret i hi heq.symm) hnot
      have hfilter : (s.objs i.handle).filter (·.phase.isAlive) = some o := by
        rw [ho]
        exact Option.filter_some_pos halive
      simp only [hfilter]
      exact hs.heard hstep ha hclient hrefused hnew honce hcallback ho halive _

/-- A synchronous call begins. -/
theorem Inv.call (hs : Inv s) {runner : Option Runner} {messageType : MessageType} {timeout : ℤ}
    (hgood : s.Calm (.call runner messageType timeout))
    (h : s.step inflate (.call runner messageType timeout) = some t) : Inv t := by
  simp only [step] at h
  split_ifs at h
  obtain ⟨client, hstep, h⟩ := Option.bind_eq_some_iff.mp h
  obtain rfl := Option.some.inj h
  have hnew : s.client.NewId
      (.api (runner = some .sweep) messageType timeout (some .sync)) := hgood
  have hdeflates : Tr50Client.Deflates (κ := SyncCallback κ)
      (.api (runner = some .sweep) messageType timeout (some .sync)) := trivial
  have hclient := hs.client.step hnew hstep
  have hrefused := hs.refused.step hs.client hdeflates hstep
  have hgrows := (Tr50Client.step_effect hstep).grows
  have hsame : client.nextHandle = s.client.nextHandle + 1
      ∧ client.history.callbacks = s.client.history.callbacks
      ∧ client.history.added = s.client.history.added := by
    simp only [Tr50Client.step, Tr50Client.apiEnter] at hstep
    split_ifs at hstep <;> obtain rfl := Option.some.inj hstep <;> exact ⟨rfl, rfl, rfl⟩
  have hnot : ¬ s.Heard s.client.nextHandle := by
    rintro ⟨i, hi, heq, hsync⟩
    have hadded := hs.client.inv.accounted.fresh (i.handle, some i.callback)
      (hs.client.inv.accounted.split.mem_iff.mpr (List.mem_append_right _ ?_))
    · exact hadded.ne heq
    · rcases hs.client.inv.told.told i hi with ⟨-, h⟩ | ⟨-, h⟩ <;>
        exact List.mem_map_of_mem (f := Prod.fst) h
  refine ⟨hclient, hrefused, fun obj hle => ?_, fun p hp => ?_, fun call hcall => ?_,
    fun obj o ho => ?_, fun i hi hsync o ho => ?_, fun obj o ret ho hphase => ?_,
    fun obj o ho hphase => ?_, hs.alive⟩
  · have hle : s.client.nextHandle + 1 ≤ obj := hsame.1 ▸ hle
    exact (Function.update_of_ne (by omega) ..).trans (hs.fresh obj (by omega))
  · have hp : p ∈ s.client.history.added := hsame.2.2 ▸ hp
    have hother := Function.update_of_ne (hs.client.inv.accounted.fresh p hp).ne
      (some (newObj runner messageType)) s.objs
    exact (Eq.congr_left (congrArg Option.isSome hother)).trans (hs.known p hp)
  · rcases Tr50Client.call_step hstep hcall with ⟨before, hbefore, -⟩ | ⟨_, _, _, hapi, hhandle⟩
    · -- a call is made when there is none
      simp only [Tr50Client.step, Tr50Client.apiEnter, hbefore, Option.isSome_some,
        if_true] at hstep
      exact absurd hstep.symm (Option.some_ne_none _)
    · rw [hhandle]
      refine iff_of_true (Option.isSome_of_eq_some (Function.update_self ..)) ?_
      exact (Action.api.inj hapi).2.2.2.symm
  · have hheard : s.Heard obj ↔ Heard { s with client } obj := by
      simp only [Heard, hsame.2.1]
    rcases objs_update ho with ⟨rfl, rfl⟩ | ⟨-, ho⟩
    · exact ok_congr hheard (SyncObj.ok_new runner messageType hnot)
    · exact ok_congr hheard (hs.obj obj o ho)
  · have hi : i ∈ s.client.history.callbacks := hsame.2.1 ▸ hi
    rcases objs_update ho with ⟨heq, rfl⟩ | ⟨-, ho⟩
    · exact absurd ⟨i, hi, heq, hsync⟩ hnot
    · exact hs.told i hi hsync o ho
  · rcases objs_update ho with ⟨rfl, rfl⟩ | ⟨-, ho⟩
    · exact SyncPhase.noConfusion hphase
    · obtain ⟨hret, r, hr, hboth⟩ := hs.ended obj o ret ho hphase
      exact ⟨hret, r, hgrows.returned hr, hboth⟩
  · rcases objs_update ho with ⟨rfl, rfl⟩ | ⟨-, ho⟩
    · exact SyncPhase.noConfusion hphase
    · obtain ⟨r, hr, hboth⟩ := hs.accepted obj o ho hphase
      exact ⟨r, hgrows.returned hr, hboth⟩

/-- **Every calm step keeps the invariant.** -/
theorem Inv.step (hs : Inv s) {a : SyncAction κ} (hgood : s.Calm a)
    (h : s.step inflate a = some t) : Inv t := by
  cases a with
  | client a =>
    simp only [SyncSystem.step] at h
    split_ifs at h with ha
    exact hs.clientStep (Bool.eq_false_iff.mpr (not_or.mp ha).1) hgood h
  | call runner messageType timeout => exact hs.call hgood h
  | resume obj =>
    simp only [SyncSystem.step, Option.bind_eq_bind, Option.bind_eq_some_iff,
      Option.filter_eq_some_iff, decide_eq_true_eq] at h
    obtain ⟨o, ⟨ho, hphase⟩, r, hr, h⟩ := h
    have hmem := List.mem_of_find?_eq_some hr
    have hhandle : r.handle = obj := by simpa using List.find?_some hr
    split_ifs at h with hret
    · obtain rfl := Option.some.inj h
      have hnot : ¬ s.Heard obj := by
        rintro ⟨i, hi, heq, -⟩
        exact hs.refused.not_called hs.client.inv hmem hret i hi (heq.trans hhandle.symm)
      refine hs.update ho ((hs.obj obj o ho).refuse hnot r.ret) rfl rfl (fun ret hended => ?_)
        SyncPhase.noConfusion _ _
      obtain rfl := SyncPhase.refused.inj hended
      exact ⟨hret, r, hmem, hhandle, rfl⟩
    · obtain rfl := Option.some.inj h
      exact hs.update ho ((hs.obj obj o ho).resume hphase) rfl rfl (fun _ => SyncPhase.noConfusion)
        (fun _ => ⟨r, hmem, hhandle, not_not.mp hret⟩) _ _
  | wait obj wake =>
    simp only [SyncSystem.step, Option.bind_eq_bind, Option.bind_eq_some_iff,
      Option.filter_eq_some_iff, decide_eq_true_eq] at h
    obtain ⟨o, ⟨ho, hphase⟩, evt, hevt, h⟩ := h
    obtain rfl := Option.some.inj h
    exact hs.update ho ((hs.obj obj o ho).wait hphase (by cases wake <;> simp) hevt) rfl rfl
      (fun _ hended => SyncPhase.noConfusion (hphase.symm.trans hended))
      (fun _ => hs.accepted obj o ho hphase) _ _
  | signal obj =>
    simp only [SyncSystem.step, Option.bind_eq_bind, Option.bind_eq_some_iff] at h
    obtain ⟨o, ho, evt, hevt, h⟩ := h
    obtain ⟨halive, hok⟩ := (hs.obj obj o ho).signal hevt
    rw [if_pos halive] at h
    obtain rfl := Option.some.inj h
    exact hs.update ho hok rfl rfl (fun ret hended => hs.ended obj o ret ho hended)
      (hs.accepted obj o ho) _ _
  | finish obj =>
    simp only [SyncSystem.step, Option.bind_eq_bind, Option.bind_eq_some_iff,
      Option.filter_eq_some_iff, decide_eq_true_eq] at h
    obtain ⟨o, ⟨ho, hphase⟩, h⟩ := h
    obtain ⟨hout, h⟩ := Option.ite_none_right_eq_some.mp h
    obtain rfl := Option.some.inj h
    exact hs.update ho ((hs.obj obj o ho).finish hphase hout) rfl rfl
      (fun _ => SyncPhase.noConfusion) SyncPhase.noConfusion _ _

theorem inv_of_reach (h : Reach (step inflate) Calm (init : SyncSystem κ) s) : Inv s :=
  h.invariant inv_init fun _ _ _ hs hgood hstep => hs.step hgood hstep

/-! ## The object while its call is made -/

/-- The one callback that an object whose callback has run has had. -/
theorem Inv.once (hs : Inv s) {obj : ℕ} (hheard : s.Heard obj) {o : SyncObj}
    (ho : s.objs obj = some o) : ∃ i ∈ s.client.history.callbacks, i.handle = obj
      ∧ (∀ j ∈ s.client.history.callbacks, j.handle = obj → j = i)
      ∧ o.status = i.status ∧ o.reply = heardReply i := by
  obtain ⟨i, hi, rfl, hsync⟩ := hheard
  have hnodup := (List.nodup_append.mp hs.client.once).1
  exact ⟨i, hi, rfl, fun j hj heq => List.inj_on_of_nodup_map hnodup hj hi heq,
    hs.told i hi hsync o ho⟩

/-- What a synchronous call comes to: it is refused and nobody is called for it, or it returns with
what its one callback has said, after that is done with the event. -/
def Concluded (s : SyncSystem κ) (obj : ℕ) (o : SyncObj) : Prop :=
  (∀ ret, o.phase = .refused ret → ret ≠ 0 ∧ ∀ i ∈ s.client.history.callbacks, i.handle ≠ obj)
  ∧ (o.phase = .returned → o.evt.pc .callback = .out
    ∧ ∃ i ∈ s.client.history.callbacks, i.handle = obj
      ∧ (∀ j ∈ s.client.history.callbacks, j.handle = obj → j = i)
      ∧ o.status = i.status ∧ o.reply = heardReply i)

theorem Inv.concluded (hs : Inv s) {obj : ℕ} {o : SyncObj} (ho : s.objs obj = some o) :
    s.Concluded obj o := by
  refine ⟨fun ret hphase => ?_, fun hphase => ?_⟩
  · obtain ⟨hret, r, hr, rfl, rfl⟩ := hs.ended obj o ret ho hphase
    exact ⟨hret, hs.refused.not_called hs.client.inv hr hret⟩
  · have hok := hs.obj obj o ho
    obtain ⟨hopen, hout⟩ := hok.returned hphase
    refine ⟨hout, hs.once (not_not.mp fun hnot => ?_) ho⟩
    rw [hok.locked.mpr (Or.inl hnot)] at hopen
    exact Bool.noConfusion hopen

end SyncSystem

open SyncSystem

/-- **No callback of a synchronous call comes too late**: it finds its object alive, and a caller
does not return before the callback is done with the event.  What a call returns is what its
callback was given, once; a call that is refused has none. -/
theorem syncCall_sound (inflate : List UInt8 → Option (List UInt8)) {s : SyncSystem κ}
    (h : Reach (SyncSystem.step inflate) Calm init s) :
    s.dangling = false ∧ ∀ obj o, s.objs obj = some o → s.Concluded obj o :=
  have hs := inv_of_reach h
  ⟨hs.alive, fun _ _ ho => hs.concluded ho⟩

/-- A raw call of the application, in the list… -/
def rawCall (ret : ℤ) : List (SyncAction Unit) := [.client (.add 0), .client (.compress ret)]

/-- …and the reply to it. -/
def rawReply : List (SyncAction Unit) :=
  [.client (.receive (cstring "reply/1".toList) (cstring ['x'])), .client .deliver]

/-- The caller sleeps until the reply comes… -/
def rawAnswered : List (SyncAction Unit) :=
  rawCall 0 ++ [.client (.publish 0), .resume 0, .wait 0 false, .wait 0 false] ++ rawReply
    ++ [.signal 0, .signal 0, .wait 0 false, .wait 0 false, .finish 0]

/-- …and returns with it. -/
theorem syncCall_sound_answered : ∃ (s : SyncSystem Unit) (o : SyncObj),
    Reach (SyncSystem.step fun _ => none) Calm init s ∧ s.dangling = false
    ∧ s.objs 0 = some o ∧ o.phase = .returned ∧ s.Concluded 0 o := by
  have heval : (((SyncSystem.step (fun _ => none) init (.call none .raw 30000)).bind fun s =>
      rawAnswered.foldlM (SyncSystem.step fun _ => none) s).bind fun s =>
        (s.objs 0).map (·.phase)) = some .returned := by decide +kernel
  obtain ⟨s, hs, hview⟩ := Option.bind_eq_some_iff.mp heval
  obtain ⟨o, ho, hphase⟩ := Option.map_eq_some_iff.mp hview
  obtain ⟨s₁, hcall, hs⟩ := Option.bind_eq_some_iff.mp hs
  have hnew : (init : SyncSystem Unit).Calm (.call none .raw 30000) := nofun
  have hcalm : ∀ s : SyncSystem Unit, ∀ a ∈ rawAnswered, s.Calm a := fun s => by
    simp [rawAnswered, rawCall, rawReply, Calm, Tr50Client.NewId, Tr50Client.Deflates]
  have hreach := (Reach.refl.tail hnew hcall).trans (Reach.of_foldlM rawAnswered hcalm hs)
  have hsound := syncCall_sound _ hreach
  exact ⟨s, o, hreach, hsound.1, ho, hphase, hsound.2 0 o ho⟩

/-- **A raw call whose deflation fails returns, and its callback writes where its object was.** -/
theorem not_syncCall_sound_deflate : ∃ s : SyncSystem Unit,
    Reach (SyncSystem.step fun _ => none) (fun _ _ => True) init s ∧ s.dangling := by
  have heval : (((.call none .raw 30000 :: rawCall (-1)) ++ .resume 0 :: rawReply).foldlM
      (SyncSystem.step fun _ => none) init).map (·.dangling) = some true := by decide +kernel
  obtain ⟨s, hs, hview⟩ := Option.map_eq_some_iff.mp heval
  exact ⟨s, Reach.of_foldlM _ (fun _ _ _ => trivial) hs, hview⟩

end Tr50
