import Tr50.Machinery.Log
import Tr50.Api.Outstanding

/-!
# Api/Notified — no notification is lost

A check that finds another one in progress sets `mailbox_another_request`, and whoever ends the
other one starts one more.  So what has been called is always owed by somebody (`Serving`), until a
mailbox check goes out; and there is one on its way at most (`checksServed`).  That it goes out is a
call of `mqtt_async_publish`: a publish that fails behind the expiration of its request fails no
call (`not_checksSent_expired`).
-/

namespace Tr50

open Machinery

variable {κ : Type}

/-- A thread in `tr50_mailbox_check`, before its call. -/
def MailboxFrame.soon : MailboxFrame → Bool
  | .check .entry => true
  | .check .lock => true
  | .check .create => true
  | .check .call => true
  | _ => false

namespace MailboxSystem

variable {inflate : List UInt8 → Option (List UInt8)} {s t : MailboxSystem κ}

/-! ## Whose turn it is -/

/-- Nothing goes wrong: the mailbox is not suspended, every mailbox check that leaves the list gets
its callback, and none fails on the way to the list. -/
structure Undisturbed (inflate : List UInt8 → Option (List UInt8)) (s : MailboxSystem κ)
    (a : MailboxAction κ) : Prop where
  answered : Answered inflate s a
  resumed : s.mailbox.suspend = false
  succeeds : ∀ t, s.step inflate a = some t → ∀ f ∈ t.frames, f.2 ≠ .check .endError

/-- Somebody will publish a mailbox check. -/
def Serving (s : MailboxSystem κ) : Prop :=
  (∃ f ∈ s.frames, MailboxFrame.soon f.2) ∨ s.client.call.any (·.unsent)
    ∨ s.mailbox.sendInProgress ∧ s.mailbox.anotherRequest

/-- `tr50_mailbox_check` has been called, and no mailbox check published since. -/
def Owing (s : MailboxSystem κ) : Prop :=
  Owes (· = .check) (fun e => ∃ ret, e = .publish ret) s.events

theorem not_owing_publish {ret : ℤ} {events : List MailboxEvent} :
    ¬ Owes (· = .check) (fun e => ∃ ret, e = .publish ret) (.publish ret :: events) :=
  not_owes_cons ⟨ret, rfl⟩ (by simp)

/-- A thread that is not about to call goes on. -/
theorem Serving.of_pop {thread : MailboxThread} {frame : MailboxFrame} (hs : Serving s)
    (htop : Stacks.top s.frames thread = some frame) (hframe : MailboxFrame.soon frame = false)
    (hframes : ∀ f ∈ Stacks.pop s.frames thread, f ∈ t.frames) (hclient : t.client = s.client)
    (hflags : s.mailbox.sendInProgress ∧ s.mailbox.anotherRequest →
      t.mailbox.sendInProgress ∧ t.mailbox.anotherRequest) : Serving t := by
  rcases hs with ⟨f, hf, hsoon⟩ | hunsent | hflag
  · refine Or.inl ⟨f, hframes f (Stacks.mem_pop_of_ne htop hf fun heq => ?_), hsoon⟩
    rw [heq, hframe] at hsoon
    cases hsoon
  · exact Or.inr (Or.inl (hclient ▸ hunsent))
  · exact Or.inr (Or.inr (hflags hflag))

/-- **What is owed stays owed by somebody.** -/
theorem Effect.serving (hs : Placed s) (hserving : Owing s → Serving s) (h : Effect s t)
    (hresumed : s.mailbox.suspend = false) (hfine : ∀ f ∈ s.frames, f.2 ≠ .check .endError)
    (hfine' : ∀ f ∈ t.frames, f.2 ≠ .check .endError) (howing : Owing t) : Serving t := by
  cases h with
  | check thread => exact Or.inl ⟨_, List.mem_cons_self, rfl⟩
  | leave thread frame htop hframe =>
    rcases hframe with rfl | ⟨rfl, hsuspend⟩
    · exact (hserving howing).of_pop htop rfl (fun f hf => hf) rfl id
    · exact absurd hsuspend (by simp [hresumed])
  | lock thread htop => exact Or.inl ⟨_, List.mem_cons_self, rfl⟩
  | busy thread htop hflag => exact Or.inr (Or.inr ⟨hflag, rfl⟩)
  | set thread htop hflag => exact Or.inl ⟨_, List.mem_cons_self, rfl⟩
  | create thread pc hpc htop =>
    rcases hpc with rfl | rfl
    · exact Or.inl ⟨_, List.mem_cons_self, rfl⟩
    · exact absurd rfl (hfine' _ List.mem_cons_self)
  | refuse thread client htop hclient hcalled hwaiting =>
    exact absurd rfl (hfine' _ List.mem_cons_self)
  | enter thread client htop hclient hunsent hcalled hwaiting => exact Or.inr (Or.inl hunsent)
  | endError thread htop => exact absurd rfl (hfine _ (Stacks.mem_of_top htop))
  | done thread count htop hanother =>
    exact (hserving howing).of_pop htop rfl (fun f hf => hf) rfl
      fun hflags => absurd hflags.2 (by simp [hanother])
  | again thread count htop => exact Or.inl ⟨_, List.mem_cons_self, rfl⟩
  | suspend b => exact hserving howing
  | client client events hclient hcalled hevents hwaiting =>
    rcases hevents with ⟨rfl, hunsent⟩ | ⟨ret, rfl⟩
    · exact (hserving howing).imp_right (Or.imp_left hunsent)
    · exact absurd howing not_owing_publish
  | success client events hclient hcalled hevents hwaiting =>
    rcases hevents with ⟨rfl, hsent⟩ | ⟨ret, rfl⟩
    · rcases hserving howing with ⟨f, hf, hsoon⟩ | hunsent | hflags
      · refine Or.inl ⟨f, List.mem_filter.mpr ⟨hf, ?_⟩, hsoon⟩
        refine decide_eq_true fun heq => ?_
        rw [heq] at hsoon
        cases hsoon
      · exact absurd hunsent hsent
      · exact Or.inr (Or.inr hflags)
    · exact absurd howing not_owing_publish
  | failure client hclient hcall hcalled hwaiting =>
    obtain ⟨f, hf, hend⟩ := hs.exists_failed hcall
    exact absurd hend (hfine' f hf)
  | answer thread client count hclient hcall hwaiting =>
    rcases hserving howing with ⟨f, hf, hsoon⟩ | hunsent | hflags
    · exact Or.inl ⟨f, List.mem_cons_of_mem _ hf, hsoon⟩
    · exact Or.inr (Or.inl (hcall ▸ hunsent))
    · exact Or.inr (Or.inr hflags)
  | app thread client hclient hcall hwaiting =>
    rcases hserving howing with ⟨f, hf, hsoon⟩ | hunsent | hflags
    · exact Or.inl ⟨f, List.mem_cons_of_mem _ hf, hsoon⟩
    · exact Or.inr (Or.inl (hcall ▸ hunsent))
    · exact Or.inr (Or.inr hflags)

/-! ## At rest -/

/-- No check outstanding, and no callback of one running. -/
def AtRest (s : MailboxSystem κ) : Prop :=
  (∀ f ∈ s.frames, f.2 = .app) ∧ s.client.waitingChecks = 0

/-- For every call of `tr50_mailbox_check` a mailbox check has been handed to `mqtt_async_publish`
since. -/
def ChecksServed (s : MailboxSystem κ) : Prop :=
  ∀ later earlier, s.events = later ++ .check :: earlier → ∃ ret, .publish ret ∈ later

/-- At rest nothing is on its way… -/
theorem AtRest.outstanding_eq (hs : Placed s) (h : AtRest s) : s.outstanding = 0 := by
  by_contra hne
  rcases hs.covered (Nat.pos_of_ne_zero hne) with ⟨f, hf, hin⟩ | ⟨m, hm, hcheck⟩
  · exact hin (h.1 f hf)
  · exact List.countP_eq_zero.mp h.2 m hm hcheck

/-- …and nobody is about to send anything. -/
theorem AtRest.not_serving (hs : Placed s) (h : AtRest s)
    (hflag : s.mailbox.sendInProgress = false) : ¬ Serving s := by
  rintro (⟨f, hf, hsoon⟩ | hunsent | ⟨hset, -⟩)
  · rw [h.1 f hf] at hsoon
    cases hsoon
  · have hcalled : 0 < s.frames.countP (·.2 = .check .called) := by
      rw [hs.called]
      cases hcall : s.client.call with
      | none => simp [hcall] at hunsent
      | some call =>
        rw [hcall] at hunsent
        have hcheck : call.message.isMailboxCheck := (Bool.and_eq_true_iff.mp hunsent).1
        simp [Tr50Client.calledChecks, hcall, hcheck]
    obtain ⟨f, hf, hinside⟩ := List.countP_pos_iff.mp hcalled
    exact absurd ((h.1 f hf).symm.trans (of_decide_eq_true hinside)) (by simp)
  · exact absurd hset (by simp [hflag])

/-- **One mailbox check is on its way at most, and no call is lost**: when the client comes to rest
a mailbox check has been published behind every one. -/
theorem checksServed (inflate : List UInt8 → Option (List UInt8)) {s : MailboxSystem κ}
    (h : Reach (step inflate) (Undisturbed inflate) init s) :
    s.outstanding ≤ 1 ∧ (AtRest s → ChecksServed s) := by
  obtain ⟨hs, hcount, hfine, hserving⟩ : Placed s
      ∧ s.outstanding = s.mailbox.sendInProgress.toNat
      ∧ (∀ f ∈ s.frames, f.2 ≠ .check .endError) ∧ (Owing s → Serving s) := by
    refine h.invariant (I := fun s => Placed s ∧ s.outstanding = s.mailbox.sendInProgress.toNat
      ∧ (∀ f ∈ s.frames, f.2 ≠ .check .endError) ∧ (Owing s → Serving s))
      ⟨placed_init, rfl, fun f hf => absurd hf List.not_mem_nil,
        fun howing => absurd howing not_owes_nil⟩ fun s a t hs hgood hstep => ?_
    obtain ⟨hs, hcount, hfine, hserving⟩ := hs
    have heffect := step_effect hs hstep hgood.answered
    have hfine' := hgood.succeeds t hstep
    refine ⟨heffect.placed hs, ?_, hfine', heffect.serving hs hserving hgood.resumed hfine hfine'⟩
    cases heffect.turn hs with
    | keep hsame hkeep => rw [hkeep, hcount, hsame]
    | set hfree hset hmore => rw [hmore, hcount, hfree, hset]; rfl
    | clear hclear hless =>
      have hle := Bool.toNat_le s.mailbox.sendInProgress
      rw [hclear, Bool.toNat_false]
      omega
    | twice hsame hfailed hmore =>
      obtain ⟨f, hf, hend⟩ := hfailed
      exact absurd hend (hfine' f hf)
  refine ⟨hcount ▸ Bool.toNat_le _, fun hrest later earlier heq => ?_⟩
  have hflag : s.mailbox.sendInProgress = false :=
    Bool.toNat_eq_zero.mp (hcount.symm.trans (hrest.outstanding_eq hs))
  obtain ⟨e, he, ret, rfl⟩ := exists_answer
    (fun howing => hrest.not_serving hs hflag (hserving howing)) heq rfl
  exact ⟨ret, he⟩

/-! ## Runs -/

/-- What is received is no reply, or is one. -/
def answers : MailboxAction Unit → Bool
  | .client (.receive topic data) =>
    match tr50PublishHandler (fun _ => none) topic data with
    | .reply _ text => decide (Tr50Client.IsReply text)
    | _ => true
  | _ => true

/-- A step of a run that is not disturbed, where no call of the application's is in progress. -/
def undisturbedStep (s : MailboxSystem Unit) (a : MailboxAction Unit) :
    Option (MailboxSystem Unit) := do
  let t ← s.step (fun _ => none) a
  if s.mailbox.suspend = false ∧ (∀ f ∈ t.frames, f.2 ≠ .check .endError)
    ∧ s.client.call.all (·.message.isMailboxCheck) ∧ answers a then some t else none

theorem undisturbed_of_step {s t : MailboxSystem Unit} {a : MailboxAction Unit}
    (h : undisturbedStep s a = some t) :
    Undisturbed (fun _ => none) s a ∧ s.step (fun _ => none) a = some t := by
  obtain ⟨t', hstep, hnext⟩ := Option.bind_eq_some_iff.mp h
  split_ifs at hnext with hcond
  obtain rfl := Option.some.inj hnext
  obtain ⟨hresumed, hfine, hcalls, hanswers⟩ := hcond
  refine ⟨⟨?_, hresumed, fun t ht => ?_⟩, hstep⟩
  · unfold Answered
    split
    · intro seqId text m hinbound _ _
      rw [answers, hinbound] at hanswers
      exact of_decide_eq_true hanswers
    · intro call message hcall hnot
      rw [hcall] at hcalls
      exact absurd hcalls (by simpa using hnot)
    · trivial
  · obtain rfl := Option.some.inj (hstep.symm.trans ht)
    exact hfine

/-- The reply without messages. -/
def nothing : String := "\x7b\x7d"

/-- A notification while a check waits for its reply; the reply to it, the check it starts, and the
reply to that one. -/
def notified : List (MailboxAction Unit) :=
  checked ++ [.client (.receive (cstring "notify/mailbox_activity".toList) []),
    .move .receive (.go true), .move .receive (.go true), reply "reply/1" nothing,
    .move .receive (.go true), .move .receive (.go true), .move .receive (.go true),
    .move .receive (.go true), .move .receive (.go true), .client (.payload 0), .client (.add 0),
    .client (.publish 0), reply "reply/2" nothing, .move .receive (.go true)]

/-- …so it is for a notification that finds a check in progress. -/
theorem checksServed_notified : ∃ s : MailboxSystem Unit,
    Reach (step fun _ => none) (Undisturbed fun _ => none) init s
    ∧ s.events = [.publish 0, .check, .check, .publish 0, .check] ∧ AtRest s ∧ ChecksServed s := by
  have heval : (notified.foldlM undisturbedStep init).map (fun s =>
      (s.events, s.frames, s.client.waitingChecks))
      = some ([.publish 0, .check, .check, .publish 0, .check], [], 0) := by decide +kernel
  obtain ⟨s, hs, hview⟩ := Option.map_eq_some_iff.mp heval
  obtain ⟨hevents, hframes, hwaiting⟩ := by simpa only [Prod.mk.injEq] using hview
  have hreach : Reach (step fun _ => none) (Undisturbed fun _ => none) init s :=
    Reach.of_foldlM_of notified (fun _ _ _ _ => undisturbed_of_step) hs
  have hrest : AtRest s := ⟨by simp [hframes], hwaiting⟩
  exact ⟨s, hreach, hevents, hrest, (checksServed _ hreach).2 hrest⟩

/-- A check whose request expires before its publish fails. -/
def expired : List (MailboxAction Unit) :=
  checked.take 7 ++ [.client (.sweep 30000), .client .visit, .move .sweep (.go true),
    .client .callbackReturn, .client .visit, .client (.publish (-1)), .client .remove]

/-- **A publish can fail behind the expiration of its request**: the call of the check succeeds, and
nothing has been sent. -/
theorem not_checksSent_expired : ¬ ∀ s : MailboxSystem Unit,
    Reach (step fun _ => none) (Undisturbed fun _ => none) init s → s.outstanding ≤ 1
      ∧ (AtRest s → ∀ later earlier, s.events = later ++ .check :: earlier →
        .publish 0 ∈ later) := by
  intro h
  have heval : (expired.foldlM undisturbedStep init).map (fun s =>
      (s.events, s.frames, s.client.waitingChecks)) = some ([.publish (-1), .check], [], 0) := by
    decide +kernel
  obtain ⟨s, hs, hview⟩ := Option.map_eq_some_iff.mp heval
  obtain ⟨hevents, hframes, hwaiting⟩ := by simpa only [Prod.mk.injEq] using hview
  have hreach : Reach (step fun _ => none) (Undisturbed fun _ => none) init s :=
    Reach.of_foldlM_of expired (fun _ _ _ _ => undisturbed_of_step) hs
  have hsent := (h s hreach).2 ⟨by simp [hframes], hwaiting⟩ [.publish (-1)] [] hevents
  simp at hsent

end MailboxSystem

end Tr50
