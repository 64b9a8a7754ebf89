import Tr50.Api.Client

/-!
# Api/Requests — what becomes of a request

A request that has been added waits in the list or has been taken out of it, once
(`Accounted`).  Whoever takes it out — the reply, the sweep — owes its submitter one callback, and
pays it unless the reply is for a message and is no reply message: not JSON, or a command
(`requestSettled`, `not_requestSettled_text`).
-/

namespace Tr50

open Machinery

variable {κ : Type}

namespace Tr50Client

/-! ## What a step does -/

/-- The message that an id stands for. -/
def idOf (m : Tr50Message κ) : ℤ × ℕ := (m.seqId, m.handle)

/-- The effect of a step on the list, the call in progress and the record of what has happened. -/
inductive Effect (s : Tr50Client κ) : Action κ → Tr50Client κ → Prop
  | refuse {a} (message : Tr50Message κ) (ret : ℤ) (hcall : s.call = none)
      (hhandle : message.handle = s.nextHandle) (hret : ret ≠ 0) :
      Effect s a (leave { s with nextHandle := s.nextHandle + 1 } message ret)
  | enter {inSweep messageType timeout callback} (call : ApiCall κ) (hcall : s.call = none)
      (hhandle : call.message.handle = s.nextHandle)
      (hid : call.message.seqId = tr50ApiMsgIdNext s.seqId)
      (hstage : call.stage = .payload ∨ call.stage = .add)
      (hsweep : call.inSweep → s.sweep.inCallback) :
      Effect s (.api inSweep messageType timeout callback)
        { s with
          seqId := call.message.seqId
          nextHandle := s.nextHandle + 1
          call := some call }
  | leave {a} (call : ApiCall κ) (ret : ℤ) (hcall : s.call = some call)
      (hret : call.stage = .payload ∧ ret ≠ 0 ∨ call.stage = .compress ∧ ret ≠ 0
        ∨ call.stage = .publish ∧ ret = 0) :
      Effect s a (s.leave call.message ret)
  | goOn {a} (call : ApiCall κ) (stage : Stage) (hcall : s.call = some call)
      (hstage : call.stage = .payload ∧ stage = .add ∨ call.stage = .compress ∧ stage = .publish
        ∨ call.stage = .publish ∧ ∃ ret ≠ 0, stage = .remove ret) :
      Effect s a (s.goOn call stage)
  | add {a} (call : ApiCall κ) (now : ℤ) (stage : Stage) (hcall : s.call = some call)
      (hadd : call.stage = .add)
      (hstage : stage = .publish ∨ stage = .compress ∧ call.message.messageType = .raw) :
      Effect s a (goOn { s with
        pending := tr50PendingAdd s.pending call.message now
        history.added := call.message.submission :: s.history.added } call stage)
  | takeBack {a} (call : ApiCall κ) (ret : ℤ) (message : Tr50Message κ) (hcall : s.call = some call)
      (hstage : call.stage = .remove ret) (hfree : s.PendingFree call.inSweep)
      (hmem : message ∈ s.pending.list) (hid : message.seqId = call.message.seqId) :
      Effect s a (Tr50Client.leave { s with
        pending := tr50PendingLinklistRemove s.pending message
        history.unlinked := (message.submission, .call) :: s.history.unlinked } call.message ret)
  | expired {a} (call : ApiCall κ) (ret : ℤ) (hcall : s.call = some call)
      (hstage : call.stage = .remove ret)
      (hid : ∀ m ∈ s.pending.list, m.seqId ≠ call.message.seqId) :
      Effect s a (s.leave call.message 0)
  | take {a} (message : Tr50Message κ) (seqId : ℤ) (data : List UInt8)
      (hdelivery : s.delivery = none) (hidle : s.sweep = .idle) (hmem : message ∈ s.pending.list)
      (hid : message.seqId = seqId) :
      Effect s a { s with
        pending := tr50PendingLinklistRemove s.pending message
        delivery := some ⟨message, seqId, data⟩
        history.unlinked := (message.submission, .reply) :: s.history.unlinked }
  | deliver (d : Delivery κ) (hdelivery : s.delivery = some d) :
      Effect s .deliver { s with
        delivery := none
        history.callbacks := tr50HandleReply d ++ s.history.callbacks }
  | expire {a} (message : Tr50Message κ) (sweep : Sweep) (pending : Tr50Pending κ)
      (hscan : ¬ s.sweep.inCallback)
      (hnext : sweep.next = tr50PendingNext s.pending.list message.handle)
      (hmem : message ∈ s.pending.list)
      (hpending : pending.list = (tr50PendingLinklistRemove s.pending message).list) :
      Effect s a { s with
        sweep := sweep
        pending := pending
        history.unlinked := (message.submission, .sweep) :: s.history.unlinked
        history.callbacks := (message.callback.toList.map fun k =>
          ⟨message.handle, k, errTr50ReqTimeout, none⟩) ++ s.history.callbacks }
  | quiet {a} (seqId : ℤ) (stopped isStopping : Bool) (sweep : Sweep) (pending : Tr50Pending κ)
      (hnext : ∀ x, sweep.next = some x → x ∈ s.pending.handles ∨ s.sweep.next = some x)
      (hkeep : s.sweep.inCallback → s.call.any (·.inSweep) → sweep = s.sweep)
      (hpending : pending.submissions = s.pending.submissions)
      (hids : pending.list.map idOf = s.pending.list.map idOf) :
      Effect s a { s with seqId, stopped, isStopping, sweep, pending }

/-- The sweep stays where it is. -/
theorem Effect.counters {s : Tr50Client κ} {a : Action κ} (seqId : ℤ) (stopped isStopping : Bool) :
    Effect s a { s with seqId, stopped, isStopping } :=
  .quiet seqId stopped isStopping s.sweep s.pending (fun _ h => Or.inr h) (fun _ _ => rfl) rfl rfl

/-- Nothing happens at all. -/
theorem Effect.same (s : Tr50Client κ) (a : Action κ) : Effect s a s :=
  .counters s.seqId s.stopped s.isStopping

theorem map_idOf_reschedule (pending : Tr50Pending κ) (handle : ℕ) (now : ℤ) :
    (tr50PendingReschedule pending handle now).list.map idOf = pending.list.map idOf := by
  simp only [tr50PendingReschedule, List.map_map]
  refine List.map_congr_left fun m _ => ?_
  simp only [Function.comp_apply]
  split_ifs <;> rfl

theorem apiEnter_effect {s t : Tr50Client κ} {inSweep : Bool} {messageType : MessageType}
    {timeout : ℤ} {callback : Option κ}
    (h : s.apiEnter inSweep messageType timeout callback = some t) :
    Effect s (.api inSweep messageType timeout callback) t := by
  simp only [apiEnter] at h
  split_ifs at h with hcall hsweep
  all_goals
    have hnone : s.call = none := Option.not_isSome_iff_eq_none.mp hcall
    obtain rfl := Option.some.inj h
  · exact .refuse _ _ hnone rfl (by decide)
  · exact .refuse _ _ hnone rfl (by decide)
  · refine .enter ⟨inSweep, ⟨s.nextHandle, messageType, tr50ApiMsgIdNext s.seqId, timeout, callback,
      0, 0⟩, _⟩ hnone rfl rfl ?_ fun hin => ?_
    · cases messageType <;> simp
    · exact not_not.mp fun hnot => hsweep ⟨hin, hnot⟩

theorem apiStep_effect {s t : Tr50Client κ} {call : ApiCall κ} (hcall : s.call = some call)
    {a : Action κ} (h : s.apiStep call call.stage a = some t) : Effect s a t := by
  unfold apiStep at h
  split at h
  · rename_i hstage
    split_ifs at h with hret <;> obtain rfl := Option.some.inj h
    · exact .leave call _ hcall (Or.inl ⟨hstage, hret⟩)
    · exact .goOn call _ hcall (Or.inl ⟨hstage, rfl⟩)
  · rename_i now hstage
    unfold apiAdd at h
    split_ifs at h
    obtain rfl := Option.some.inj h
    refine .add call now _ hcall hstage ?_
    cases call.message.messageType <;> simp
  · rename_i hstage
    split_ifs at h with hret <;> obtain rfl := Option.some.inj h
    · exact .leave call _ hcall (Or.inr (Or.inl ⟨hstage, hret⟩))
    · exact .goOn call _ hcall (Or.inr (Or.inl ⟨hstage, rfl⟩))
  · rename_i hstage
    split_ifs at h with hret <;> obtain rfl := Option.some.inj h
    · exact .goOn call _ hcall (Or.inr (Or.inr ⟨hstage, _, hret, rfl⟩))
    · exact .leave call 0 hcall (Or.inr (Or.inr ⟨hstage, rfl⟩))
  · rename_i ret hstage
    unfold apiRemove at h
    split_ifs at h with hfree
    rcases findAndRemove_cases s.pending call.message.seqId with
      ⟨hfind, hid⟩ | ⟨m, hmem, hid, hfind⟩
    · rw [hfind] at h
      obtain rfl := Option.some.inj h
      exact .expired call ret hcall hstage hid
    · rw [hfind] at h
      obtain rfl := Option.some.inj h
      exact .takeBack call ret m hcall hstage hfree hmem hid
  · cases h

theorem receive_effect {inflate : List UInt8 → Option (List UInt8)} {s t : Tr50Client κ}
    {topic data : List UInt8} {a : Action κ} (h : s.receive inflate topic data = some t) :
    Effect s a t := by
  unfold receive at h
  split at h
  · cases h
  · rename_i hdelivery
    split at h
    · rename_i seqId data' _
      split at h
      · rename_i hfree
        have hidle : s.sweep = .idle := by simpa [PendingFree] using hfree
        rcases findAndRemove_cases s.pending seqId with ⟨hfind, -⟩ | ⟨m, hmem, hid, hfind⟩
        · rw [hfind] at h
          obtain rfl := Option.some.inj h
          exact .same s a
        · rw [hfind] at h
          obtain rfl := Option.some.inj h
          exact .take m seqId data' (Option.not_isSome_iff_eq_none.mp hdelivery) hidle hmem hid
      · cases h
    all_goals
      obtain rfl := Option.some.inj h
      exact .same s a

theorem visit_effect {s t : Tr50Client κ} {a : Action κ} (h : s.visit = some t) :
    Effect s a t := by
  unfold visit at h
  split at h
  · rename_i now handle hscan
    have hnot : ¬ s.sweep.inCallback := by simp [hscan, Sweep.inCallback]
    obtain ⟨m, hfind, rfl⟩ := Option.map_eq_some_iff.mp h
    have hmem := List.mem_of_find?_eq_some hfind
    have hnext : ∀ x, (Sweep.scan now (tr50PendingNext s.pending.list m.handle)).next = some x →
        x ∈ s.pending.handles ∨ s.sweep.next = some x :=
      fun x hx => Or.inl (mem_handles_of_next hx)
    unfold visitMessage
    split
    · exact .quiet s.seqId s.stopped s.isStopping _ s.pending hnext (fun h => absurd h hnot) rfl rfl
    · exact .quiet s.seqId s.stopped s.isStopping _ _ hnext (fun h => absurd h hnot)
        (submissions_reschedule ..) (map_idOf_reschedule ..)
    · exact .expire m _ _ hnot (by split_ifs <;> rfl) hmem rfl
  · rename_i hscan
    obtain rfl := Option.some.inj h
    exact .quiet s.seqId s.stopped s.isStopping .idle s.pending (by rintro _ ⟨⟩)
      (by simp [hscan, Sweep.inCallback]) rfl rfl
  · cases h

/-- What the steps of calls and of the sweep leave alone. -/
structure Keeps (s t : Tr50Client κ) : Prop where
  seqId : t.seqId = s.seqId
  delivery : t.delivery = s.delivery

theorem apiStep_keeps {s t : Tr50Client κ} {call : ApiCall κ} {a : Action κ}
    (h : s.apiStep call call.stage a = some t) : Keeps s t := by
  unfold apiStep at h
  split at h
  · split_ifs at h <;> obtain rfl := Option.some.inj h <;> exact ⟨rfl, rfl⟩
  · unfold apiAdd at h
    split_ifs at h
    obtain rfl := Option.some.inj h
    exact ⟨rfl, rfl⟩
  · split_ifs at h <;> obtain rfl := Option.some.inj h <;> exact ⟨rfl, rfl⟩
  · split_ifs at h <;> obtain rfl := Option.some.inj h <;> exact ⟨rfl, rfl⟩
  · unfold apiRemove at h
    split_ifs at h
    split at h <;> obtain rfl := Option.some.inj h <;> exact ⟨rfl, rfl⟩
  · cases h

theorem visit_keeps {s t : Tr50Client κ} (h : s.visit = some t) : Keeps s t := by
  unfold visit at h
  split at h
  · obtain ⟨m, -, rfl⟩ := Option.map_eq_some_iff.mp h
    unfold visitMessage
    split <;> exact ⟨rfl, rfl⟩
  · obtain rfl := Option.some.inj h
    exact ⟨rfl, rfl⟩
  · cases h

/-- **Every step has one of these effects.** -/
theorem step_effect {inflate : List UInt8 → Option (List UInt8)} {s t : Tr50Client κ} {a : Action κ}
    (h : s.step inflate a = some t) : Effect s a t := by
  unfold step at h
  split at h
  · exact apiEnter_effect h
  · split_ifs at h
    obtain rfl := Option.some.inj h
    exact .counters _ s.stopped s.isStopping
  · split_ifs at h
    obtain rfl := Option.some.inj h
    exact .counters s.seqId _ _
  · exact receive_effect h
  · obtain ⟨d, hdelivery, rfl⟩ := Option.map_eq_some_iff.mp h
    exact .deliver d hdelivery
  · split_ifs at h with hidle
    obtain rfl := Option.some.inj h
    exact .quiet s.seqId s.stopped s.isStopping _ s.pending
      (fun x hx => Or.inl (mem_handles_of_head hx)) (by simp [hidle, Sweep.inCallback]) rfl rfl
  · exact visit_effect h
  · unfold callbackReturn at h
    split at h
    · rename_i hcallback
      split_ifs at h with hcall
      obtain rfl := Option.some.inj h
      exact .quiet s.seqId s.stopped s.isStopping _ s.pending
        (fun x hx => Or.inr (by rw [hcallback]; exact hx)) (fun _ h => absurd h hcall) rfl rfl
    · cases h
  · split at h
    · cases h
    · rename_i call hcall
      exact apiStep_effect hcall h

/-! ## Accounting -/

/-- What has been added waits, or has been taken out: once. -/
structure Accounted (s : Tr50Client κ) : Prop where
  nodup : (s.history.added.map Prod.fst).Nodup
  split : s.history.added.Perm (s.pending.submissions ++ s.history.unlinked.map Prod.fst)
  fresh : ∀ p ∈ s.history.added, p.1 < s.nextHandle

theorem accounted_init : Accounted (init : Tr50Client κ) :=
  ⟨List.nodup_nil, List.Perm.refl _, by simp [init]⟩

/-- The call in progress: whether its message has been added, and why it goes where it goes. -/
structure CallPlaced (s : Tr50Client κ) (call : ApiCall κ) : Prop where
  fresh : call.message.handle < s.nextHandle
  early : call.stage = .payload ∨ call.stage = .add →
    ∀ p ∈ s.history.added, p.1 ≠ call.message.handle
  late : call.stage ≠ .payload → call.stage ≠ .add → call.message.submission ∈ s.history.added
  compress : call.stage = .compress → call.message.messageType = .raw
  remove : ∀ ret, call.stage = .remove ret → ret ≠ 0

/-- A callback is run by whoever has taken its request out. -/
structure Told (s : Tr50Client κ) : Prop where
  taken : ∀ d, s.delivery = some d → (d.request.submission, .reply) ∈ s.history.unlinked
  told : ∀ i ∈ s.history.callbacks,
    i.status = 0 ∧ ((i.handle, some i.callback), .reply) ∈ s.history.unlinked
    ∨ i.status = errTr50ReqTimeout ∧ ((i.handle, some i.callback), .sweep) ∈ s.history.unlinked

theorem told_init : Told (init : Tr50Client κ) := ⟨by simp [init], by simp [init]⟩

/-- The callbacks of a reply are those the request asks for, or none. -/
theorem tr50HandleReply_mem {d : Delivery κ} {i : Invocation κ} (h : i ∈ tr50HandleReply d) :
    i.status = 0 ∧ d.request.submission = (i.handle, some i.callback) := by
  have hmap : ∀ answer : Answer, i ∈ d.request.callback.toList.map (fun k =>
      (⟨d.request.handle, k, 0, some answer⟩ : Invocation κ)) →
      i.status = 0 ∧ d.request.submission = (i.handle, some i.callback) := by
    intro answer hi
    obtain ⟨k, hk, rfl⟩ := List.mem_map.mp hi
    exact ⟨rfl, by simpa [Tr50Message.submission] using hk⟩
  unfold tr50HandleReply at h
  split at h
  · exact hmap _ h
  · split at h
    · exact absurd h List.not_mem_nil
    · split_ifs at h
      · exact hmap _ h
      · exact absurd h List.not_mem_nil

namespace Accounted

variable {s t : Tr50Client κ}

/-- Waiting and taken, every handle is there once. -/
theorem nodup_handles (hs : Accounted s) :
    (s.pending.handles ++ s.history.unlinked.map (·.1.1)).Nodup := by
  have := (hs.split.map Prod.fst).nodup_iff.mp hs.nodup
  rwa [List.map_append, Tr50Pending.map_fst_submissions, List.map_map] at this

theorem pending_nodup (hs : Accounted s) : s.pending.handles.Nodup :=
  (List.nodup_append.mp hs.nodup_handles).1

/-- Taking a message out moves it from the one to the other. -/
theorem split_take (hs : Accounted s) {message : Tr50Message κ} (hmem : message ∈ s.pending.list)
    (by' : Party) : s.history.added.Perm
      ((tr50PendingLinklistRemove s.pending message).submissions
        ++ ((message.submission, by') :: s.history.unlinked).map Prod.fst) := by
  refine hs.split.trans (((perm_remove hs.pending_nodup hmem).append_right _).trans ?_)
  rw [List.map_cons]
  exact List.perm_middle.symm

/-- **Every step keeps the account.** -/
theorem step (hs : Accounted s) (hcalls : ∀ call, s.call = some call → CallPlaced s call)
    {a : Action κ} (h : Effect s a t) : Accounted t := by
  cases h with
  | refuse message ret hcall hhandle hret =>
    exact ⟨hs.nodup, hs.split, fun p hp => (hs.fresh p hp).trans (Nat.lt_succ_self _)⟩
  | enter call hcall hhandle hid hstage hsweep =>
    exact ⟨hs.nodup, hs.split, fun p hp => (hs.fresh p hp).trans (Nat.lt_succ_self _)⟩
  | leave call ret hcall hret => exact ⟨hs.nodup, hs.split, hs.fresh⟩
  | goOn call stage hcall hstage => exact ⟨hs.nodup, hs.split, hs.fresh⟩
  | add call now stage hcall hadd hstage =>
    have hcall := hcalls call hcall
    refine ⟨?_, ?_, ?_⟩
    · simp only [goOn, List.map_cons, List.nodup_cons]
      refine ⟨fun hmem => ?_, hs.nodup⟩
      obtain ⟨p, hp, heq⟩ := List.mem_map.mp hmem
      exact hcall.early (Or.inr hadd) p hp heq
    · simp only [goOn, submissions_add, List.append_assoc, List.singleton_append]
      exact (hs.split.cons _).trans List.perm_middle.symm
    · intro p hp
      rcases List.mem_cons.mp hp with rfl | hp
      · exact hcall.fresh
      · exact hs.fresh p hp
  | takeBack call ret message hcall hstage hfree hmem hid =>
    exact ⟨hs.nodup, hs.split_take hmem .call, hs.fresh⟩
  | expired call ret hcall hstage hid => exact ⟨hs.nodup, hs.split, hs.fresh⟩
  | take message seqId data hdelivery hidle hmem hid =>
    exact ⟨hs.nodup, hs.split_take hmem .reply, hs.fresh⟩
  | deliver d hdelivery => exact ⟨hs.nodup, hs.split, hs.fresh⟩
  | expire message sweep pending hscan hnext hmem hpending =>
    have hsubmissions : pending.submissions
        = (tr50PendingLinklistRemove s.pending message).submissions := by
      simp only [Tr50Pending.submissions, hpending]
    refine ⟨hs.nodup, ?_, hs.fresh⟩
    simp only [hsubmissions]
    exact hs.split_take hmem .sweep
  | quiet seqId stopped isStopping sweep pending hnext hkeep hpending hids =>
    refine ⟨hs.nodup, ?_, hs.fresh⟩
    simpa only [hpending] using hs.split

end Accounted

/-- …and knows where its call is. -/
theorem callPlaced_step {s t : Tr50Client κ} {a : Action κ} (hs : Accounted s)
    (hcalls : ∀ call, s.call = some call → CallPlaced s call) (h : Effect s a t) :
    ∀ call, t.call = some call → CallPlaced t call := by
  cases h with
  | refuse message ret hcall hhandle hret => rintro _ ⟨⟩
  | enter call hcall hhandle hid hstage hsweep =>
    rintro _ ⟨⟩
    refine ⟨hhandle.trans_lt (Nat.lt_succ_self _), fun _ p hp => ?_, fun h1 h2 => ?_, fun h => ?_,
      fun ret h => ?_⟩
    · exact ((hs.fresh p hp).trans_eq hhandle.symm).ne
    · exact absurd hstage (by simp [h1, h2])
    · exact absurd hstage (by simp [h])
    · exact absurd hstage (by simp [h])
  | leave call ret hcall hret => rintro _ ⟨⟩
  | goOn call stage hcall hstage =>
    rintro _ ⟨⟩
    have hs := hcalls call hcall
    rcases hstage with ⟨h, rfl⟩ | ⟨h, rfl⟩ | ⟨h, ret, hret, rfl⟩
    · exact ⟨hs.fresh, fun _ => hs.early (Or.inl h), by simp, by simp, by simp⟩
    · exact ⟨hs.fresh, by simp, fun _ _ => hs.late (by simp [h]) (by simp [h]), by simp, by simp⟩
    · exact ⟨hs.fresh, by simp, fun _ _ => hs.late (by simp [h]) (by simp [h]), by simp,
        by simpa using hret⟩
  | add call now stage hcall hadd hstage =>
    rintro _ ⟨⟩
    have hs := hcalls call hcall
    refine ⟨hs.fresh, fun h => ?_, fun _ _ => List.mem_cons_self, fun h => ?_, fun ret h => ?_⟩
    · rcases hstage with rfl | ⟨rfl, -⟩ <;> exact absurd h (by simp)
    · rcases hstage with rfl | ⟨-, htype⟩
      · exact absurd h (by simp)
      · exact htype
    · rcases hstage with rfl | ⟨rfl, -⟩ <;> exact absurd h (by simp)
  | takeBack call ret message hcall hstage hfree hmem hid => rintro _ ⟨⟩
  | expired call ret hcall hstage hid => rintro _ ⟨⟩
  | take message seqId data hdelivery hidle hmem hid =>
    intro call hcall
    have hs := hcalls call hcall
    exact ⟨hs.fresh, hs.early, hs.late, hs.compress, hs.remove⟩
  | deliver d hdelivery =>
    intro call hcall
    have hs := hcalls call hcall
    exact ⟨hs.fresh, hs.early, hs.late, hs.compress, hs.remove⟩
  | expire message sweep pending hscan hnext hmem hpending =>
    intro call hcall
    have hs := hcalls call hcall
    exact ⟨hs.fresh, hs.early, hs.late, hs.compress, hs.remove⟩
  | quiet seqId stopped isStopping sweep pending hnext hkeep hpending hids =>
    intro call hcall
    have hs := hcalls call hcall
    exact ⟨hs.fresh, hs.early, hs.late, hs.compress, hs.remove⟩

/-- …and who has been told. -/
theorem told_step {s t : Tr50Client κ} {a : Action κ} (hs : Told s) (h : Effect s a t) :
    Told t := by
  have hmono : ∀ p : (ℕ × Option κ) × Party,
      (∀ d, s.delivery = some d → (d.request.submission, .reply) ∈ p :: s.history.unlinked)
      ∧ ∀ i ∈ s.history.callbacks,
        i.status = 0 ∧ ((i.handle, some i.callback), .reply) ∈ p :: s.history.unlinked
        ∨ i.status = errTr50ReqTimeout
          ∧ ((i.handle, some i.callback), .sweep) ∈ p :: s.history.unlinked :=
    fun p => ⟨fun d hd => List.mem_cons_of_mem _ (hs.taken d hd), fun i hi =>
      (hs.told i hi).imp (.imp_right (List.mem_cons_of_mem _))
        (.imp_right (List.mem_cons_of_mem _))⟩
  cases h with
  | takeBack call ret message hcall hstage hfree hmem hid => exact ⟨(hmono _).1, (hmono _).2⟩
  | take message seqId data hdelivery hidle hmem hid =>
    refine ⟨?_, (hmono _).2⟩
    rintro _ ⟨⟩
    exact List.mem_cons_self
  | deliver d hdelivery =>
    refine ⟨by rintro _ ⟨⟩, fun i hi => ?_⟩
    rcases List.mem_append.mp hi with hi | hi
    · obtain ⟨hstatus, hsubmission⟩ := tr50HandleReply_mem hi
      exact Or.inl ⟨hstatus, hsubmission ▸ hs.taken d hdelivery⟩
    · exact hs.told i hi
  | expire message sweep pending hscan hnext hmem hpending =>
    refine ⟨(hmono _).1, fun i hi => ?_⟩
    rcases List.mem_append.mp hi with hi | hi
    · obtain ⟨k, hk, rfl⟩ := List.mem_map.mp hi
      have hk : message.callback = some k := by simpa using hk
      exact Or.inr ⟨rfl, by simp [Tr50Message.submission, hk]⟩
    · exact (hmono _).2 i hi
  | _ => exact ⟨hs.taken, hs.told⟩

/-- The three together, over a run. -/
structure Inv (s : Tr50Client κ) : Prop where
  accounted : Accounted s
  callPlaced : ∀ call, s.call = some call → CallPlaced s call
  told : Told s

theorem inv_init : Inv (init : Tr50Client κ) := ⟨accounted_init, by rintro _ ⟨⟩, told_init⟩

theorem Inv.step {s t : Tr50Client κ} {a : Action κ} (hs : Inv s) (h : Effect s a t) : Inv t :=
  ⟨hs.accounted.step hs.callPlaced h, callPlaced_step hs.accounted hs.callPlaced h,
    told_step hs.told h⟩

/-! ## Callbacks -/

/-- Every request whose call has returned was accepted. -/
def CallsSucceed (s : Tr50Client κ) : Prop :=
  ∀ r ∈ s.history.returned, r.handle ∈ s.history.added.map Prod.fst → r.ret = 0

/-- The text is JSON and a reply. -/
def IsReply (data : List UInt8) : Prop :=
  ∃ reply, tr50MessageFromString data = .ok reply ∧ reply.isReply

instance (data : List UInt8) : Decidable (IsReply data) :=
  decidable_of_iff ((tr50MessageFromString data).toOption.any (·.isReply)) (by
    unfold IsReply
    cases tr50MessageFromString data <;> simp [Except.toOption])

/-- The reply at hand, where it is for a message with a callback, is one. -/
def WellAnswered (s : Tr50Client κ) : Action κ → Prop
  | .deliver => ∀ d, s.delivery = some d → d.request.messageType = .obj →
      d.request.callback.isSome → IsReply d.data
  | _ => True

/-- A request has its callback, if it was given one, and only once; it has it from the reply, or
from the sweep with a timeout. -/
def Settled (s : Tr50Client κ) (p : ℕ × Option κ) : Prop :=
  (s.history.callbacks.filter (·.handle = p.1)).map (·.callback) = p.2.toList
  ∧ ∀ i ∈ s.history.callbacks, i.handle = p.1 →
    i.status = 0 ∧ (p, .reply) ∈ s.history.unlinked
    ∨ i.status = errTr50ReqTimeout ∧ (p, .sweep) ∈ s.history.unlinked

/-- Every request that has left the list is settled, but for the one whose callback the receive
thread is about to run. -/
def RequestsSettled (s : Tr50Client κ) : Prop :=
  ∀ p ∈ s.history.added, p.1 ∉ s.pending.handles →
    (∀ d, s.delivery = some d → d.request.handle ≠ p.1) → s.Settled p

/-- The callback a request asks for. -/
def owed (p : ℕ × Option κ) : List (ℕ × κ) := p.2.toList.map fun k => (p.1, k)

/-- The callback the receive thread is about to run. -/
def inHand (s : Tr50Client κ) : List (ℕ × κ) :=
  s.delivery.toList.flatMap fun d => owed d.request.submission

/-- The callback a request has had. -/
def paid (i : Invocation κ) : ℕ × κ := (i.handle, i.callback)

/-- What was owed for the requests taken out has been paid, or is in hand. -/
def Paid (s : Tr50Client κ) : Prop :=
  (s.history.callbacks.map paid ++ s.inHand).Perm
    (s.history.unlinked.flatMap fun p => owed p.1)

/-- A well answered reply has the callback that is owed. -/
theorem map_paid_handleReply {d : Delivery κ} (h : d.request.messageType = .obj →
    d.request.callback.isSome → IsReply d.data) :
    (tr50HandleReply d).map paid = owed d.request.submission := by
  unfold tr50HandleReply
  split
  · simp [owed, paid, Tr50Message.submission]
  · rename_i htype
    cases hcallback : d.request.callback with
    | none =>
      split
      · simp [owed, Tr50Message.submission, hcallback]
      · split_ifs <;> simp [owed, Tr50Message.submission, hcallback]
    | some k =>
      obtain ⟨reply, hreply, his⟩ := h htype (by simp [hcallback])
      rw [hreply]
      simp [his, owed, paid, Tr50Message.submission, hcallback]

/-- What has happened stays. -/
theorem Effect.callsSucceed {s t : Tr50Client κ} {a : Action κ} (h : Effect s a t)
    (ht : CallsSucceed t) : CallsSucceed s := by
  intro r hr hadded
  cases h <;> first
    | exact ht r hr hadded
    | exact ht r (List.mem_cons_of_mem _ hr) hadded
    | exact ht r hr (List.mem_cons_of_mem _ hadded)

theorem Effect.unlinked_mono {s t : Tr50Client κ} {a : Action κ} (h : Effect s a t) :
    s.history.unlinked ⊆ t.history.unlinked := by
  cases h <;> first
    | exact List.Subset.refl _
    | exact List.subset_cons_self _ _

/-- **A step keeps the debts paid** when no call takes its request back and a reply is one. -/
theorem Paid.step {s t : Tr50Client κ} {a : Action κ} (hp : Paid s) (hs : Inv s)
    (h : Effect s a t) (hgood : WellAnswered s a) (ht : CallsSucceed t) : Paid t := by
  cases h with
  | takeBack call ret message hcall hstage hfree hmem hid =>
    -- the call would return `ret ≠ 0`
    have hcall := hs.callPlaced call hcall
    have hadded := hcall.late (by simp [hstage]) (by simp [hstage])
    exact absurd (ht ⟨call.message.handle, call.message.messageType, ret⟩ List.mem_cons_self
      (List.mem_map_of_mem hadded)) (hcall.remove ret hstage)
  | take message seqId data hdelivery hidle hmem hid =>
    simp only [Paid, inHand, hdelivery] at hp ⊢
    simpa using (hp.append_right (owed message.submission)).trans List.perm_append_comm
  | deliver d hdelivery =>
    simp only [Paid, inHand, hdelivery] at hp ⊢
    rw [List.map_append, map_paid_handleReply (hgood d hdelivery)]
    simpa using List.perm_append_comm.trans hp
  | expire message sweep pending hscan hnext hmem hpending =>
    simp only [Paid, List.flatMap_cons, List.map_append, List.append_assoc]
    refine List.Perm.append (List.Perm.of_eq ?_) hp
    simp [owed, paid, Tr50Message.submission]
  | _ => exact hp

/-- Among requests that occur once, a handle owes what its request does. -/
theorem filter_owed {l : List ((ℕ × Option κ) × Party)} (hnodup : (l.map (·.1.1)).Nodup)
    {q : (ℕ × Option κ) × Party} (hq : q ∈ l) :
    (l.flatMap fun p => owed p.1).filter (·.1 = q.1.1) = owed q.1 := by
  have hsame : ∀ p : ℕ × Option κ, (owed p).filter (·.1 = p.1) = owed p := fun p => by
    simp [owed, List.filter_map, Function.comp_def]
  have hother : ∀ p : ℕ × Option κ, p.1 ≠ q.1.1 → (owed p).filter (·.1 = q.1.1) = [] :=
    fun p hp => by simp [owed, List.filter_map, Function.comp_def, hp]
  induction l with
  | nil => exact absurd hq List.not_mem_nil
  | cons p l ih =>
    rw [List.map_cons, List.nodup_cons] at hnodup
    rw [List.flatMap_cons, List.filter_append]
    rcases List.mem_cons.mp hq with rfl | hq
    · rw [hsame, List.filter_eq_nil_iff.mpr, List.append_nil]
      intro k hk
      obtain ⟨p, hp, hk⟩ := List.mem_flatMap.mp hk
      obtain ⟨c, -, rfl⟩ := List.mem_map.mp hk
      have hne : p.1.1 ≠ q.1.1 := fun h => hnodup.1 (h ▸ List.mem_map_of_mem (f := (·.1.1)) hp)
      simpa using hne
    · have hp : p.1.1 ≠ q.1.1 := fun h => hnodup.1 (h ▸ List.mem_map_of_mem (f := (·.1.1)) hq)
      rw [hother _ hp, List.nil_append, ih hnodup.2 hq]

/-- A request that has left the list and is not in hand has been paid its one callback. -/
theorem Paid.settled {s : Tr50Client κ} (hp : Paid s) (hs : Inv s) : RequestsSettled s := by
  intro p hadded hleft hhand
  have hsplit := hs.accounted.split
  have hunlinked : p ∈ s.history.unlinked.map Prod.fst := by
    refine (List.mem_append.mp (hsplit.mem_iff.mp hadded)).resolve_left fun hpending => hleft ?_
    rw [← Tr50Pending.map_fst_submissions]
    exact List.mem_map_of_mem hpending
  obtain ⟨q, hq, rfl⟩ := List.mem_map.mp hunlinked
  have hempty : s.inHand.filter (·.1 = q.1.1) = [] := by
    refine List.filter_eq_nil_iff.mpr fun k hk => ?_
    obtain ⟨d, hd, hk⟩ := List.mem_flatMap.mp hk
    obtain ⟨c, -, rfl⟩ := List.mem_map.mp hk
    exact fun h => hhand d (by simpa using hd) (of_decide_eq_true h)
  have hperm := hp.filter (·.1 = q.1.1)
  rw [List.filter_append, hempty, List.append_nil,
    filter_owed (List.nodup_append.mp hs.accounted.nodup_handles).2.1 hq] at hperm
  have heq : (s.history.callbacks.map paid).filter (·.1 = q.1.1) = owed q.1 := by
    cases hcb : q.1.2 with
    | none =>
      rw [owed, hcb] at hperm ⊢
      exact hperm.eq_nil
    | some k =>
      rw [owed, hcb] at hperm ⊢
      exact List.perm_singleton.mp hperm
  refine ⟨?_, fun i hi hhandle => ?_⟩
  · have := congrArg (List.map Prod.snd) heq
    simp only [owed, List.filter_map, List.map_map, Function.comp_def, paid, List.map_id'] at this
    exact this
  · have hkey : ∀ party, ((i.handle, some i.callback), party) ∈ s.history.unlinked →
        (i.handle, some i.callback) = q.1 := fun party hparty =>
      List.inj_on_of_nodup_map hs.accounted.nodup (hsplit.mem_iff.mpr
        (List.mem_append_right _ (List.mem_map_of_mem (f := Prod.fst) hparty))) hadded hhandle
    refine (hs.told.told i hi).imp (fun h => ⟨h.1, ?_⟩) fun h => ⟨h.1, ?_⟩
    · exact hkey _ h.2 ▸ h.2
    · exact hkey _ h.2 ▸ h.2

/-- **In a run in which every reply taken for a message with a callback is JSON and a reply, a
request that has left the list has had its callback, once.** -/
theorem requestsSettled (inflate : List UInt8 → Option (List UInt8)) {s : Tr50Client κ}
    (h : Reach (step inflate) WellAnswered init s) (hok : CallsSucceed s) : RequestsSettled s := by
  have hboth : Inv s ∧ (CallsSucceed s → Paid s) := by
    refine h.invariant (I := fun s => Inv s ∧ (CallsSucceed s → Paid s))
      ⟨inv_init, fun _ => List.Perm.refl _⟩ fun s a t hs hgood hstep => ?_
    have heffect := step_effect hstep
    exact ⟨hs.1.step heffect, fun ht =>
      (hs.2 (heffect.callsSucceed ht)).step hs.1 heffect hgood ht⟩
  exact (hboth.2 hok).settled hboth.1

/-- A request with a callback, sent, and the reply to it. -/
def answered (data : List UInt8) : List (Action Unit) :=
  [.api false .obj 30000 (some ()), .payload 0, .add 0, .publish 0,
    .receive (cstring "reply/1".toList) data, .deliver]

/-- …as a request is that expires. -/
theorem requestsSettled_expired : ∃ s : Tr50Client Unit,
    Reach (step fun _ => none) WellAnswered init s ∧ CallsSucceed s ∧ s.pending.handles = []
    ∧ s.history.added = [(0, some ())] ∧ RequestsSettled s := by
  have heval : (([.api false .obj 30000 (some ()), .payload 0, .add 0, .publish 0, .sweep 30000,
      .visit, .callbackReturn] : List (Action Unit)).foldlM (step fun _ => none) init).map
      (fun s => (s.history.added, s.pending.handles, s.history.returned))
      = some ([(0, some ())], [], [⟨0, .obj, 0⟩]) := by decide +kernel
  obtain ⟨s, hs, hview⟩ := Option.map_eq_some_iff.mp heval
  obtain ⟨hadded, hpending, hreturned⟩ := by simpa only [Prod.mk.injEq] using hview
  have hreach : Reach (step fun _ => none) WellAnswered init s :=
    Reach.of_foldlM _ (by simp [WellAnswered]) hs
  have hok : CallsSucceed s := by simp [CallsSucceed, hreturned]
  exact ⟨s, hreach, hok, hpending, hadded, requestsSettled _ hreach hok⟩

/-- **A reply that is not JSON takes its request out and calls nobody.** -/
theorem not_requestsSettled_text : ¬ ∀ s : Tr50Client Unit,
    Reach (step fun _ => none) (fun _ _ => True) init s → CallsSucceed s → RequestsSettled s := by
  intro h
  have heval : ((answered (cstring ['x'])).foldlM (step fun _ => none) init).map
      (fun s => (s.history.added, s.pending.handles ++ s.history.callbacks.map (·.handle),
        s.delivery.isSome, s.history.returned))
      = some ([(0, some ())], [], false, [⟨0, .obj, 0⟩]) := by decide +kernel
  obtain ⟨s, hs, hview⟩ := Option.map_eq_some_iff.mp heval
  obtain ⟨hadded, hnone, hdelivery, hreturned⟩ := by simpa only [Prod.mk.injEq] using hview
  obtain ⟨hpending, hcallbacks⟩ := List.append_eq_nil_iff.mp hnone
  have hsettled := h s (Reach.of_foldlM _ (by simp) hs) (by simp [CallsSucceed, hreturned])
    (0, some ()) (by simp [hadded]) (by simp [hpending]) (by simp_all)
  have hnone : s.history.callbacks = [] := List.map_eq_nil_iff.mp hcallbacks
  simpa [hnone] using hsettled.1

end Tr50Client

end Tr50
