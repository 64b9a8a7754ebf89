import Tr50.Api.Sync

/-!
# Api/Waits — what a synchronous caller waits for

A caller in `_tr50_event_wait` whose callback has not run has its request in the list, or in the
hands of the receive thread — or it was taken out by what is no reply, and then the caller waits
forever (`syncCall_waits`).  A call that a callback of the sweep makes holds up the thread that the
request would expire in, and with the lock of the list the one that could bring the reply
(`syncCall_inSweep`); one that is made in the receive thread holds up the reply, and times out
(`syncCall_inReceive`).
-/

namespace Tr50

open Machinery

variable {κ : Type}

namespace Tr50Client

variable {s t : Tr50Client κ} {a : Action κ}

/-! ## Lost requests -/

/-- What expires with a callback has it. -/
def SweepTold (s : Tr50Client κ) : Prop :=
  ∀ p ∈ s.history.unlinked, p.2 = .sweep → ∀ k, p.1.2 = some k →
    ∃ i ∈ s.history.callbacks, i.handle = p.1.1 ∧ i.callback = k

theorem SweepTold.step (hs : SweepTold s) (h : Effect s a t) : SweepTold t := by
  have hmore : ∀ {new : List (Invocation κ)} {p : (ℕ × Option κ) × Party} {k : κ},
      p ∈ s.history.unlinked → p.2 = .sweep → p.1.2 = some k →
        ∃ i ∈ new ++ s.history.callbacks, i.handle = p.1.1 ∧ i.callback = k := by
    intro new p k hp hsweep hk
    obtain ⟨i, hi, hboth⟩ := hs p hp hsweep k hk
    exact ⟨i, List.mem_append_right _ hi, hboth⟩
  intro p hp hsweep k hk
  cases h with
  | takeBack call ret message hcall hstage hfree hmem hid =>
    rcases List.mem_cons.mp hp with rfl | hp
    · exact absurd hsweep nofun
    · exact hs p hp hsweep k hk
  | take message seqId data hdelivery hidle hmem hid =>
    rcases List.mem_cons.mp hp with rfl | hp
    · exact absurd hsweep nofun
    · exact hs p hp hsweep k hk
  | deliver d hdelivery => exact hmore hp hsweep hk
  | expire message sweep pending hscan hnext hmem hpending =>
    rcases List.mem_cons.mp hp with rfl | hp
    · have hk : message.callback = some k := hk
      refine ⟨⟨message.handle, k, errTr50ReqTimeout, none⟩, List.mem_append_left _ ?_, rfl, rfl⟩
      rw [hk]
      exact List.mem_singleton_self _
    · exact hmore hp hsweep hk
  | _ => exact hs p hp hsweep k hk

/-- A request that a reply has taken out, with its callback neither run nor to be run. -/
structure Lost (s : Tr50Client κ) (handle : ℕ) : Prop where
  taken : ∃ p ∈ s.history.unlinked, p.1.1 = handle ∧ p.2 = .reply
  notInHand : ∀ d, s.delivery = some d → d.request.handle ≠ handle
  notCalled : ∀ i ∈ s.history.callbacks, i.handle ≠ handle

/-- **What is lost stays lost.** -/
theorem Lost.step {handle : ℕ} (hs : Lost s handle) (hinv : Inv s) (h : Effect s a t) :
    Lost t handle := by
  obtain ⟨p, hp, hhandle, hreply⟩ := hs.taken
  have hout : ∀ m ∈ s.pending.list, m.handle ≠ handle := fun m hm heq =>
    List.disjoint_of_nodup_append hinv.accounted.nodup_handles (List.mem_map_of_mem hm)
      (heq.trans hhandle.symm ▸ List.mem_map_of_mem (f := (·.1.1)) hp)
  have htaken : ∃ p ∈ t.history.unlinked, p.1.1 = handle ∧ p.2 = .reply :=
    ⟨p, h.unlinked_mono hp, hhandle, hreply⟩
  cases h with
  | take message seqId data hdelivery hidle hmem hid =>
    refine ⟨htaken, ?_, hs.notCalled⟩
    rintro _ ⟨⟩
    exact hout message hmem
  | deliver d hdelivery =>
    refine ⟨htaken, by rintro _ ⟨⟩, fun i hi => ?_⟩
    rcases List.mem_append.mp hi with hi | hi
    · have hd := hs.notInHand d hdelivery
      rwa [(Prod.mk.inj (tr50HandleReply_mem hi).2).1] at hd
    · exact hs.notCalled i hi
  | expire message sweep pending hscan hnext hmem hpending =>
    refine ⟨htaken, hs.notInHand, fun i hi => ?_⟩
    rcases List.mem_append.mp hi with hi | hi
    · obtain ⟨k, -, rfl⟩ := List.mem_map.mp hi
      exact hout message hmem
    · exact hs.notCalled i hi
  | _ => exact ⟨htaken, hs.notInHand, hs.notCalled⟩

/-! ## Threads -/

/-- The sweep is moved by its own thread alone. -/
theorem sweep_step {inflate : List UInt8 → Option (List UInt8)} (h : s.step inflate a = some t)
    (ha : a.runner ≠ some .sweep) : t.sweep = s.sweep := by
  have hcall : ∀ {call : ApiCall κ}, s.apiStep call call.stage a = some t → t.sweep = s.sweep := by
    intro call h
    unfold apiStep at h
    split at h
    · split_ifs at h <;> obtain rfl := Option.some.inj h <;> rfl
    · unfold apiAdd at h
      split_ifs at h
      obtain rfl := Option.some.inj h
      rfl
    · split_ifs at h <;> obtain rfl := Option.some.inj h <;> rfl
    · split_ifs at h <;> obtain rfl := Option.some.inj h <;> rfl
    · unfold apiRemove at h
      split_ifs at h
      split at h <;> obtain rfl := Option.some.inj h <;> rfl
    · cases h
  cases a with
  | api inSweep messageType timeout callback =>
    simp only [Tr50Client.step, apiEnter] at h
    split_ifs at h <;> obtain rfl := Option.some.inj h <;> rfl
  | msgIdNext =>
    simp only [Tr50Client.step] at h
    split_ifs at h
    obtain rfl := Option.some.inj h
    rfl
  | lifecycle stopped isStopping =>
    simp only [Tr50Client.step] at h
    split_ifs at h
    obtain rfl := Option.some.inj h
    rfl
  | receive topic data =>
    simp only [Tr50Client.step, receive] at h
    split at h
    · cases h
    · split at h
      · split_ifs at h
        split at h <;> obtain rfl := Option.some.inj h <;> rfl
      all_goals
        obtain rfl := Option.some.inj h
        rfl
  | deliver =>
    obtain ⟨d, -, rfl⟩ := Option.map_eq_some_iff.mp h
    rfl
  | sweep now => exact absurd rfl ha
  | visit => exact absurd rfl ha
  | callbackReturn => exact absurd rfl ha
  | _ =>
    simp only [Tr50Client.step] at h
    split at h
    · cases h
    · exact hcall h

/-- …and so is what the receive thread has in its hands. -/
theorem delivery_step {inflate : List UInt8 → Option (List UInt8)} (h : s.step inflate a = some t)
    (ha : a.runner ≠ some .receive) : t.delivery = s.delivery := by
  cases a with
  | api inSweep messageType timeout callback =>
    simp only [Tr50Client.step, apiEnter] at h
    split_ifs at h <;> obtain rfl := Option.some.inj h <;> rfl
  | msgIdNext =>
    simp only [Tr50Client.step] at h
    split_ifs at h
    obtain rfl := Option.some.inj h
    rfl
  | lifecycle stopped isStopping =>
    simp only [Tr50Client.step] at h
    split_ifs at h
    obtain rfl := Option.some.inj h
    rfl
  | receive topic data => exact absurd rfl ha
  | deliver => exact absurd rfl ha
  | sweep now =>
    obtain ⟨-, h⟩ := Option.ite_none_right_eq_some.mp h
    obtain rfl := Option.some.inj h
    rfl
  | visit => exact (visit_keeps h).delivery
  | callbackReturn =>
    simp only [Tr50Client.step, callbackReturn] at h
    split at h
    · split_ifs at h
      obtain rfl := Option.some.inj h
      rfl
    · cases h
  | _ =>
    simp only [Tr50Client.step] at h
    split at h
    · cases h
    · exact (apiStep_keeps h).delivery

/-- Nobody else takes a request out for a reply. -/
theorem unlinked_step {inflate : List UInt8 → Option (List UInt8)} (h : s.step inflate a = some t)
    (ha : a.runner ≠ some .receive) :
    ∀ p ∈ t.history.unlinked, p.2 = .reply → p ∈ s.history.unlinked := by
  have hdelivery := delivery_step h ha
  intro p hp hreply
  have heffect := step_effect h
  cases heffect with
  | takeBack call ret message hcall hstage hfree hmem hid =>
    exact (List.mem_cons.mp hp).resolve_left fun heq => by rw [heq] at hreply; exact nomatch hreply
  | take message seqId data hnone hidle hmem hid => exact absurd (hdelivery.trans hnone) nofun
  | expire message sweep pending hscan hnext hmem hpending =>
    exact (List.mem_cons.mp hp).resolve_left fun heq => by rw [heq] at hreply; exact nomatch hreply
  | _ => exact hp

/-- While a callback of the sweep runs, no reply is taken and nothing expires. -/
theorem inCallback_step (hs : s.sweep.inCallback) (h : Effect s a t) :
    (t.delivery = s.delivery ∨ t.delivery = none)
    ∧ (∀ i ∈ t.history.callbacks, i ∈ s.history.callbacks
      ∨ ∃ d, s.delivery = some d ∧ i.handle = d.request.handle)
    ∧ ∀ p ∈ t.history.unlinked, p ∈ s.history.unlinked ∨ p.2 = .call := by
  cases h with
  | takeBack call ret message hcall hstage hfree hmem hid =>
    refine ⟨Or.inl rfl, fun _ => Or.inl, fun p hp => ?_⟩
    rcases List.mem_cons.mp hp with rfl | hp
    · exact Or.inr rfl
    · exact Or.inl hp
  | take message seqId data hdelivery hidle hmem hid =>
    rw [hidle] at hs
    exact Bool.noConfusion hs
  | deliver d hdelivery =>
    refine ⟨Or.inr rfl, fun i hi => ?_, fun _ => Or.inl⟩
    exact (List.mem_append.mp hi).symm.imp_right fun hi =>
      ⟨d, hdelivery, (Prod.mk.inj (tr50HandleReply_mem hi).2).1.symm⟩
  | expire message sweep pending hscan hnext hmem hpending => exact absurd hs hscan
  | _ => exact ⟨Or.inl rfl, fun _ => Or.inl, fun _ => Or.inl⟩

end Tr50Client

/-! ## Objects -/

namespace SyncSystem

variable {s t : SyncSystem κ} {inflate : List UInt8 → Option (List UInt8)} {a : SyncAction κ}
  {obj : ℕ} {o : SyncObj}

theorem hear_within (s : SyncSystem κ) (runner : Runner) (i : Invocation (SyncCallback κ)) :
    (s.hear runner i).within = s.within ∧ (s.hear runner i).client = s.client := by
  unfold hear
  split
  · exact ⟨rfl, rfl⟩
  · split <;> exact ⟨rfl, rfl⟩

/-- A callback leaves an object to its caller… -/
theorem hear_keeps (s : SyncSystem κ) (runner : Runner) (i : Invocation (SyncCallback κ))
    (obj : ℕ) :
    ((s.hear runner i).objs obj).map (fun o => (o.phase, o.runner))
      = (s.objs obj).map fun o => (o.phase, o.runner) := by
  unfold hear
  split
  · rfl
  · split
    · rfl
    · rename_i o ho
      obtain ⟨ho, -⟩ := Option.filter_eq_some_iff.mp ho
      rcases eq_or_ne obj i.handle with rfl | hne
      · have hself := Function.update_self i.handle (some { o with
          status := i.status
          reply := heardReply i
          evt := o.evt.goTo o.evt.mux .callback .signal }) s.objs
        rw [ho]
        exact (congrArg (Option.map _) hself).trans rfl
      · exact congrArg (Option.map _) (Function.update_of_ne hne ..)

/-- …and so does the client. -/
theorem clientStep_keeps {a : Action (SyncCallback κ)} (h : s.clientStep inflate a = some t) :
    t.within = s.within ∧ s.client.step inflate a = some t.client
      ∧ ∀ obj, (t.objs obj).map (fun o => (o.phase, o.runner))
        = (s.objs obj).map fun o => (o.phase, o.runner) := by
  obtain ⟨client, hstep, rfl⟩ := Option.map_eq_some_iff.mp h
  have hfold : ∀ (new : List (Invocation (SyncCallback κ))) (s : SyncSystem κ),
      (new.foldl (hear · (a.runner.getD .receive)) s).within = s.within
      ∧ (new.foldl (hear · (a.runner.getD .receive)) s).client = s.client
      ∧ ∀ obj, ((new.foldl (hear · (a.runner.getD .receive)) s).objs obj).map
          (fun o => (o.phase, o.runner)) = (s.objs obj).map fun o => (o.phase, o.runner) := by
    intro new
    induction new with
    | nil => exact fun s => ⟨rfl, rfl, fun _ => rfl⟩
    | cons i new ih =>
      intro s
      obtain ⟨h1, h2, h3⟩ := ih (s.hear (a.runner.getD .receive) i)
      obtain ⟨h1', h2'⟩ := hear_within s (a.runner.getD .receive) i
      exact ⟨h1.trans h1', h2.trans h2', fun obj => (h3 obj).trans (hear_keeps s _ i obj)⟩
  obtain ⟨h1, h2, h3⟩ := hfold (client.history.callbacks.take
    (client.history.callbacks.length - s.client.history.callbacks.length)) { s with client }
  exact ⟨h1, hstep.trans (congrArg some h2.symm), h3⟩

/-- The client stays as it is, or a thread moves it that is in none of these calls. -/
theorem client_step (h : s.step inflate a = some t) : t.client = s.client
    ∨ ∃ a', s.client.step inflate a' = some t.client ∧ s.free a'.runner := by
  cases a with
  | client a =>
    simp only [SyncSystem.step] at h
    split_ifs at h with ha
    exact Or.inr ⟨a, (clientStep_keeps h).2.1, not_not.mp (not_or.mp ha).2⟩
  | call runner messageType timeout =>
    simp only [SyncSystem.step] at h
    split_ifs at h with hfree
    obtain ⟨client, hstep, h⟩ := Option.bind_eq_some_iff.mp h
    obtain rfl := Option.some.inj h
    refine Or.inr ⟨_, hstep, ?_⟩
    have hfree := not_not.mp (not_or.mp hfree).1
    simp only [Action.runner]
    split_ifs with hrunner
    · rwa [of_decide_eq_true hrunner] at hfree
    · rfl
  | resume obj =>
    simp only [SyncSystem.step, Option.bind_eq_bind, Option.bind_eq_some_iff] at h
    obtain ⟨o, -, r, -, h⟩ := h
    split_ifs at h <;> obtain rfl := Option.some.inj h <;> exact Or.inl rfl
  | wait obj wake =>
    simp only [SyncSystem.step, Option.bind_eq_bind, Option.bind_eq_some_iff] at h
    obtain ⟨o, -, evt, -, h⟩ := h
    obtain rfl := Option.some.inj h
    exact Or.inl rfl
  | signal obj =>
    simp only [SyncSystem.step, Option.bind_eq_bind, Option.bind_eq_some_iff] at h
    obtain ⟨o, -, evt, -, h⟩ := h
    split_ifs at h <;> obtain rfl := Option.some.inj h <;> exact Or.inl rfl
  | finish obj =>
    simp only [SyncSystem.step, Option.bind_eq_bind, Option.bind_eq_some_iff] at h
    obtain ⟨o, -, h⟩ := h
    obtain ⟨-, h⟩ := Option.ite_none_right_eq_some.mp h
    obtain rfl := Option.some.inj h
    exact Or.inl rfl

/-- What a step makes of an object: it goes on, and where it does its caller goes on with it. -/
def GoesOn (s t : SyncSystem κ) (obj : ℕ) (o : SyncObj) : Prop :=
  ∃ before, s.objs obj = some before ∧ before.runner = o.runner
    ∧ (o.phase.isAlive → before.phase.isAlive ∧ ∀ r, s.within r = some obj → t.within r = some obj)

/-- One object is changed, and the callers stay. -/
theorem goesOn_update {obj' : ℕ} {o₀ o' : SyncObj}
    (hobjs : t.objs = Function.update s.objs obj' (some o')) (hwithin : t.within = s.within)
    (ho₀ : s.objs obj' = some o₀) (halive : o'.phase.isAlive → o₀.phase.isAlive)
    (hrunner : o'.runner = o₀.runner) (ho : t.objs obj = some o) : GoesOn s t obj o := by
  rw [hobjs] at ho
  rcases objs_update ho with ⟨rfl, rfl⟩ | ⟨-, ho⟩
  · exact ⟨o₀, ho₀, hrunner.symm, fun h => ⟨halive h, fun r hr => hwithin ▸ hr⟩⟩
  · exact ⟨o, ho, rfl, fun h => ⟨h, fun r hr => hwithin ▸ hr⟩⟩

/-- A call is over, and its caller with it. -/
theorem goesOn_leave {obj' : ℕ} {o₀ : SyncObj} {phase : SyncPhase} (ho₀ : s.objs obj' = some o₀)
    (hover : phase.isAlive = false) (ho : (s.leaveObj obj' o₀ phase).objs obj = some o) :
    GoesOn s (s.leaveObj obj' o₀ phase) obj o := by
  rcases objs_update ho with ⟨rfl, rfl⟩ | ⟨hne, ho⟩
  · exact ⟨o₀, ho₀, rfl, fun h => absurd h (hover ▸ Bool.false_ne_true)⟩
  · refine ⟨o, ho, rfl, fun h => ⟨h, fun r hr => ?_⟩⟩
    have hother : s.within r ≠ some obj' := fun heq => hne (Option.some.inj (hr.symm.trans heq))
    exact (if_neg hother).trans hr

/-- **An object is new, with its caller, or goes on.** -/
theorem obj_step (h : s.step inflate a = some t) (ho : t.objs obj = some o) :
    obj = s.client.nextHandle ∧ (∀ r, o.runner = some r → t.within r = some obj)
      ∨ GoesOn s t obj o := by
  cases a with
  | client a =>
    simp only [SyncSystem.step] at h
    split_ifs at h
    obtain ⟨hwithin, -, hkeeps⟩ := clientStep_keeps h
    have hmap := hkeeps obj
    rw [ho, Option.map_some, eq_comm, Option.map_eq_some_iff] at hmap
    obtain ⟨before, hbefore, heq⟩ := hmap
    obtain ⟨hphase, hrunner⟩ := Prod.mk.inj heq
    exact Or.inr ⟨before, hbefore, hrunner, fun halive =>
      ⟨hphase ▸ halive, fun r hr => hwithin ▸ hr⟩⟩
  | call runner messageType timeout =>
    simp only [SyncSystem.step] at h
    split_ifs at h with hfree
    obtain ⟨client, hstep, h⟩ := Option.bind_eq_some_iff.mp h
    obtain rfl := Option.some.inj h
    rcases objs_update ho with ⟨rfl, rfl⟩ | ⟨-, ho⟩
    · exact Or.inl ⟨rfl, fun r hr => if_pos hr⟩
    · refine Or.inr ⟨o, ho, rfl, fun halive => ⟨halive, fun r hr => ?_⟩⟩
      have hother : runner ≠ some r := fun heq => by
        have hnone := not_not.mp (not_or.mp hfree).1
        simp [free, heq, hr] at hnone
      exact (if_neg hother).trans hr
  | resume obj' =>
    simp only [SyncSystem.step, Option.bind_eq_bind, Option.bind_eq_some_iff,
      Option.filter_eq_some_iff, decide_eq_true_eq] at h
    obtain ⟨o₀, ⟨ho₀, hphase⟩, r, -, h⟩ := h
    split_ifs at h <;> obtain rfl := Option.some.inj h
    · exact Or.inr (goesOn_leave ho₀ rfl ho)
    · exact Or.inr (goesOn_update rfl rfl ho₀ (fun _ => hphase ▸ rfl) rfl ho)
  | wait obj' wake =>
    simp only [SyncSystem.step, Option.bind_eq_bind, Option.bind_eq_some_iff,
      Option.filter_eq_some_iff] at h
    obtain ⟨o₀, ⟨ho₀, -⟩, evt, -, h⟩ := h
    obtain rfl := Option.some.inj h
    exact Or.inr (goesOn_update rfl rfl ho₀ id rfl ho)
  | signal obj' =>
    simp only [SyncSystem.step, Option.bind_eq_bind, Option.bind_eq_some_iff] at h
    obtain ⟨o₀, ho₀, evt, -, h⟩ := h
    split_ifs at h <;> obtain rfl := Option.some.inj h
    · exact Or.inr (goesOn_update rfl rfl ho₀ id rfl ho)
    · exact Or.inr ⟨o, ho, rfl, fun halive => ⟨halive, fun _ => id⟩⟩
  | finish obj' =>
    simp only [SyncSystem.step, Option.bind_eq_bind, Option.bind_eq_some_iff,
      Option.filter_eq_some_iff] at h
    obtain ⟨o₀, ⟨ho₀, -⟩, h⟩ := h
    obtain ⟨-, h⟩ := Option.ite_none_right_eq_some.mp h
    obtain rfl := Option.some.inj h
    exact Or.inr (goesOn_leave ho₀ rfl ho)

/-- A caller whose callback has not run goes on waiting. -/
theorem Inv.waiting_step (hs : Inv s) (h : s.step inflate a = some t) (ho : s.objs obj = some o)
    (hphase : o.phase = .waiting) (hnot : ¬ s.Heard obj) :
    ∃ o', t.objs obj = some o' ∧ o'.phase = .waiting ∧ o'.runner = o.runner := by
  have hkeep : ∀ {obj' : ℕ} (o' : SyncObj), obj' ≠ obj →
      Function.update s.objs obj' (some o') obj = some o := fun o' hne =>
    (Function.update_of_ne hne.symm ..).trans ho
  cases a with
  | client a =>
    simp only [SyncSystem.step] at h
    split_ifs at h
    have hmap := (clientStep_keeps h).2.2 obj
    rw [ho, Option.map_some, Option.map_eq_some_iff] at hmap
    obtain ⟨o', ho', heq⟩ := hmap
    obtain ⟨hphase', hrunner⟩ := Prod.mk.inj heq
    exact ⟨o', ho', hphase'.trans hphase, hrunner⟩
  | call runner messageType timeout =>
    simp only [SyncSystem.step] at h
    split_ifs at h
    obtain ⟨client, hstep, h⟩ := Option.bind_eq_some_iff.mp h
    obtain rfl := Option.some.inj h
    refine ⟨o, hkeep _ fun heq => ?_, hphase, rfl⟩
    rw [← heq, hs.fresh _ le_rfl] at ho
    exact absurd ho.symm (Option.some_ne_none _)
  | resume obj' =>
    simp only [SyncSystem.step, Option.bind_eq_bind, Option.bind_eq_some_iff,
      Option.filter_eq_some_iff, decide_eq_true_eq] at h
    obtain ⟨o₀, ⟨ho₀, hphase₀⟩, r, -, h⟩ := h
    have hne : obj' ≠ obj := by
      rintro rfl
      rw [← Option.some.inj (ho.symm.trans ho₀), hphase] at hphase₀
      exact SyncPhase.noConfusion hphase₀
    split_ifs at h <;> obtain rfl := Option.some.inj h <;> exact ⟨o, hkeep _ hne, hphase, rfl⟩
  | wait obj' wake =>
    simp only [SyncSystem.step, Option.bind_eq_bind, Option.bind_eq_some_iff,
      Option.filter_eq_some_iff] at h
    obtain ⟨o₀, ⟨ho₀, -⟩, evt, -, h⟩ := h
    obtain rfl := Option.some.inj h
    rcases eq_or_ne obj' obj with rfl | hne
    · obtain rfl := Option.some.inj (ho.symm.trans ho₀)
      exact ⟨_, Function.update_self .., hphase, rfl⟩
    · exact ⟨o, hkeep _ hne, hphase, rfl⟩
  | signal obj' =>
    simp only [SyncSystem.step, Option.bind_eq_bind, Option.bind_eq_some_iff] at h
    obtain ⟨o₀, ho₀, evt, -, h⟩ := h
    split_ifs at h <;> obtain rfl := Option.some.inj h
    · rcases eq_or_ne obj' obj with rfl | hne
      · obtain rfl := Option.some.inj (ho.symm.trans ho₀)
        exact ⟨_, Function.update_self .., hphase, rfl⟩
      · exact ⟨o, hkeep _ hne, hphase, rfl⟩
    · exact ⟨o, ho, hphase, rfl⟩
  | finish obj' =>
    simp only [SyncSystem.step, Option.bind_eq_bind, Option.bind_eq_some_iff,
      Option.filter_eq_some_iff] at h
    obtain ⟨o₀, ⟨ho₀, -⟩, h⟩ := h
    obtain ⟨hout, h⟩ := Option.ite_none_right_eq_some.mp h
    obtain rfl := Option.some.inj h
    refine ⟨o, hkeep _ ?_, hphase, rfl⟩
    -- its event is still locked
    rintro rfl
    obtain rfl := Option.some.inj (ho.symm.trans ho₀)
    have hok := hs.obj _ _ ho
    have hopen := (hok.passed hphase hout).1
    rw [hok.locked.mpr (Or.inl hnot)] at hopen
    exact Bool.noConfusion hopen

/-! ## Callers in a callback -/

/-- The call of a callback of the sweep: the sweep stands still, and nothing has come for it. -/
structure Blocked (s : SyncSystem κ) (obj : ℕ) : Prop where
  sweep : s.client.sweep.inCallback
  silent : ¬ s.Heard obj
  notInHand : ∀ d, s.client.delivery = some d → d.request.handle ≠ obj

/-- A thread in one of these calls does not move the client. -/
theorem runner_ne_of_free {runner : Option Runner} (hfree : s.free runner) {r : Runner}
    (hwithin : s.within r = some obj) : runner ≠ some r := fun heq => by
  simp [free, heq, hwithin] at hfree

theorem Blocked.client (hs : Blocked s obj) {a : Action (SyncCallback κ)}
    (h : s.client.step inflate a = some t.client) (ha : a.runner ≠ some .sweep) :
    t.client.sweep = s.client.sweep ∧ Blocked t obj
      ∧ ∀ p ∈ t.client.history.unlinked, p ∈ s.client.history.unlinked ∨ p.2 = .call := by
  have hsweep := Tr50Client.sweep_step h ha
  obtain ⟨hdelivery, hcallbacks, hunlinked⟩ :=
    Tr50Client.inCallback_step hs.sweep (Tr50Client.step_effect h)
  refine ⟨hsweep, ⟨hsweep ▸ hs.sweep, fun ⟨i, hi, heq, hsync⟩ => ?_, fun d hd => ?_⟩, hunlinked⟩
  · rcases hcallbacks i hi with hi | ⟨d, hd, heq'⟩
    · exact hs.silent ⟨i, hi, heq, hsync⟩
    · exact hs.notInHand d hd (heq'.symm.trans heq)
  · rcases hdelivery with h' | h' <;> rw [h'] at hd
    · exact hs.notInHand d hd
    · exact nomatch hd

/-- **As long as the call is made, the sweep stands still.** -/
theorem Blocked.step (hs : Blocked s obj) (hwithin : s.within .sweep = some obj)
    (h : s.step inflate a = some t) : t.client.sweep = s.client.sweep ∧ Blocked t obj
      ∧ ∀ p ∈ t.client.history.unlinked, p ∈ s.client.history.unlinked ∨ p.2 = .call := by
  rcases client_step h with hsame | ⟨a', hstep, hfree⟩
  · refine ⟨by rw [hsame], ⟨hsame ▸ hs.sweep, ?_, hsame ▸ hs.notInHand⟩, fun p hp => ?_⟩
    · rw [Heard, hsame]
      exact hs.silent
    · exact Or.inl (hsame ▸ hp)
  · exact hs.client hstep (runner_ne_of_free hfree hwithin)

/-- Who is in a call has made it before, or makes it now. -/
theorem within_step {r : Runner} (h : s.step inflate a = some t) (hwithin : t.within r = some obj) :
    s.within r = some obj ∨ obj = s.client.nextHandle
      ∧ ∃ messageType timeout, a = .call (some r) messageType timeout := by
  have hleave : ∀ {obj' : ℕ} {o : SyncObj} {phase : SyncPhase},
      (s.leaveObj obj' o phase).within r = some obj → s.within r = some obj := by
    intro obj' o phase h
    simp only [leaveObj] at h
    split_ifs at h
    exact h
  cases a with
  | client a =>
    simp only [SyncSystem.step] at h
    split_ifs at h
    rw [(clientStep_keeps h).1] at hwithin
    exact Or.inl hwithin
  | call runner messageType timeout =>
    simp only [SyncSystem.step] at h
    split_ifs at h
    obtain ⟨client, hstep, h⟩ := Option.bind_eq_some_iff.mp h
    obtain rfl := Option.some.inj h
    simp only at hwithin
    split_ifs at hwithin with hrunner
    · exact Or.inr ⟨(Option.some.inj hwithin).symm, messageType, timeout, by rw [hrunner]⟩
    · exact Or.inl hwithin
  | resume obj' =>
    simp only [SyncSystem.step, Option.bind_eq_bind, Option.bind_eq_some_iff] at h
    obtain ⟨o, -, r, -, h⟩ := h
    split_ifs at h <;> obtain rfl := Option.some.inj h
    · exact Or.inl (hleave hwithin)
    · exact Or.inl hwithin
  | wait obj' wake =>
    simp only [SyncSystem.step, Option.bind_eq_bind, Option.bind_eq_some_iff] at h
    obtain ⟨o, -, evt, -, h⟩ := h
    obtain rfl := Option.some.inj h
    exact Or.inl hwithin
  | signal obj' =>
    simp only [SyncSystem.step, Option.bind_eq_bind, Option.bind_eq_some_iff] at h
    obtain ⟨o, -, evt, -, h⟩ := h
    split_ifs at h <;> obtain rfl := Option.some.inj h <;> exact Or.inl hwithin
  | finish obj' =>
    simp only [SyncSystem.step, Option.bind_eq_bind, Option.bind_eq_some_iff] at h
    obtain ⟨o, -, h⟩ := h
    obtain ⟨-, h⟩ := Option.ite_none_right_eq_some.mp h
    obtain rfl := Option.some.inj h
    exact Or.inl (hleave hwithin)

/-- The handle of the next message stands for nothing yet. -/
theorem Inv.fresh_handle (hs : Inv s) : ¬ s.Heard s.client.nextHandle
    ∧ (∀ d, s.client.delivery = some d → d.request.handle ≠ s.client.nextHandle)
    ∧ ∀ p ∈ s.client.history.unlinked, p.1.1 ≠ s.client.nextHandle := by
  have hunlinked : ∀ p ∈ s.client.history.unlinked, p.1.1 ≠ s.client.nextHandle := fun p hp =>
    (hs.client.inv.accounted.fresh p.1 (hs.client.inv.accounted.split.mem_iff.mpr
      (List.mem_append_right _ (List.mem_map_of_mem (f := Prod.fst) hp)))).ne
  refine ⟨fun ⟨i, hi, heq, _⟩ => ?_, fun d hd => ?_, hunlinked⟩
  · rcases hs.client.inv.told.told i hi with ⟨-, h⟩ | ⟨-, h⟩ <;> exact hunlinked _ h heq
  · exact hunlinked _ (hs.client.inv.told.taken d hd)

/-- An object whose request is in the list is there. -/
theorem Inv.alive_of_pending (hs : Inv s) (ho : s.objs obj = some o)
    (hmem : obj ∈ s.client.pending.handles) : o.phase.isAlive := by
  obtain ⟨m, hm, rfl⟩ := List.mem_map.mp hmem
  have hdisjoint := List.disjoint_of_nodup_append hs.client.inv.accounted.nodup_handles
  refine hs.isAlive ho (fun r hr hret heq => ?_) fun ⟨i, hi, heq, _⟩ =>
    hs.client.inv.not_called hm (heq ▸ List.mem_map_of_mem hi)
  rcases hs.refused r hr hret with hnot | ⟨p, hp, hhandle, -⟩
  · exact hnot (heq ▸ List.mem_map_of_mem (f := Prod.fst) (hs.client.inv.accounted.mem_added hm))
  · exact hdisjoint hmem ((hhandle.trans heq) ▸ List.mem_map_of_mem (f := (·.1.1)) hp)

/-- What holds of the callers that are in a callback, and of what has expired. -/
structure Within (s : SyncSystem κ) : Prop where
  inv : Inv s
  told : s.client.SweepTold
  made : ∀ obj o, s.objs obj = some o → o.phase.isAlive → ∀ r, o.runner = some r →
    s.within r = some obj
  sweep : ∀ obj, s.within .sweep = some obj → Blocked s obj
  receive : ∀ obj o, s.objs obj = some o → o.runner = some .receive →
    ∀ p ∈ s.client.history.unlinked, p.1.1 = obj → p.2 ≠ .reply

theorem within_init : Within (init : SyncSystem κ) where
  inv := inv_init
  told _ hp := absurd hp List.not_mem_nil
  made _ _ ho := absurd ho.symm (Option.some_ne_none _)
  sweep _ hw := absurd hw.symm (Option.some_ne_none _)
  receive _ _ ho := absurd ho.symm (Option.some_ne_none _)

/-- A reply takes a request out of the list while the receive thread is in none of these calls. -/
theorem reply_step (h : s.step inflate a = some t) {p : (ℕ × Option (SyncCallback κ)) × Party}
    (hp : p ∈ t.client.history.unlinked) (hreply : p.2 = .reply) :
    p ∈ s.client.history.unlinked
      ∨ s.within .receive = none ∧ p.1.1 ∈ s.client.pending.handles := by
  rcases client_step h with hsame | ⟨a', hstep, hfree⟩
  · exact Or.inl (hsame ▸ hp)
  · by_cases hrunner : a'.runner = some .receive
    · have hnone : s.within .receive = none := by
        rw [hrunner] at hfree
        exact Option.isNone_iff_eq_none.mp (Bool.and_eq_true_iff.mp hfree).2
      have heffect := Tr50Client.step_effect hstep
      generalize t.client = client at hp heffect
      cases heffect with
      | takeBack call ret message hcall hstage hfree hmem hid =>
        exact Or.inl ((List.mem_cons.mp hp).resolve_left fun heq => by
          rw [heq] at hreply
          exact nomatch hreply)
      | take message seqId data hdelivery hidle hmem hid =>
        rcases List.mem_cons.mp hp with rfl | hp
        · exact Or.inr ⟨hnone, List.mem_map_of_mem hmem⟩
        · exact Or.inl hp
      | expire message sweep pending hscan hnext hmem hpending =>
        exact Or.inl ((List.mem_cons.mp hp).resolve_left fun heq => by
          rw [heq] at hreply
          exact nomatch hreply)
      | _ => exact Or.inl hp
    · exact Or.inl (Tr50Client.unlinked_step hstep hrunner p hp hreply)

/-- No reply is taken for a call that is made in the receive thread. -/
theorem Within.receive_step (hs : Within s) (h : s.step inflate a = some t)
    (ho : t.objs obj = some o) (hrunner : o.runner = some .receive) :
    ∀ p ∈ t.client.history.unlinked, p.1.1 = obj → p.2 ≠ .reply := by
  intro p hp heq hreply
  rcases obj_step h ho with ⟨rfl, -⟩ | ⟨before, hbefore, hrunner', -⟩
  · rcases reply_step h hp hreply with hp | ⟨-, hmem⟩
    · exact hs.inv.fresh_handle.2.2 p hp heq
    · obtain ⟨m, hm, hhandle⟩ := List.mem_map.mp hmem
      have hadded := hs.inv.client.inv.accounted.mem_added hm
      exact (hs.inv.client.inv.accounted.fresh _ hadded).ne (hhandle.trans heq)
  · rcases reply_step h hp hreply with hp | ⟨hnone, hmem⟩
    · exact hs.receive obj before hbefore (hrunner'.trans hrunner) p hp heq hreply
    · have halive := hs.inv.alive_of_pending hbefore (heq ▸ hmem)
      have hwithin := hs.made obj before hbefore halive .receive (hrunner'.trans hrunner)
      exact nomatch hnone.symm.trans hwithin

/-- A callback of the sweep begins a call. -/
theorem Inv.blocked (hs : Inv s) {messageType : MessageType} {timeout : ℤ}
    (h : s.step inflate (.call (some .sweep) messageType timeout) = some t) :
    Blocked t s.client.nextHandle := by
  simp only [SyncSystem.step] at h
  split_ifs at h
  obtain ⟨client, hstep, h⟩ := Option.bind_eq_some_iff.mp h
  obtain rfl := Option.some.inj h
  have hsame : client.sweep = s.client.sweep ∧ client.delivery = s.client.delivery
      ∧ client.history.callbacks = s.client.history.callbacks ∧ s.client.sweep.inCallback := by
    simp only [Tr50Client.step, Tr50Client.apiEnter] at hstep
    split_ifs at hstep with hcall hsweep <;> obtain rfl := Option.some.inj hstep <;>
      exact ⟨rfl, rfl, rfl, not_not.mp fun hnot => hsweep ⟨rfl, hnot⟩⟩
  obtain ⟨hnot, hdelivery, -⟩ := hs.fresh_handle
  exact ⟨hsame.1 ▸ hsame.2.2.2, by rw [Heard, hsame.2.2.1]; exact hnot, hsame.2.1 ▸ hdelivery⟩

/-- **Every calm step keeps it.** -/
theorem Within.step (hs : Within s) (hgood : s.Calm a) (h : s.step inflate a = some t) :
    Within t := by
  refine ⟨hs.inv.step hgood h, ?_, fun obj o ho halive r hr => ?_, fun obj hwithin => ?_,
    fun obj o ho hrunner => hs.receive_step h ho hrunner⟩
  · rcases client_step h with hsame | ⟨a', hstep, -⟩
    · exact hsame ▸ hs.told
    · exact hs.told.step (Tr50Client.step_effect hstep)
  · rcases obj_step h ho with ⟨-, hnew⟩ | ⟨before, hbefore, hrunner, hgoes⟩
    · exact hnew r hr
    · obtain ⟨halive, hwithin⟩ := hgoes halive
      exact hwithin r (hs.made obj before hbefore halive r (hrunner.trans hr))
  · rcases within_step h hwithin with hbefore | ⟨rfl, messageType, timeout, rfl⟩
    · exact ((hs.sweep obj hbefore).step hbefore h).2.1
    · exact hs.inv.blocked h

theorem within_of_reach (h : Reach (step inflate) Calm (init : SyncSystem κ) s) : Within s :=
  h.invariant within_init fun _ _ _ hs hgood hstep => hs.step hgood hstep

/-- The callback of an object is that of the synchronous calls. -/
theorem Inv.isSync (hs : Inv s) (ho : s.objs obj = some o)
    {i : Invocation (SyncCallback κ)} (hi : i ∈ s.client.history.callbacks)
    (hhandle : i.handle = obj) : i.callback = .sync := by
  have hadded : (i.handle, some i.callback) ∈ s.client.history.added := by
    refine hs.client.inv.accounted.split.mem_iff.mpr (List.mem_append_right _ ?_)
    rcases hs.client.inv.told.told i hi with ⟨-, h⟩ | ⟨-, h⟩ <;>
      exact List.mem_map_of_mem (f := Prod.fst) h
  exact Option.some.inj ((hs.known _ hadded).mp (by rw [hhandle, ho]; rfl))

/-- Where the request of a caller is whose callback has not run. -/
theorem Within.awaited (hs : Within s) (ho : s.objs obj = some o) (hphase : o.phase = .waiting)
    (hnot : ¬ s.Heard obj) : obj ∈ s.client.pending.handles
      ∨ (∃ d, s.client.delivery = some d ∧ d.request.handle = obj) ∨ s.client.Lost obj := by
  obtain ⟨r, hr, rfl, hret⟩ := hs.inv.accepted obj o ho hphase
  obtain ⟨p, hp, hhandle⟩ := List.mem_map.mp (hs.inv.client.outcomes.accepted r hr hret)
  have hsync : p.2 = some .sync := (hs.inv.known p hp).mp (by rw [hhandle, ho]; rfl)
  rcases List.mem_append.mp (hs.inv.client.inv.accounted.split.mem_iff.mp hp) with hp | hp
  · obtain ⟨m, hm, rfl⟩ := List.mem_map.mp hp
    exact Or.inl (hhandle ▸ List.mem_map_of_mem hm)
  · obtain ⟨q, hq, rfl⟩ := List.mem_map.mp hp
    cases hparty : q.2 with
    | call =>
      -- the call would have returned an error as well
      obtain ⟨r', hr', heq, hret'⟩ := hs.inv.client.outcomes.takenBack q hq hparty
      have hsame := List.inj_on_of_nodup_map hs.inv.client.outcomes.once hr' hr (heq.trans hhandle)
      exact absurd (hsame ▸ hret) hret'
    | sweep =>
      obtain ⟨i, hi, heq, hcallback⟩ := hs.told q hq hparty _ hsync
      exact absurd ⟨i, hi, heq.trans hhandle, hcallback⟩ hnot
    | reply =>
      by_cases hd : ∃ d, s.client.delivery = some d ∧ d.request.handle = r.handle
      · exact Or.inr (Or.inl hd)
      · exact Or.inr (Or.inr ⟨⟨q, hq, hhandle, hparty⟩, fun d hd' heq => hd ⟨d, hd', heq⟩,
          fun i hi heq => hnot ⟨i, hi, heq, hs.inv.isSync ho hi heq⟩⟩)

/-- A caller whose callback has run is past its wait, or nothing keeps it there. -/
theorem Inv.moves (hs : Inv s) (ho : s.objs obj = some o) (hheard : s.Heard obj) :
    o.evt.pc .caller = .out ∨ ∃ side, (o.evt.step side .go).isSome := by
  have hok := hs.obj obj o ho
  by_cases hout : o.evt.pc .caller = .out
  · exact Or.inl hout
  right
  by_cases hlocked : o.evt.isLocked
  · have hsignal := (hok.locked.mp hlocked).resolve_left (not_not.mpr hheard)
    exact hok.sound.moves (t := .callback) (by rw [hsignal]; exact nofun)
      (by rw [hsignal]; exact nofun)
  · exact hok.sound.open_moves (Bool.eq_false_iff.mpr hlocked) hout

/-- A caller whose request is lost goes on waiting. -/
theorem Within.waits (hs : Within s) (hlost : s.client.Lost obj) (ho : s.objs obj = some o)
    (hphase : o.phase = .waiting) (h : Reach (SyncSystem.step inflate) Calm s t) :
    ∃ o', t.objs obj = some o' ∧ o'.phase = .waiting := by
  have hrun : Within t ∧ t.client.Lost obj ∧ ∃ o', t.objs obj = some o' ∧ o'.phase = .waiting := by
    refine h.invariant (I := fun t => Within t ∧ t.client.Lost obj
      ∧ ∃ o', t.objs obj = some o' ∧ o'.phase = .waiting) ⟨hs, hlost, o, ho, hphase⟩ ?_
    rintro s a t ⟨hs, hlost, o, ho, hphase⟩ hgood hstep
    have hlost' : t.client.Lost obj := by
      rcases client_step hstep with hsame | ⟨a', hstep', -⟩
      · exact hsame ▸ hlost
      · exact hlost.step hs.inv.client.inv (Tr50Client.step_effect hstep')
    have hnot : ¬ s.Heard obj := fun ⟨i, hi, heq, _⟩ => hlost.notCalled i hi heq
    obtain ⟨o', ho', hphase', -⟩ := hs.inv.waiting_step hstep ho hphase hnot
    exact ⟨hs.step hgood hstep, hlost', o', ho', hphase'⟩
  exact hrun.2.2

/-- A caller in a callback of the sweep goes on waiting, and the sweep does not go on. -/
theorem Within.standsStill (hs : Within s) (ho : s.objs obj = some o)
    (hphase : o.phase = .waiting) (hrunner : o.runner = some .sweep)
    (h : Reach (SyncSystem.step inflate) Calm s t) :
    (∃ o', t.objs obj = some o' ∧ o'.phase = .waiting) ∧ t.client.sweep = s.client.sweep
      ∧ ∀ p ∈ t.client.history.unlinked, p ∈ s.client.history.unlinked ∨ p.2 = .call := by
  have hrun : Within t
      ∧ (∃ o', t.objs obj = some o' ∧ o'.phase = .waiting ∧ o'.runner = some .sweep)
      ∧ t.client.sweep = s.client.sweep
      ∧ ∀ p ∈ t.client.history.unlinked, p ∈ s.client.history.unlinked ∨ p.2 = .call := by
    refine h.invariant (I := fun t => Within t
      ∧ (∃ o', t.objs obj = some o' ∧ o'.phase = .waiting ∧ o'.runner = some .sweep)
      ∧ t.client.sweep = s.client.sweep
      ∧ ∀ p ∈ t.client.history.unlinked, p ∈ s.client.history.unlinked ∨ p.2 = .call)
      ⟨hs, ⟨o, ho, hphase, hrunner⟩, rfl, fun _ => Or.inl⟩ ?_
    rintro u a t ⟨hu, ⟨o, ho, hphase, hrunner⟩, hsweep, hunlinked⟩ hgood hstep
    have hwithin := hu.made obj o ho (by rw [hphase]; rfl) .sweep hrunner
    have hblocked := hu.sweep obj hwithin
    obtain ⟨hsame, -, hcalls⟩ := hblocked.step hwithin hstep
    obtain ⟨o', ho', hphase', hrunner'⟩ := hu.inv.waiting_step hstep ho hphase hblocked.silent
    refine ⟨hu.step hgood hstep, ⟨o', ho', hphase', hrunner'.trans hrunner⟩, hsame.trans hsweep,
      fun p hp => ?_⟩
    rcases hcalls p hp with hp | hcall
    · exact hunlinked p hp
    · exact Or.inr hcall
  exact ⟨hrun.2.1.imp fun _ h => ⟨h.1, h.2.1⟩, hrun.2.2⟩

/-- A call in the receive thread that has returned has timed out. -/
theorem Within.timesOut (hs : Within s) (ho : s.objs obj = some o)
    (hrunner : o.runner = some .receive) (hphase : o.phase = .returned) :
    o.status = errTr50ReqTimeout := by
  obtain ⟨-, i, hi, hhandle, -, hstatus, -⟩ := (hs.inv.concluded ho).2 hphase
  rcases hs.inv.client.inv.told.told i hi with ⟨-, h⟩ | ⟨htimeout, -⟩
  · exact absurd rfl (hs.receive obj o ho hrunner _ h hhandle)
  · exact hstatus.trans htimeout

end SyncSystem

open SyncSystem

section Waits

variable {inflate : List UInt8 → Option (List UInt8)} {s : SyncSystem κ} {obj : ℕ} {o : SyncObj}

/-- **A caller that waits has something to wait for, or waits forever.**  If its callback has run,
it is past its wait, or it or the callback can go on.  If not, its request is in the list, or in the
hands of the receive thread, or lost; a caller whose request is lost never returns. -/
theorem syncCall_waits (h : Reach (SyncSystem.step inflate) Calm init s)
    (ho : s.objs obj = some o) (hphase : o.phase = .waiting) :
    (s.Heard obj → o.evt.pc .caller = .out ∨ ∃ side, (o.evt.step side .go).isSome)
    ∧ (¬ s.Heard obj → obj ∈ s.client.pending.handles
      ∨ (∃ d, s.client.delivery = some d ∧ d.request.handle = obj) ∨ s.client.Lost obj)
    ∧ (s.client.Lost obj → ∀ t, Reach (SyncSystem.step inflate) Calm s t →
      ∃ o', t.objs obj = some o' ∧ o'.phase = .waiting) :=
  have hs := within_of_reach h
  ⟨hs.inv.moves ho, hs.awaited ho hphase, fun hlost _ ht => hs.waits hlost ho hphase ht⟩

/-- A message for the application, and a reply to it that cannot be read. -/
def objUnread : List (SyncAction Unit) :=
  [.client (.payload 0), .client (.add 0), .client (.publish 0), .resume 0, .wait 0 false]
    ++ rawReply

/-- **A caller waits forever for a reply that cannot be read.** -/
theorem syncCall_waits_unread : ∃ s : SyncSystem Unit,
    Reach (SyncSystem.step fun _ => none) Calm init s ∧ s.client.Lost 0
    ∧ ∀ t, Reach (SyncSystem.step fun _ => none) Calm s t →
      ∃ o, t.objs 0 = some o ∧ o.phase = .waiting := by
  have heval : (((SyncSystem.step (fun _ => none) init (.call none .obj 30000)).bind fun s =>
      objUnread.foldlM (SyncSystem.step fun _ => none) s).bind fun s =>
        (s.objs 0).map fun o => (o.phase, s.client.pending.handles, s.client.delivery.isSome,
          s.client.history.callbacks.length)) = some (.waiting, [], false, 0) := by decide +kernel
  obtain ⟨s, hs, hview⟩ := Option.bind_eq_some_iff.mp heval
  obtain ⟨o, ho, hview⟩ := Option.map_eq_some_iff.mp hview
  simp only [Prod.mk.injEq] at hview
  obtain ⟨hphase, hpending, hdelivery, hcallbacks⟩ := hview
  obtain ⟨s₁, hcall, hs⟩ := Option.bind_eq_some_iff.mp hs
  have hnew : (init : SyncSystem Unit).Calm (.call none .obj 30000) :=
    fun _ hm => absurd hm List.not_mem_nil
  have hcalm : ∀ s : SyncSystem Unit, ∀ a ∈ objUnread, s.Calm a := fun s => by
    simp [objUnread, rawReply, Calm, Tr50Client.NewId, Tr50Client.Deflates]
  have hreach := (Reach.refl.tail hnew hcall).trans (Reach.of_foldlM objUnread hcalm hs)
  obtain ⟨-, hawaited, hforever⟩ := syncCall_waits hreach ho hphase
  have hnot : ¬ s.Heard 0 := by
    rintro ⟨i, hi, -⟩
    rw [List.eq_nil_of_length_eq_zero hcallbacks] at hi
    exact absurd hi List.not_mem_nil
  rcases hawaited hnot with hmem | ⟨d, hd, -⟩ | hlost
  · rw [hpending] at hmem
    exact absurd hmem List.not_mem_nil
  · rw [hd] at hdelivery
    exact Bool.noConfusion hdelivery
  · exact ⟨s, hreach, hlost, hforever hlost⟩

/-- **A callback of the sweep that makes a synchronous call never returns.**  The sweep stands still
from then on, and only the calls that submit requests take any out of the list. -/
theorem syncCall_inSweep (h : Reach (SyncSystem.step inflate) Calm init s)
    (ho : s.objs obj = some o) (hphase : o.phase = .waiting) (hrunner : o.runner = some .sweep) :
    ∀ t, Reach (SyncSystem.step inflate) Calm s t →
      (∃ o', t.objs obj = some o' ∧ o'.phase = .waiting) ∧ t.client.sweep = s.client.sweep
      ∧ ∀ p ∈ t.client.history.unlinked, p ∈ s.client.history.unlinked ∨ p.2 = .call :=
  fun _ ht => (within_of_reach h).standsStill ho hphase hrunner ht

/-- A request of the application expires, in a sweep… -/
def otherExpires : List (SyncAction Unit) :=
  rawCall 0 ++ [.client (.publish 0), .client (.sweep 60000), .client .visit]

/-- …and its callback makes a call. -/
def sweepCalls : List (SyncAction Unit) := rawCall 0 ++ [.client (.publish 0), .resume 1]

theorem syncCall_inSweep_expired : ∃ s : SyncSystem Unit,
    Reach (SyncSystem.step fun _ => none) Calm init s ∧ s.client.sweep.inCallback
    ∧ ∀ t, Reach (SyncSystem.step fun _ => none) Calm s t →
      (∃ o, t.objs 1 = some o ∧ o.phase = .waiting) ∧ t.client.sweep = s.client.sweep
      ∧ ∀ p ∈ t.client.history.unlinked, p ∈ s.client.history.unlinked ∨ p.2 = .call := by
  have heval : ((SyncSystem.step (fun _ => none) init (.client (.api false .raw 0
      (some (.other ()))))).bind fun s =>
        (otherExpires.foldlM (SyncSystem.step fun _ => none) s).bind fun (s : SyncSystem Unit) =>
        if s.client.pending.list = [] then
          (SyncSystem.step (fun _ => none) s (.call (some .sweep) .raw 30000)).bind fun s =>
            (sweepCalls.foldlM (SyncSystem.step fun _ => none) s).bind fun s =>
            (s.objs 1).map fun o => (o.phase, o.runner, s.client.sweep.inCallback)
        else none) = some (.waiting, some .sweep, true) := by decide +kernel
  obtain ⟨s₁, hapi, heval⟩ := Option.bind_eq_some_iff.mp heval
  obtain ⟨s₂, hs₂, heval⟩ := Option.bind_eq_some_iff.mp heval
  obtain ⟨hempty, heval⟩ := Option.ite_none_right_eq_some.mp heval
  obtain ⟨s₃, hcall, heval⟩ := Option.bind_eq_some_iff.mp heval
  obtain ⟨s, hs, hview⟩ := Option.bind_eq_some_iff.mp heval
  obtain ⟨o, ho, hview⟩ := Option.map_eq_some_iff.mp hview
  simp only [Prod.mk.injEq] at hview
  obtain ⟨hphase, hrunner, hsweep⟩ := hview
  have hfirst : (init : SyncSystem Unit).Calm (.client (.api false .raw 0 (some (.other ())))) :=
    ⟨nofun, trivial⟩
  have hnew : s₂.Calm (.call (some .sweep) .raw 30000) := fun m hm =>
    absurd (hempty ▸ hm) List.not_mem_nil
  have hcalm : ∀ s : SyncSystem Unit, ∀ a ∈ otherExpires ++ sweepCalls, s.Calm a := fun s => by
    simp [otherExpires, sweepCalls, rawCall, Calm, Tr50Client.NewId, Tr50Client.Deflates]
  have hreach₂ := (Reach.refl.tail hfirst hapi).trans (Reach.of_foldlM otherExpires
    (fun s a ha => hcalm s a (List.mem_append_left _ ha)) hs₂)
  have hreach := (hreach₂.tail hnew hcall).trans (Reach.of_foldlM sweepCalls
    (fun s a ha => hcalm s a (List.mem_append_right _ ha)) hs)
  exact ⟨s, hreach, hsweep, syncCall_inSweep hreach ho hphase hrunner⟩

/-- **A synchronous call in the receive thread has no reply**: it is refused, or it times out, with
an error reply in place of one if it is a call of messages. -/
theorem syncCall_inReceive (h : Reach (SyncSystem.step inflate) Calm init s)
    (ho : s.objs obj = some o) (hrunner : o.runner = some .receive) (hphase : o.phase = .returned) :
    o.out = match o.messageType with
      | .obj => (0, some (.message (syncErrorReply errTr50ReqTimeout)))
      | .raw => (errTr50ReqTimeout, none) := by
  have hstatus := (within_of_reach h).timesOut ho hrunner hphase
  have hne : errTr50ReqTimeout ≠ 0 := by decide
  unfold SyncObj.out
  cases o.messageType <;> simp only [hstatus, if_neg hne]

/-- The receive thread makes a call, and the sweep takes the request out. -/
def receiveExpires : List (SyncAction Unit) :=
  rawCall 0 ++ [.client (.publish 0), .resume 0, .wait 0 false, .wait 0 false,
    .client (.sweep 60000), .client .visit, .signal 0, .signal 0, .client .callbackReturn,
    .wait 0 false, .wait 0 false, .finish 0]

theorem syncCall_inReceive_expired : ∃ (s : SyncSystem Unit) (o : SyncObj),
    Reach (SyncSystem.step fun _ => none) Calm init s ∧ s.objs 0 = some o
    ∧ o.out = (errTr50ReqTimeout, none) := by
  have heval : (((SyncSystem.step (fun _ => none) init (.call (some .receive) .raw 30000)).bind
      fun s => receiveExpires.foldlM (SyncSystem.step fun _ => none) s).bind fun s =>
        (s.objs 0).map fun o => (o.phase, o.runner, o.messageType))
      = some (.returned, some .receive, .raw) := by decide +kernel
  obtain ⟨s, hs, hview⟩ := Option.bind_eq_some_iff.mp heval
  obtain ⟨o, ho, hview⟩ := Option.map_eq_some_iff.mp hview
  simp only [Prod.mk.injEq] at hview
  obtain ⟨hphase, hrunner, hraw⟩ := hview
  obtain ⟨s₁, hcall, hs⟩ := Option.bind_eq_some_iff.mp hs
  have hnew : (init : SyncSystem Unit).Calm (.call (some .receive) .raw 30000) := nofun
  have hcalm : ∀ s : SyncSystem Unit, ∀ a ∈ receiveExpires, s.Calm a := fun s => by
    simp [receiveExpires, rawCall, Calm, Tr50Client.NewId, Tr50Client.Deflates]
  have hreach := (Reach.refl.tail hnew hcall).trans (Reach.of_foldlM receiveExpires hcalm hs)
  refine ⟨s, o, hreach, ho, (syncCall_inReceive hreach ho hrunner hphase).trans ?_⟩
  rw [hraw]

end Waits

end Tr50
