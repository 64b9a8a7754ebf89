import Tr50.Api.Requests

/-!
# Api/Submit — what the result of a call says about its message

As long as no call gets an id that is still pending, a failed publish takes back the very message
that its call has added, or learns that it is gone.  So a call that returns an error leaves nothing
behind, and a call that returns `0` has its message waiting or taken, by the reply or by the sweep,
once (`SubmitInv.promise`).  Until then nobody else notices the call (`Without.step`).

Here every call has a message of its own; `Api/Owner` is about messages that are submitted again.
-/

namespace Tr50

open Machinery

variable {κ : Type}

namespace Tr50Client

/-! ## Ids -/

/-- A call gets an id that no pending request has. -/
def NewId (s : Tr50Client κ) : Action κ → Prop
  | .api _ _ _ _ => ∀ m ∈ s.pending.list, m.seqId ≠ tr50ApiMsgIdNext s.seqId
  | _ => True

instance (s : Tr50Client κ) : ∀ a, Decidable (NewId s a)
  | .api _ _ _ _ => inferInstanceAs (Decidable (∀ m ∈ s.pending.list, _ ≠ _))
  | .payload _ | .add _ | .compress _ | .publish _ | .remove | .msgIdNext | .lifecycle _ _
  | .receive _ _ | .deliver | .sweep _ | .visit | .callbackReturn =>
      inferInstanceAs (Decidable True)

/-- Every pending id stands for one message, and that of the call in progress for its own. -/
structure Ids (s : Tr50Client κ) : Prop where
  nodup : (s.pending.list.map (·.seqId)).Nodup
  call : ∀ call, s.call = some call → ∀ m ∈ s.pending.list, m.seqId = call.message.seqId →
    m.handle = call.message.handle

theorem ids_init : Ids (init : Tr50Client κ) := ⟨List.nodup_nil, by rintro _ ⟨⟩⟩

theorem Ids.remove {s : Tr50Client κ} (hs : Ids s) (message : Tr50Message κ) :
    ((tr50PendingLinklistRemove s.pending message).list.map (·.seqId)).Nodup
    ∧ ∀ call, s.call = some call → ∀ m ∈ (tr50PendingLinklistRemove s.pending message).list,
      m.seqId = call.message.seqId → m.handle = call.message.handle :=
  ⟨hs.nodup.sublist (List.eraseP_sublist.map _), fun call hcall m hm =>
    hs.call call hcall m (List.mem_of_mem_eraseP hm)⟩

/-- A message in the list has been added. -/
theorem Accounted.mem_added {s : Tr50Client κ} (hs : Accounted s) {m : Tr50Message κ}
    (hm : m ∈ s.pending.list) : m.submission ∈ s.history.added :=
  hs.split.mem_iff.mpr (List.mem_append_left _ (List.mem_map_of_mem hm))

theorem Ids.step {s t : Tr50Client κ} {a : Action κ} (hs : Ids s) (hinv : Inv s)
    (h : Effect s a t) (hgood : NewId s a) : Ids t := by
  cases h with
  | refuse message ret hcall hhandle hret => exact ⟨hs.nodup, by rintro _ ⟨⟩⟩
  | enter call hcall hhandle hid hstage hsweep =>
    refine ⟨hs.nodup, ?_⟩
    rintro _ ⟨⟩ m hm heq
    exact absurd (heq.trans hid) (hgood m hm)
  | leave call ret hcall hret => exact ⟨hs.nodup, by rintro _ ⟨⟩⟩
  | goOn call stage hcall hstage =>
    refine ⟨hs.nodup, ?_⟩
    rintro _ ⟨⟩
    exact hs.call call hcall
  | add call now stage hcall hadd hstage =>
    have hnew : ∀ m ∈ s.pending.list, m.seqId ≠ call.message.seqId := fun m hm heq =>
      (hinv.callPlaced call hcall).early (Or.inr hadd) _ (hinv.accounted.mem_added hm)
        (hs.call call hcall m hm heq)
    refine ⟨?_, ?_⟩
    · simp only [goOn, tr50PendingAdd, List.map_append, List.map_cons, List.map_nil]
      refine List.nodup_append.mpr ⟨hs.nodup, List.nodup_singleton _, ?_⟩
      rintro id hid _ hcall rfl
      obtain ⟨m, hm, rfl⟩ := List.mem_map.mp hid
      exact hnew m hm (List.mem_singleton.mp hcall)
    · rintro _ ⟨⟩ m hm heq
      rcases List.mem_append.mp hm with hm | hm
      · exact absurd heq (hnew m hm)
      · rw [List.mem_singleton.mp hm]
  | takeBack call ret message hcall hstage hfree hmem hid =>
    exact ⟨(hs.remove message).1, by rintro _ ⟨⟩⟩
  | expired call ret hcall hstage hid => exact ⟨hs.nodup, by rintro _ ⟨⟩⟩
  | take message seqId data hdelivery hidle hmem hid =>
    exact ⟨(hs.remove message).1, (hs.remove _).2⟩
  | deliver d hdelivery => exact ⟨hs.nodup, hs.call⟩
  | expire message sweep pending hscan hnext hmem hpending =>
    exact ⟨hpending ▸ (hs.remove message).1, hpending ▸ (hs.remove message).2⟩
  | quiet seqId stopped isStopping sweep pending hnext hkeep hpending hids =>
    have hmem : ∀ m ∈ pending.list, ∃ m' ∈ s.pending.list, idOf m' = idOf m := fun m hm =>
      List.mem_map.mp (hids ▸ List.mem_map_of_mem hm)
    refine ⟨?_, fun call hcall m hm heq => ?_⟩
    · have hseq := congrArg (List.map Prod.fst) hids
      simp only [List.map_map, Function.comp_def, idOf] at hseq
      exact hseq ▸ hs.nodup
    · obtain ⟨m', hm', hid⟩ := hmem m hm
      obtain ⟨hseq, hhandle⟩ := Prod.mk.inj hid
      exact hhandle ▸ hs.call call hcall m' hm' (hseq.trans heq)

/-! ## Results -/

/-- What a result says, as far as the record of what has happened goes. -/
structure Outcomes (s : Tr50Client κ) : Prop where
  once : (s.history.returned.map (·.handle)).Nodup
  fresh : ∀ r ∈ s.history.returned, r.handle < s.nextHandle
  call : ∀ call, s.call = some call → ∀ r ∈ s.history.returned, r.handle ≠ call.message.handle
  accepted : ∀ r ∈ s.history.returned, r.ret = 0 → r.handle ∈ s.history.added.map Prod.fst
  refused : ∀ r ∈ s.history.returned, r.ret ≠ 0 → r.messageType = .obj →
    r.handle ∉ s.history.added.map Prod.fst
    ∨ (r.handle, Party.call) ∈ s.history.unlinked.map fun p => (p.1.1, p.2)
  takenBack : ∀ p ∈ s.history.unlinked, p.2 = .call →
    ∃ r ∈ s.history.returned, r.handle = p.1.1 ∧ r.ret ≠ 0

theorem outcomes_init : Outcomes (init : Tr50Client κ) :=
  ⟨List.nodup_nil, by simp [init], by simp [init], by simp [init], by simp [init], by simp [init]⟩

/-- A call returns: with an error for a message that has not been added, or is taken back; with `0`
for one that has been added. -/
theorem Outcomes.leave {s t : Tr50Client κ} (hs : Outcomes s) (message : Tr50Message κ) (ret : ℤ)
    (hnew : ∀ r ∈ s.history.returned, r.handle ≠ message.handle)
    (hfresh : message.handle < t.nextHandle) (hnext : s.nextHandle ≤ t.nextHandle)
    (hcall : t.call = none) (hadded : t.history.added = s.history.added)
    (hreturned : t.history.returned
      = ⟨message.handle, message.messageType, ret⟩ :: s.history.returned)
    (hunlinked : t.history.unlinked = s.history.unlinked
      ∨ ∃ cb, ret ≠ 0 ∧ t.history.unlinked = ((message.handle, cb), .call) :: s.history.unlinked)
    (haccepted : ret = 0 → message.handle ∈ s.history.added.map Prod.fst)
    (hrefused : ret ≠ 0 → message.messageType = .obj →
      message.handle ∉ s.history.added.map Prod.fst
      ∨ (message.handle, Party.call) ∈ t.history.unlinked.map fun p => (p.1.1, p.2)) :
    Outcomes t := by
  have hmono : ∀ p ∈ s.history.unlinked, p ∈ t.history.unlinked := by
    intro p hp
    rcases hunlinked with h | ⟨cb, -, h⟩ <;> rw [h]
    · exact hp
    · exact List.mem_cons_of_mem _ hp
  refine ⟨?_, ?_, by simp [hcall], ?_, ?_, ?_⟩
  · rw [hreturned, List.map_cons, List.nodup_cons]
    refine ⟨fun hmem => ?_, hs.once⟩
    obtain ⟨r, hr, heq⟩ := List.mem_map.mp hmem
    exact hnew r hr heq
  · rw [hreturned]
    intro r hr
    rcases List.mem_cons.mp hr with rfl | hr
    · exact hfresh
    · exact (hs.fresh r hr).trans_le hnext
  · rw [hreturned, hadded]
    intro r hr hret
    rcases List.mem_cons.mp hr with rfl | hr
    · exact haccepted hret
    · exact hs.accepted r hr hret
  · rw [hreturned, hadded]
    intro r hr hret htype
    rcases List.mem_cons.mp hr with rfl | hr
    · exact hrefused hret htype
    · refine (hs.refused r hr hret htype).imp_right fun hmem => ?_
      obtain ⟨p, hp, heq⟩ := List.mem_map.mp hmem
      exact List.mem_map.mpr ⟨p, hmono p hp, heq⟩
  · rw [hreturned]
    intro p hp hparty
    rcases hunlinked with h | ⟨cb, hret, h⟩ <;> rw [h] at hp
    · obtain ⟨r, hr, hboth⟩ := hs.takenBack p hp hparty
      exact ⟨r, List.mem_cons_of_mem _ hr, hboth⟩
    · rcases List.mem_cons.mp hp with rfl | hp
      · exact ⟨_, List.mem_cons_self, rfl, hret⟩
      · obtain ⟨r, hr, hboth⟩ := hs.takenBack p hp hparty
        exact ⟨r, List.mem_cons_of_mem _ hr, hboth⟩

/-- Anything but a return: what is added is the message of the call in progress, and nobody takes
back. -/
theorem Outcomes.stay {s t : Tr50Client κ} (hs : Outcomes s)
    (hreturned : t.history.returned = s.history.returned)
    (hnext : s.nextHandle ≤ t.nextHandle)
    (hcall : ∀ call, t.call = some call → ∀ r ∈ s.history.returned,
      r.handle ≠ call.message.handle)
    (hadded : t.history.added = s.history.added
      ∨ ∃ p, t.history.added = p :: s.history.added ∧ ∀ r ∈ s.history.returned, r.handle ≠ p.1)
    (hunlinked : t.history.unlinked = s.history.unlinked
      ∨ ∃ p, t.history.unlinked = p :: s.history.unlinked ∧ p.2 ≠ .call) : Outcomes t := by
  have hmono : ∀ p ∈ s.history.unlinked, p ∈ t.history.unlinked := by
    intro p hp
    rcases hunlinked with h | ⟨q, h, -⟩ <;> rw [h]
    · exact hp
    · exact List.mem_cons_of_mem _ hp
  refine ⟨hreturned ▸ hs.once, ?_, hreturned ▸ hcall, ?_, ?_, ?_⟩
  · rw [hreturned]
    exact fun r hr => (hs.fresh r hr).trans_le hnext
  · rw [hreturned]
    intro r hr hret
    have := hs.accepted r hr hret
    rcases hadded with h | ⟨p, h, -⟩ <;> rw [h]
    · exact this
    · exact List.mem_cons_of_mem _ this
  · rw [hreturned]
    intro r hr hret htype
    refine (hs.refused r hr hret htype).imp (fun hnot => ?_) fun hmem => ?_
    · rcases hadded with h | ⟨p, h, hp⟩ <;> rw [h]
      · exact hnot
      · rw [List.map_cons, List.mem_cons, not_or]
        exact ⟨hp r hr, hnot⟩
    · obtain ⟨p, hp, heq⟩ := List.mem_map.mp hmem
      exact List.mem_map.mpr ⟨p, hmono p hp, heq⟩
  · rw [hreturned]
    intro p hp hparty
    rcases hunlinked with h | ⟨q, h, hq⟩ <;> rw [h] at hp
    · exact hs.takenBack p hp hparty
    · rcases List.mem_cons.mp hp with rfl | hp
      · exact absurd hparty hq
      · exact hs.takenBack p hp hparty

theorem Outcomes.step {s t : Tr50Client κ} {a : Action κ} (hs : Outcomes s) (hinv : Inv s)
    (hids : Ids s) (h : Effect s a t) : Outcomes t := by
  cases h with
  | refuse message ret hcall hhandle hret =>
    refine hs.leave message ret (fun r hr => hhandle ▸ (hs.fresh r hr).ne)
      (hhandle.trans_lt (Nat.lt_succ_self _)) (Nat.le_succ _) rfl rfl rfl (Or.inl rfl)
      (fun h => absurd h hret) fun _ _ => Or.inl fun hmem => ?_
    obtain ⟨p, hp, heq⟩ := List.mem_map.mp hmem
    exact (hinv.accounted.fresh p hp).ne (heq.trans hhandle)
  | enter call hcall hhandle hid hstage hsweep =>
    refine hs.stay rfl (Nat.le_succ _) ?_ (Or.inl rfl) (Or.inl rfl)
    rintro _ ⟨⟩ r hr
    exact hhandle ▸ (hs.fresh r hr).ne
  | leave call ret hcall hret =>
    have hplaced := hinv.callPlaced call hcall
    refine hs.leave call.message ret (hs.call call hcall) hplaced.fresh le_rfl rfl rfl rfl
      (Or.inl rfl) (fun h => ?_) fun h htype => Or.inl fun hmem => ?_
    · rcases hret with ⟨-, h'⟩ | ⟨-, h'⟩ | ⟨hstage, -⟩
      · exact absurd h h'
      · exact absurd h h'
      · exact List.mem_map_of_mem (hplaced.late (by simp [hstage]) (by simp [hstage]))
    · rcases hret with ⟨hstage, -⟩ | ⟨hstage, -⟩ | ⟨-, h'⟩
      · obtain ⟨p, hp, heq⟩ := List.mem_map.mp hmem
        exact hplaced.early (Or.inl hstage) p hp heq
      · exact absurd (htype.symm.trans (hplaced.compress hstage)) (by decide)
      · exact absurd h' h
  | goOn call stage hcall hstage =>
    refine hs.stay rfl le_rfl ?_ (Or.inl rfl) (Or.inl rfl)
    rintro _ ⟨⟩
    exact hs.call call hcall
  | add call now stage hcall hadd hstage =>
    refine hs.stay rfl le_rfl ?_ (Or.inr ⟨_, rfl, hs.call call hcall⟩) (Or.inl rfl)
    rintro _ ⟨⟩
    exact hs.call call hcall
  | takeBack call ret message hcall hstage hfree hmem hid =>
    have hplaced := hinv.callPlaced call hcall
    have hret := hplaced.remove ret hstage
    -- the message found is the call's own
    have hown : message.submission = (call.message.handle, message.callback) :=
      Prod.ext (hids.call call hcall message hmem hid) rfl
    refine hs.leave call.message ret (hs.call call hcall) hplaced.fresh le_rfl rfl rfl rfl
      (Or.inr ⟨message.callback, hret, by rw [← hown]; rfl⟩) (fun h => absurd h hret) fun _ _ =>
      Or.inr ?_
    exact List.mem_map.mpr ⟨_, List.mem_cons_self, by rw [hown]⟩
  | expired call ret hcall hstage hid =>
    have hplaced := hinv.callPlaced call hcall
    exact hs.leave call.message 0 (hs.call call hcall) hplaced.fresh le_rfl rfl rfl rfl
      (Or.inl rfl)
      (fun _ => List.mem_map_of_mem (hplaced.late (by simp [hstage]) (by simp [hstage])))
      fun h => absurd rfl h
  | take message seqId data hdelivery hidle hmem hid =>
    exact hs.stay rfl le_rfl hs.call (Or.inl rfl) (Or.inr ⟨_, rfl, by simp⟩)
  | deliver d hdelivery => exact hs.stay rfl le_rfl hs.call (Or.inl rfl) (Or.inl rfl)
  | expire message sweep pending hscan hnext hmem hpending =>
    exact hs.stay rfl le_rfl hs.call (Or.inl rfl) (Or.inr ⟨_, rfl, by simp⟩)
  | quiet seqId stopped isStopping sweep pending hnext hkeep hpending hids =>
    exact hs.stay rfl le_rfl hs.call (Or.inl rfl) (Or.inl rfl)

/-- No request has its callback twice, nor before it is taken out. -/
def CallbackOnce (s : Tr50Client κ) : Prop :=
  (s.history.callbacks.map (·.handle) ++ s.delivery.toList.map (·.request.handle)).Nodup

/-- A reply has one callback at most, that of its request. -/
theorem handleReply_handles (d : Delivery κ) :
    (tr50HandleReply d).map (·.handle) = []
    ∨ (tr50HandleReply d).map (·.handle) = [d.request.handle] := by
  have hone : ∀ answer : Answer, (d.request.callback.toList.map fun k =>
      (⟨d.request.handle, k, 0, some answer⟩ : Invocation κ)).map (·.handle) = []
      ∨ (d.request.callback.toList.map fun k =>
        (⟨d.request.handle, k, 0, some answer⟩ : Invocation κ)).map (·.handle)
        = [d.request.handle] := by
    intro answer
    cases d.request.callback <;> simp
  unfold tr50HandleReply
  split
  · exact hone _
  · split
    · exact Or.inl rfl
    · split_ifs
      · exact hone _
      · exact Or.inl rfl

/-- A message in the list has had no callback. -/
theorem Inv.not_called {s : Tr50Client κ} (hs : Inv s) {m : Tr50Message κ}
    (hm : m ∈ s.pending.list) : m.handle ∉ s.history.callbacks.map (·.handle) := by
  intro hmem
  obtain ⟨i, hi, heq⟩ := List.mem_map.mp hmem
  have hunlinked : i.handle ∈ s.history.unlinked.map (·.1.1) := by
    rcases hs.told.told i hi with ⟨-, h⟩ | ⟨-, h⟩ <;> exact List.mem_map_of_mem h
  exact (List.disjoint_of_nodup_append hs.accounted.nodup_handles) (List.mem_map_of_mem hm)
    (heq ▸ hunlinked)

theorem CallbackOnce.step {s t : Tr50Client κ} {a : Action κ} (hs : CallbackOnce s) (hinv : Inv s)
    (h : Effect s a t) : CallbackOnce t := by
  have hnodup := (List.nodup_append.mp hs).1
  cases h with
  | take message seqId data hdelivery hidle hmem hid =>
    simp only [CallbackOnce, Option.toList_some, List.map_cons, List.map_nil]
    refine List.nodup_append.mpr ⟨hnodup, List.nodup_singleton _, ?_⟩
    rintro h hh _ hm rfl
    exact hinv.not_called hmem (List.mem_singleton.mp hm ▸ hh)
  | deliver d hdelivery =>
    simp only [CallbackOnce, hdelivery, Option.toList_some, Option.toList_none, List.map_cons,
      List.map_nil, List.append_nil, List.map_append] at hs ⊢
    rcases handleReply_handles d with h | h <;> rw [h]
    · exact hnodup
    · exact List.perm_append_comm.nodup_iff.mp hs
  | expire message sweep pending hscan hnext hmem hpending =>
    simp only [CallbackOnce, List.map_append, List.map_map, List.append_assoc]
    cases hcallback : message.callback with
    | none => exact hs
    | some k =>
      simp only [Option.toList_some, List.map_cons, List.map_nil, Function.comp_apply,
        List.singleton_append]
      refine List.nodup_cons.mpr ⟨fun hmem' => ?_, hs⟩
      rcases List.mem_append.mp hmem' with hmem' | hmem'
      · exact hinv.not_called hmem hmem'
      · -- the request in hand has been taken out
        obtain ⟨d, hd, heq⟩ := List.mem_map.mp hmem'
        have hunlinked := hinv.told.taken d (by simpa using hd)
        exact (List.disjoint_of_nodup_append hinv.accounted.nodup_handles)
          (List.mem_map_of_mem hmem) (heq ▸ List.mem_map_of_mem (f := (·.1.1)) hunlinked)
  | _ => exact hs

/-- The sweep's next message is in the list, and is not that of a call its callback makes. -/
structure Cursor (s : Tr50Client κ) : Prop where
  mem : ∀ x, s.sweep.next = some x → x ∈ s.pending.handles
  call : ∀ call, s.call = some call → call.inSweep →
    s.sweep.inCallback ∧ s.sweep.next ≠ some call.message.handle

theorem cursor_init : Cursor (init : Tr50Client κ) := ⟨by rintro _ ⟨⟩, by rintro _ ⟨⟩⟩

theorem Cursor.step {s t : Tr50Client κ} {a : Action κ} (hs : Cursor s) (hinv : Inv s)
    (hids : Ids s) (h : Effect s a t) : Cursor t := by
  cases h with
  | refuse message ret hcall hhandle hret => exact ⟨hs.mem, by rintro _ ⟨⟩⟩
  | enter call hcall hhandle hid hstage hsweep =>
    refine ⟨hs.mem, ?_⟩
    rintro _ ⟨⟩ hin
    refine ⟨hsweep hin, fun hnext => ?_⟩
    obtain ⟨m, hm, heq⟩ := List.mem_map.mp (hs.mem _ hnext)
    exact (hinv.accounted.fresh _ (hinv.accounted.mem_added hm)).ne (heq.trans hhandle)
  | leave call ret hcall hret => exact ⟨hs.mem, by rintro _ ⟨⟩⟩
  | goOn call stage hcall hstage =>
    refine ⟨hs.mem, ?_⟩
    rintro _ ⟨⟩
    exact hs.call call hcall
  | add call now stage hcall hadd hstage =>
    refine ⟨fun x hx => ?_, ?_⟩
    · simp only [goOn, tr50PendingAdd, Tr50Pending.handles, List.map_append]
      exact List.mem_append_left _ (hs.mem x hx)
    · rintro _ ⟨⟩
      exact hs.call call hcall
  | takeBack call ret message hcall hstage hfree hmem hid =>
    refine ⟨fun x hx => mem_handles_remove (hs.mem x hx) ?_, by rintro _ ⟨⟩⟩
    rintro rfl
    rcases hfree with hin | hidle
    · exact (hs.call call hcall hin).2 (hx.trans (congrArg some (hids.call call hcall _ hmem hid)))
    · have hx : s.sweep.next = some message.handle := hx
      rw [hidle] at hx
      cases hx
  | expired call ret hcall hstage hid => exact ⟨hs.mem, by rintro _ ⟨⟩⟩
  | take message seqId data hdelivery hidle hmem hid =>
    refine ⟨fun x hx => ?_, hs.call⟩
    have hx : s.sweep.next = some x := hx
    rw [hidle] at hx
    cases hx
  | deliver d hdelivery => exact ⟨hs.mem, hs.call⟩
  | expire message sweep pending hscan hnext hmem hpending =>
    refine ⟨fun x hx => ?_, fun call hcall hin => absurd (hs.call call hcall hin).1 hscan⟩
    have hx := hnext.symm.trans hx
    have hne : x ≠ message.handle := by
      rintro rfl
      exact next_ne hinv.accounted.pending_nodup hx
    have := mem_handles_remove (mem_handles_of_next hx) hne
    simpa only [Tr50Pending.handles, hpending] using this
  | quiet seqId stopped isStopping sweep pending hnext hkeep hpending hids =>
    have hhandles : pending.handles = s.pending.handles := by
      rw [← Tr50Pending.map_fst_submissions, hpending, Tr50Pending.map_fst_submissions]
    refine ⟨fun x hx => ?_, fun call hcall hin => ?_⟩
    · simp only [hhandles]
      exact (hnext x hx).elim id (hs.mem x)
    · have hcall : s.call = some call := hcall
      have hsame := hkeep (hs.call call hcall hin).1 (by simp [hcall, hin])
      exact hsame ▸ hs.call call hcall hin

/-! ## The calls -/

/-- Everything at once, over a run. -/
structure SubmitInv (s : Tr50Client κ) : Prop where
  inv : Inv s
  ids : Ids s
  cursor : Cursor s
  outcomes : Outcomes s
  once : CallbackOnce s

theorem SubmitInv.step {inflate : List UInt8 → Option (List UInt8)} {s t : Tr50Client κ}
    {a : Action κ} (hs : SubmitInv s) (hgood : NewId s a) (h : s.step inflate a = some t) :
    SubmitInv t :=
  have heffect := step_effect h
  ⟨hs.inv.step heffect, hs.ids.step hs.inv heffect hgood, hs.cursor.step hs.inv hs.ids heffect,
    hs.outcomes.step hs.inv hs.ids heffect, hs.once.step hs.inv heffect⟩

theorem submitInv_of_reach {inflate : List UInt8 → Option (List UInt8)} {s : Tr50Client κ}
    (h : Reach (step inflate) NewId init s) : SubmitInv s :=
  h.invariant ⟨inv_init, ids_init, cursor_init, outcomes_init, List.nodup_nil⟩
    fun _ _ _ hs hgood hstep => hs.step hgood hstep

/-- The sweep never loses its place: it goes on from every message it has come to. -/
theorem SubmitInv.visit_isSome {s : Tr50Client κ} (hs : SubmitInv s) {now : ℤ} {next : Option ℕ}
    (hscan : s.sweep = .scan now next) : s.visit.isSome := by
  rw [visit, hscan]
  cases next with
  | none => rfl
  | some x =>
    obtain ⟨m, hm, rfl⟩ := List.mem_map.mp (hs.cursor.mem x (by rw [hscan]; rfl))
    simp only [Option.isSome_map, List.find?_isSome, decide_eq_true_eq]
    exact ⟨m, hm, rfl⟩

/-- Who has taken a message out. -/
def unlinkedBy (s : Tr50Client κ) (handle : ℕ) : List Party :=
  (s.history.unlinked.filter (·.1.1 = handle)).map Prod.snd

/-- What the result of a call promises: with an error, its message is not in the list and its
callback has not been called; with `0`, its message waits, or has been taken out by one of the
reply and the sweep, and its callback has been called once at most. -/
def Promise (s : Tr50Client κ) (r : Returned) : Prop :=
  (r.ret ≠ 0 → r.handle ∉ s.pending.handles ∧ ∀ i ∈ s.history.callbacks, i.handle ≠ r.handle)
  ∧ (r.ret = 0 →
    (r.handle ∈ s.pending.handles ∧ s.unlinkedBy r.handle = []
      ∨ r.handle ∉ s.pending.handles
        ∧ (s.unlinkedBy r.handle = [.reply] ∨ s.unlinkedBy r.handle = [.sweep]))
    ∧ (s.history.callbacks.filter (·.handle = r.handle)).length ≤ 1)

/-- A handle that has been taken out has been so by one party. -/
theorem unlinkedBy_eq {s : Tr50Client κ} (hs : Accounted s) {p : (ℕ × Option κ) × Party}
    (hp : p ∈ s.history.unlinked) : s.unlinkedBy p.1.1 = [p.2] := by
  have hnodup := (List.nodup_append.mp hs.nodup_handles).2.1
  unfold unlinkedBy
  generalize s.history.unlinked = l at hp hnodup
  induction l with
  | nil => exact absurd hp List.not_mem_nil
  | cons q l ih =>
    rw [List.map_cons, List.nodup_cons] at hnodup
    rcases List.mem_cons.mp hp with rfl | hp
    · rw [List.filter_cons_of_pos (by simp), List.filter_eq_nil_iff.mpr]
      · rfl
      · intro q hq heq
        exact hnodup.1 (of_decide_eq_true heq ▸ List.mem_map_of_mem (f := (·.1.1)) hq)
    · have hne : q.1.1 ≠ p.1.1 := fun h =>
        hnodup.1 (h ▸ List.mem_map_of_mem (f := (·.1.1)) hp)
      rw [List.filter_cons_of_neg (by simpa using hne), ih hp hnodup.2]

/-- A handle in the list has not been taken out. -/
theorem unlinkedBy_eq_nil {s : Tr50Client κ} {handle : ℕ}
    (h : handle ∉ s.history.unlinked.map (·.1.1)) : s.unlinkedBy handle = [] := by
  rw [unlinkedBy, List.filter_eq_nil_iff.mpr, List.map_nil]
  exact fun p hp heq => h (of_decide_eq_true heq ▸ List.mem_map_of_mem (f := (·.1.1)) hp)

/-- **The result of a call keeps its promise**, whatever replies and sweeps do then or later. -/
theorem SubmitInv.promise {s : Tr50Client κ} (hs : SubmitInv s) {r : Returned}
    (hr : r ∈ s.history.returned) (htype : r.messageType = .obj) : s.Promise r := by
  have hdisjoint := List.disjoint_of_nodup_append hs.inv.accounted.nodup_handles
  have hadded : ∀ h, h ∈ s.history.added.map Prod.fst
      ↔ h ∈ s.pending.handles ∨ h ∈ s.history.unlinked.map (·.1.1) := by
    intro h
    rw [(hs.inv.accounted.split.map Prod.fst).mem_iff, List.map_append,
      Tr50Pending.map_fst_submissions, List.map_map, List.mem_append]
    rfl
  refine ⟨fun hret => ?_, fun hret => ⟨?_, ?_⟩⟩
  · rcases hs.outcomes.refused r hr hret htype with hnot | hback
    · rw [hadded, not_or] at hnot
      refine ⟨hnot.1, fun i hi heq => hnot.2 ?_⟩
      rcases hs.inv.told.told i hi with ⟨-, h⟩ | ⟨-, h⟩ <;>
        exact heq ▸ List.mem_map_of_mem (f := (·.1.1)) h
    · obtain ⟨p, hp, heq⟩ := List.mem_map.mp hback
      obtain ⟨hhandle, hparty⟩ := Prod.mk.inj heq
      refine ⟨fun hmem => hdisjoint hmem (hhandle ▸ List.mem_map_of_mem (f := (·.1.1)) hp),
        fun i hi heq => ?_⟩
      have hby := unlinkedBy_eq hs.inv.accounted hp
      rw [hhandle, ← heq, hparty] at hby
      rcases hs.inv.told.told i hi with ⟨-, h⟩ | ⟨-, h⟩ <;>
        exact absurd ((unlinkedBy_eq hs.inv.accounted h).symm.trans hby) (by simp)
  · rcases (hadded _).mp (hs.outcomes.accepted r hr hret) with hmem | hmem
    · exact Or.inl ⟨hmem, unlinkedBy_eq_nil fun h => hdisjoint hmem h⟩
    · refine Or.inr ⟨fun h => hdisjoint h hmem, ?_⟩
      obtain ⟨p, hp, hhandle⟩ := List.mem_map.mp hmem
      rw [← hhandle, unlinkedBy_eq hs.inv.accounted hp]
      cases hparty : p.2 with
      | call =>
        -- taken back by a call that returned an error: not this one
        obtain ⟨r', hr', hhandle', hret'⟩ := hs.outcomes.takenBack p hp hparty
        have : r' = r := List.inj_on_of_nodup_map hs.outcomes.once hr' hr (hhandle'.trans hhandle)
        exact absurd (this ▸ hret) hret'
      | reply => exact Or.inl rfl
      | sweep => exact Or.inr rfl
  · have hnodup := (List.nodup_append.mp hs.once).1
    have hcount := List.nodup_iff_count_le_one.mp hnodup r.handle
    rw [List.count_eq_countP, List.countP_map, List.countP_eq_length_filter] at hcount
    simp only [Function.comp_def, beq_eq_decide] at hcount
    exact hcount

/-- Nobody else has taken the message of a call that returns an error. -/
theorem SubmitInv.not_taken {s : Tr50Client κ} (hs : SubmitInv s) {r : Returned}
    (hr : r ∈ s.history.returned) (htype : r.messageType = .obj) (hret : r.ret ≠ 0) :
    ∀ p ∈ s.history.unlinked, p.1.1 = r.handle → p.2 = .call := by
  intro p hp hhandle
  have hadded : r.handle ∈ s.history.added.map Prod.fst := by
    rw [(hs.inv.accounted.split.map Prod.fst).mem_iff, List.map_append, List.mem_append]
    exact Or.inr (List.mem_map.mpr ⟨p.1, List.mem_map_of_mem hp, hhandle⟩)
  rcases hs.outcomes.refused r hr hret htype with hnot | hback
  · exact absurd hadded hnot
  · obtain ⟨q, hq, heq⟩ := List.mem_map.mp hback
    obtain ⟨hqr, hqparty⟩ := Prod.mk.inj heq
    have hby := unlinkedBy_eq hs.inv.accounted hp
    rw [hhandle.trans hqr.symm, unlinkedBy_eq hs.inv.accounted hq, hqparty] at hby
    exact (List.singleton_inj.mp hby).symm

/-! ## The other requests -/

/-- A step of the receive thread or of the sweep, but for the sweep at the message `handle`. -/
def Elsewhere (handle : ℕ) (s : Tr50Client κ) : Action κ → Prop
  | .receive _ _ | .deliver | .sweep _ | .callbackReturn => True
  | .visit => s.sweep.next ≠ some handle
  | _ => False

/-- The pointer a message saves where the message `handle` is not there. -/
def forget (handle : ℕ) (next : Option ℕ) : Option ℕ := if next = some handle then none else next

/-- The sweep where the message `handle` is not there. -/
def forgetSweep (handle : ℕ) : Sweep → Sweep
  | .idle => .idle
  | .scan now next => .scan now (forget handle next)
  | .callback now next => .callback now (forget handle next)

/-- `s'` is `s` without the message `handle`, the last of the list if it is there. -/
structure Without (handle : ℕ) (s s' : Tr50Client κ) : Prop where
  pending : ∃ own : List (Tr50Message κ), own.length ≤ 1 ∧ (∀ m ∈ own, m.handle = handle)
    ∧ s.pending = ⟨s'.pending.list ++ own, s'.pending.count + own.length, s'.pending.expiredCount⟩
  absent : ∀ m ∈ s'.pending.list, m.handle ≠ handle
  sweep : s'.sweep = forgetSweep handle s.sweep
  delivery : s'.delivery = s.delivery
  callbacks : s'.history.callbacks = s.history.callbacks
  idle : s'.call = none

theorem nil_or_singleton {own : List (Tr50Message κ)} (hlength : own.length ≤ 1) :
    own = [] ∨ ∃ m, own = [m] := by
  rcases Nat.le_one_iff_eq_zero_or_eq_one.mp hlength with h | h
  · exact Or.inl (List.length_eq_zero_iff.mp h)
  · exact Or.inr (List.length_eq_one_iff.mp h)

theorem head_append_own {handle : ℕ} (list own : List (Tr50Message κ)) (hlength : own.length ≤ 1)
    (hown : ∀ m ∈ own, m.handle = handle) (habsent : ∀ m ∈ list, m.handle ≠ handle) :
    tr50PendingHead list = forget handle (tr50PendingHead (list ++ own)) := by
  cases list with
  | cons m list => simp [tr50PendingHead, forget, habsent m List.mem_cons_self]
  | nil =>
    rcases nil_or_singleton hlength with rfl | ⟨m, rfl⟩
    · rfl
    · simp [tr50PendingHead, forget, hown m List.mem_cons_self]

theorem next_append_own {handle : ℕ} {list own : List (Tr50Message κ)} (hlength : own.length ≤ 1)
    (hown : ∀ m ∈ own, m.handle = handle) (habsent : ∀ m ∈ list, m.handle ≠ handle)
    {m : Tr50Message κ} (hm : m ∈ list) :
    tr50PendingNext list m.handle = forget handle (tr50PendingNext (list ++ own) m.handle) := by
  induction list with
  | nil => exact absurd hm List.not_mem_nil
  | cons m' list ih =>
    by_cases h : m'.handle = m.handle
    · simp only [tr50PendingNext, List.cons_append, ne_eq, h, not_true_eq_false, decide_false,
        Bool.false_eq_true, not_false_eq_true, List.dropWhile_cons_of_neg, List.tail_cons]
      exact head_append_own list own hlength hown fun m hm => habsent m (List.mem_cons_of_mem _ hm)
    · have hm : m ∈ list := (List.mem_cons.mp hm).resolve_left fun heq => h (heq ▸ rfl)
      have := ih (fun m hm => habsent m (List.mem_cons_of_mem _ hm)) hm
      simpa only [tr50PendingNext, List.cons_append, ne_eq, h, not_false_eq_true, decide_true,
        List.dropWhile_cons_of_pos] using this

/-- The last message has no next one. -/
theorem next_own {handle : ℕ} {list own : List (Tr50Message κ)} (hlength : own.length ≤ 1)
    (habsent : ∀ m ∈ list, m.handle ≠ handle) :
    tr50PendingNext (list ++ own) handle = none := by
  have hdrop : list.dropWhile (fun m => m.handle ≠ handle) = [] := by
    rw [List.dropWhile_eq_nil_iff]
    exact fun m hm => decide_eq_true (habsent m hm)
  rcases nil_or_singleton hlength with rfl | ⟨m, rfl⟩
  · rw [tr50PendingNext, List.append_nil, hdrop]
    rfl
  · rw [tr50PendingNext, List.dropWhile_append, hdrop]
    by_cases h : m.handle = handle <;> simp [h, tr50PendingHead]

/-- Taking out a message other than the last leaves the last where it is. -/
theorem remove_append_own {list own : List (Tr50Message κ)} {count expiredCount : ℤ}
    {m : Tr50Message κ} (hm : m ∈ list) :
    tr50PendingLinklistRemove ⟨list ++ own, count + own.length, expiredCount⟩ m
      = ⟨(tr50PendingLinklistRemove ⟨list, count, expiredCount⟩ m).list ++ own,
        (tr50PendingLinklistRemove ⟨list, count, expiredCount⟩ m).count + own.length,
        expiredCount⟩ := by
  simp only [tr50PendingLinklistRemove, Tr50Pending.mk.injEq, and_true]
  refine ⟨List.eraseP_append_left (a := m) (by simp) _ hm, ?_⟩
  ring

section Call

variable {s s' t : Tr50Client κ} {call : ApiCall κ} {inflate : List UInt8 → Option (List UInt8)}
  {a : Action κ}

/-- What the call does with its own message is not seen without it. -/
theorem Without.apiStep (hw : Without call.message.handle s s') (hs : SubmitInv s)
    (hcall : s.call = some call) (h : s.apiStep call call.stage a = some t) :
    Without call.message.handle t s' := by
  obtain ⟨own, hlength, hown, hpending⟩ := hw.pending
  have hsame : ∀ t : Tr50Client κ, t.pending = s.pending → t.sweep = s.sweep →
      t.delivery = s.delivery → t.history.callbacks = s.history.callbacks →
      Without call.message.handle t s' := fun t h1 h2 h3 h4 =>
    ⟨h1 ▸ hw.pending, hw.absent, h2 ▸ hw.sweep, h3 ▸ hw.delivery, h4 ▸ hw.callbacks, hw.idle⟩
  unfold Tr50Client.apiStep at h
  split at h
  · split_ifs at h <;> obtain rfl := Option.some.inj h <;> exact hsame _ rfl rfl rfl rfl
  · rename_i now hstage
    unfold apiAdd at h
    split_ifs at h
    obtain rfl := Option.some.inj h
    -- its message is not there yet
    have hnil : own = [] := by
      refine List.eq_nil_iff_forall_not_mem.mpr fun m hm => ?_
      have hmem : m ∈ s.pending.list := by rw [hpending]; exact List.mem_append_right _ hm
      exact (hs.inv.callPlaced call hcall).early (Or.inr hstage) _
        (hs.inv.accounted.mem_added hmem) (hown m hm)
    subst hnil
    refine ⟨⟨[{ call.message with
      pendingSentTimestamp := now
      pendingExpirationTimestamp := now + call.message.callbackTimeout }], le_rfl, ?_, ?_⟩,
      hw.absent, hw.sweep, hw.delivery, hw.callbacks, hw.idle⟩
    · rintro m hm
      rw [List.mem_singleton.mp hm]
    · simp [goOn, tr50PendingAdd, hpending]
  · split_ifs at h <;> obtain rfl := Option.some.inj h <;> exact hsame _ rfl rfl rfl rfl
  · split_ifs at h <;> obtain rfl := Option.some.inj h <;> exact hsame _ rfl rfl rfl rfl
  · unfold apiRemove at h
    split_ifs at h
    rcases findAndRemove_cases s.pending call.message.seqId with ⟨hfind, -⟩ | ⟨m, hm, hid, hfind⟩
    · rw [hfind] at h
      obtain rfl := Option.some.inj h
      exact hsame _ rfl rfl rfl rfl
    · rw [hfind] at h
      obtain rfl := Option.some.inj h
      have hhandle := hs.ids.call call hcall m hm hid
      have hmem : m ∈ own := by
        rw [hpending] at hm
        exact (List.mem_append.mp hm).resolve_left fun hm => hw.absent m hm hhandle
      obtain rfl : own = [m] := by
        rcases nil_or_singleton hlength with rfl | ⟨m', rfl⟩
        · exact absurd hmem List.not_mem_nil
        · rw [List.mem_singleton.mp hmem]
      refine ⟨⟨[], Nat.zero_le _, by simp, ?_⟩, hw.absent, hw.sweep, hw.delivery, hw.callbacks,
        hw.idle⟩
      simp only [leave, tr50PendingLinklistRemove, hpending]
      rw [List.eraseP_append_right]
      · simp
      · exact fun m' hm' => by simpa [hhandle] using hw.absent m' hm'
  · cases h

/-- A reply is handled alike without the message, or it takes the message. -/
theorem Without.receive {handle : ℕ} (hw : Without handle s s') {topic data : List UInt8}
    (h : s.receive inflate topic data = some t) :
    (∃ p ∈ t.history.unlinked, p.1.1 = handle ∧ p.2 ≠ .call)
    ∨ ∃ t', s'.receive inflate topic data = some t' ∧ Without handle t t' := by
  obtain ⟨own, hlength, hown, hpending⟩ := hw.pending
  unfold Tr50Client.receive at h ⊢
  rw [hw.delivery]
  split at h
  · cases h
  · rename_i hdelivery
    rw [if_neg hdelivery]
    split at h
    · rename_i seqId data' _
      split at h
      · rename_i hfree
        have hfree' : s'.PendingFree false := by
          have hidle : s.sweep = .idle := by simpa [PendingFree] using hfree
          simp [PendingFree, hw.sweep, hidle, forgetSweep]
        simp only [if_pos hfree']
        simp only [tr50PendingFindAndRemove, hpending, List.find?_append] at h ⊢
        cases hfind : s'.pending.list.find? fun m => m.seqId = seqId with
        | some m =>
          have hm := List.mem_of_find?_eq_some hfind
          rw [hfind] at h
          obtain rfl := Option.some.inj h
          refine Or.inr ⟨_, rfl, ⟨own, hlength, hown, ?_⟩, fun m' hm' =>
            hw.absent m' (List.mem_of_mem_eraseP hm'), hw.sweep, rfl, hw.callbacks, hw.idle⟩
          exact remove_append_own hm
        | none =>
          rw [hfind, Option.none_or] at h
          cases hfind' : own.find? fun m => m.seqId = seqId with
          | some m =>
            rw [hfind'] at h
            obtain rfl := Option.some.inj h
            exact Or.inl ⟨_, List.mem_cons_self, hown m (List.mem_of_find?_eq_some hfind'), by simp⟩
          | none =>
            rw [hfind'] at h
            obtain rfl := Option.some.inj h
            exact Or.inr ⟨s', rfl, hw⟩
      · cases h
    all_goals
      obtain rfl := Option.some.inj h
      exact Or.inr ⟨s', rfl, hw⟩

/-- The sweep treats every other message alike without the message, and the message on its own. -/
theorem Without.visitMessage {handle : ℕ} (hw : Without handle s s') {now : ℤ} {m : Tr50Message κ}
    (hm : m ∈ s'.pending.list) : Without handle (s.visitMessage now m) (s'.visitMessage now m) := by
  obtain ⟨own, hlength, hown, hpending⟩ := hw.pending
  have hnext : tr50PendingNext s'.pending.list m.handle
      = forget handle (tr50PendingNext s.pending.list m.handle) := by
    rw [hpending]
    exact next_append_own hlength hown hw.absent hm
  unfold Tr50Client.visitMessage
  simp only [hnext]
  cases tr50PendingJudge now m with
  | keep => exact ⟨hw.pending, hw.absent, rfl, hw.delivery, hw.callbacks, hw.idle⟩
  | reschedule =>
    refine ⟨⟨own, hlength, hown, ?_⟩, fun m' hm' => ?_, rfl, hw.delivery, hw.callbacks, hw.idle⟩
    · simp only [tr50PendingReschedule, hpending, List.map_append, Tr50Pending.mk.injEq, and_true]
      refine congrArg _ ((List.map_congr_left fun m' hm' => if_neg fun h => ?_).trans
        (List.map_id own))
      exact hw.absent m hm (h.symm.trans (hown m' hm'))
    · obtain ⟨m₀, hm₀, rfl⟩ := List.mem_map.mp hm'
      split_ifs <;> exact hw.absent m₀ hm₀
  | expire =>
    refine ⟨⟨own, hlength, hown, ?_⟩, fun m' hm' => hw.absent m' (List.mem_of_mem_eraseP hm'), ?_,
      hw.delivery, ?_, hw.idle⟩
    · simp only [hpending, remove_append_own hm]
      rfl
    · cases m.callback <;> rfl
    · simp only [hw.callbacks]

theorem Without.visit {handle : ℕ} (hw : Without handle s s') (h : s.visit = some t) :
    (∃ p ∈ t.history.unlinked, p.1.1 = handle ∧ p.2 ≠ .call)
    ∨ s.sweep.next = some handle ∧ Without handle t s'
    ∨ s.sweep.next ≠ some handle ∧ ∃ t', s'.visit = some t' ∧ Without handle t t' := by
  obtain ⟨own, hlength, hown, hpending⟩ := hw.pending
  have hsweep := hw.sweep
  unfold Tr50Client.visit at h ⊢
  split at h
  · rename_i now x hscan
    rw [hscan] at hsweep
    obtain ⟨m, hfind, rfl⟩ := Option.map_eq_some_iff.mp h
    have hhandle : m.handle = x := by simpa using List.find?_some hfind
    have hm : m ∈ s'.pending.list ++ own := by
      have := List.mem_of_find?_eq_some hfind
      rwa [hpending] at this
    by_cases hx : x = handle
    · -- the sweep is at the message itself
      subst hx
      have hmem : m ∈ own := (List.mem_append.mp hm).resolve_left fun hm => hw.absent m hm hhandle
      have hnext : tr50PendingNext s.pending.list m.handle = none := by
        rw [hpending, hhandle]
        exact next_own hlength hw.absent
      have hsweep' : s'.sweep = .scan now none := by simpa [forgetSweep, forget] using hsweep
      have hat : s.sweep.next = some x := by rw [hscan]; rfl
      unfold Tr50Client.visitMessage
      simp only [hnext]
      cases tr50PendingJudge now m with
      | keep =>
        exact Or.inr (Or.inl ⟨hat, hw.pending, hw.absent, hsweep', hw.delivery, hw.callbacks,
          hw.idle⟩)
      | reschedule =>
        refine Or.inr (Or.inl ⟨hat, ⟨own.map fun m' => if m'.handle = m.handle then
          { m' with pendingExpirationTimestamp := now + m'.callbackTimeout } else m', ?_, ?_, ?_⟩,
          hw.absent, hsweep', hw.delivery, hw.callbacks, hw.idle⟩)
        · simpa using hlength
        · intro m' hm'
          obtain ⟨m₀, hm₀, rfl⟩ := List.mem_map.mp hm'
          split_ifs <;> exact hown m₀ hm₀
        · simp only [tr50PendingReschedule, hpending, List.map_append, List.length_map,
            Tr50Pending.mk.injEq, and_true, List.append_left_inj]
          refine (List.map_congr_left fun m' hm' => if_neg fun h => ?_).trans (List.map_id _)
          exact hw.absent m' hm' (h.trans hhandle)
      | expire => exact Or.inl ⟨_, List.mem_cons_self, hhandle, by simp⟩
    · have hmem : m ∈ s'.pending.list :=
        (List.mem_append.mp hm).resolve_right fun hm => hx (hhandle.symm.trans (hown m hm))
      have hfind' : (s'.pending.list.find? fun m => m.handle = x) = some m := by
        rw [hpending, List.find?_append] at hfind
        cases h : s'.pending.list.find? fun m => m.handle = x with
        | some m' =>
          rw [h] at hfind
          exact hfind
        | none =>
          exact absurd hhandle (by simpa using List.find?_eq_none.mp h m hmem)
      have hsweep' : s'.sweep = .scan now (some x) := by
        simpa [forgetSweep, forget, hx] using hsweep
      refine Or.inr (Or.inr ⟨fun hat => hx ?_, _, ?_, hw.visitMessage hmem⟩)
      · rw [hscan] at hat
        exact Option.some.inj hat
      · rw [hsweep']
        simp only [hfind', Option.map_some]
  · rename_i now hscan
    rw [hscan] at hsweep
    obtain rfl := Option.some.inj h
    have hsweep' : s'.sweep = .scan now none := hsweep
    refine Or.inr (Or.inr ⟨by simp [hscan, Sweep.next], { s' with sweep := .idle },
      by rw [hsweep'], hw.pending, hw.absent, rfl, hw.delivery, hw.callbacks, hw.idle⟩)
  · cases h

/-- **What happens elsewhere while the call is in progress happens without it too**, and what the
call does is not seen, as long as neither the reply nor the sweep has taken its message. -/
theorem Without.step (hw : Without call.message.handle s s') (hs : SubmitInv s)
    (hcall : s.call = some call) (h : s.step inflate a = some t) :
    (∃ p ∈ t.history.unlinked, p.1.1 = call.message.handle ∧ p.2 ≠ .call)
    ∨ ¬ Elsewhere call.message.handle s a ∧ Without call.message.handle t s'
    ∨ Elsewhere call.message.handle s a
      ∧ ∃ t', s'.step inflate a = some t' ∧ Without call.message.handle t t' := by
  cases a with
  | api => simp [Tr50Client.step, apiEnter, hcall] at h
  | msgIdNext => simp [Tr50Client.step, hcall] at h
  | lifecycle => simp [Tr50Client.step, hcall] at h
  | receive topic data =>
    rcases hw.receive h with h | ⟨t', ht', hw'⟩
    · exact Or.inl h
    · exact Or.inr (Or.inr ⟨trivial, t', ht', hw'⟩)
  | deliver =>
    obtain ⟨d, hdelivery, rfl⟩ := Option.map_eq_some_iff.mp h
    refine Or.inr (Or.inr ⟨trivial, { s' with
      delivery := none
      history.callbacks := tr50HandleReply d ++ s'.history.callbacks }, ?_,
      hw.pending, hw.absent, hw.sweep, rfl, ?_, hw.idle⟩)
    · rw [Tr50Client.step, deliver, hw.delivery, hdelivery]
      rfl
    · simp only [hw.callbacks]
  | sweep now =>
    obtain ⟨own, hlength, hown, hpending⟩ := hw.pending
    simp only [Tr50Client.step] at h
    split_ifs at h with hidle
    obtain rfl := Option.some.inj h
    refine Or.inr (Or.inr ⟨trivial,
      { s' with sweep := .scan now (tr50PendingHead s'.pending.list) }, ?_,
      ⟨own, hlength, hown, hpending⟩, hw.absent, ?_, hw.delivery, hw.callbacks, hw.idle⟩)
    · rw [Tr50Client.step, if_pos (by rw [hw.sweep, hidle]; rfl)]
    · simp only [forgetSweep, hpending, Sweep.scan.injEq, true_and]
      exact head_append_own _ own hlength hown hw.absent
  | visit =>
    rcases hw.visit h with h | ⟨hat, h⟩ | h
    · exact Or.inl h
    · exact Or.inr (Or.inl ⟨fun helse => helse hat, h⟩)
    · exact Or.inr (Or.inr h)
  | callbackReturn =>
    have h : s.callbackReturn = some t := h
    have hsweep := hw.sweep
    unfold callbackReturn at h
    split at h
    · rename_i now next hcallback
      rw [hcallback] at hsweep
      split_ifs at h
      obtain rfl := Option.some.inj h
      refine Or.inr (Or.inr ⟨trivial,
        { s' with sweep := .scan now (forget call.message.handle next) }, ?_,
        hw.pending, hw.absent, rfl, hw.delivery, hw.callbacks, hw.idle⟩)
      rw [Tr50Client.step, callbackReturn, hsweep]
      simp [forgetSweep, hw.idle]
    · cases h
  | payload | add | compress | publish | remove =>
    simp only [Tr50Client.step, hcall] at h
    exact Or.inr (Or.inl ⟨id, hw.apiStep hs hcall h⟩)

end Call

/-- At the start of a call its message is nowhere. -/
theorem Without.enter {inflate : List UInt8 → Option (List UInt8)} {s t : Tr50Client κ}
    {inSweep : Bool} {messageType : MessageType} {timeout : ℤ} {callback : Option κ}
    (hs : SubmitInv s) (h : s.step inflate (.api inSweep messageType timeout callback) = some t) :
    Without s.nextHandle t s := by
  have habsent : ∀ m ∈ s.pending.list, m.handle ≠ s.nextHandle := fun m hm =>
    (hs.inv.accounted.fresh _ (hs.inv.accounted.mem_added hm)).ne
  have hnext : s.sweep.next ≠ some s.nextHandle := fun h => by
    obtain ⟨m, hm, heq⟩ := List.mem_map.mp (hs.cursor.mem _ h)
    exact habsent m hm heq
  have hsweep : s.sweep = forgetSweep s.nextHandle s.sweep := by
    cases hsweep : s.sweep with
    | idle => rfl
    | scan now next =>
      rw [hsweep] at hnext
      exact congrArg (Sweep.scan now) (if_neg hnext).symm
    | callback now next =>
      rw [hsweep] at hnext
      exact congrArg (Sweep.callback now) (if_neg hnext).symm
  have hsame : ∀ t : Tr50Client κ, t.pending = s.pending → t.sweep = s.sweep →
      t.delivery = s.delivery → t.history.callbacks = s.history.callbacks → s.call = none →
      Without s.nextHandle t s := fun t h1 h2 h3 h4 h5 =>
    ⟨⟨[], Nat.zero_le _, by simp, by simp [h1]⟩, habsent, h2 ▸ hsweep, h3.symm, h4.symm, h5⟩
  simp only [Tr50Client.step, apiEnter] at h
  split_ifs at h with hcall
  all_goals
    obtain rfl := Option.some.inj h
    exact hsame _ rfl rfl rfl rfl (Option.not_isSome_iff_eq_none.mp hcall)

end Tr50Client

end Tr50
