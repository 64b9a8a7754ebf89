import Tr50.Api.LinkedClient

/-!
# Api/Shown — what the pointers of the client's list show

Read through its pointers, and with the number of the last call with a message in place of its
address, `LinkedClient` is `Tr50Client`: as long as a message is only added where its stale pointer
does no harm, the one can take a step exactly where the other can, and what they become are alike
again (`View.step`).
-/

namespace Tr50

open Machinery

variable {κ : Type}

/-! ## Renaming -/

/-- A list with other handles. -/
def Tr50Pending.rename (f : ℕ → ℕ) (pending : Tr50Pending κ) : Tr50Pending κ :=
  { pending with list := pending.list.map (·.rename f) }

section Rename

variable {f : ℕ → ℕ} {q : Tr50Pending κ} {m : Tr50Message κ}

@[simp] theorem handles_rename : (q.rename f).handles = q.handles.map f := by
  simp [Tr50Pending.rename, Tr50Pending.handles, Tr50Message.rename, Function.comp_def]

theorem rename_congr {g : ℕ → ℕ} (h : ∀ x ∈ q.handles, f x = g x) : q.rename f = q.rename g := by
  have hlist : q.list.map (·.rename f) = q.list.map (·.rename g) :=
    List.map_congr_left fun m hm => by
      rw [Tr50Message.rename, Tr50Message.rename, h m.handle (List.mem_map_of_mem hm)]
  rw [Tr50Pending.rename, Tr50Pending.rename, hlist]

theorem rename_add (now : ℤ) :
    tr50PendingAdd (q.rename f) (m.rename f) now = (tr50PendingAdd q m now).rename f := by
  simp [tr50PendingAdd, Tr50Pending.rename, Tr50Message.rename]

theorem rename_head : tr50PendingHead (q.rename f).list = (tr50PendingHead q.list).map f := by
  rw [Tr50Pending.rename]
  cases q.list <;> rfl

/-- Where a message is, it is under other handles too. -/
theorem rename_split {list list' : List (Tr50Message κ)} (hsplit : q.list = list ++ m :: list') :
    (q.rename f).list = list.map (·.rename f) ++ m.rename f :: list'.map (·.rename f) := by
  rw [Tr50Pending.rename, hsplit, List.map_append, List.map_cons]

/-- What is left around a message that is taken out. -/
theorem remove_split {list list' : List (Tr50Message κ)} (hsplit : q.list = list ++ m :: list')
    (hnodup : q.handles.Nodup) : (tr50PendingLinklistRemove q m).list = list ++ list' := by
  rw [Tr50Pending.handles, hsplit] at hnodup
  rw [tr50PendingLinklistRemove, hsplit, LinkedPending.eraseP_split hnodup]

variable (hnodup : (q.rename f).handles.Nodup)
include hnodup

/-- What stays apart has been apart. -/
theorem nodup_of_rename : q.handles.Nodup := by
  rw [handles_rename] at hnodup
  exact hnodup.of_map f

theorem rename_remove (hm : m ∈ q.list) :
    tr50PendingLinklistRemove (q.rename f) (m.rename f)
      = (tr50PendingLinklistRemove q m).rename f := by
  obtain ⟨list, list', hsplit⟩ := List.append_of_mem hm
  have hlist : (tr50PendingLinklistRemove (q.rename f) (m.rename f)).list
      = (tr50PendingLinklistRemove q m).list.map (·.rename f) := by
    rw [remove_split (rename_split hsplit) hnodup, remove_split hsplit (nodup_of_rename hnodup),
      List.map_append]
  exact congrArg (fun list => (⟨list, q.count - 1, q.expiredCount⟩ : Tr50Pending κ)) hlist

theorem rename_next (hm : m ∈ q.list) :
    tr50PendingNext (q.rename f).list (m.rename f).handle
      = (tr50PendingNext q.list m.handle).map f := by
  obtain ⟨list, list', hsplit⟩ := List.append_of_mem hm
  have hbefore := nodup_of_rename hnodup
  rw [Tr50Pending.handles, hsplit] at hbefore
  rw [Tr50Pending.handles, rename_split hsplit] at hnodup
  rw [rename_split hsplit, LinkedPending.next_split hnodup, hsplit,
    LinkedPending.next_split hbefore]
  cases list' <;> rfl

theorem rename_reschedule (hm : m ∈ q.list) (now : ℤ) :
    tr50PendingReschedule (q.rename f) (m.rename f).handle now
      = (tr50PendingReschedule q m.handle now).rename f := by
  obtain ⟨list, list', hsplit⟩ := List.append_of_mem hm
  have hlist : (tr50PendingReschedule (q.rename f) (m.rename f).handle now).list
      = ((tr50PendingReschedule q m.handle now).rename f).list := by
    rw [LinkedPending.reschedule_split (rename_split hsplit) hnodup,
      rename_split (LinkedPending.reschedule_split hsplit (nodup_of_rename hnodup) now)]
    rfl
  exact congrArg (fun list => (⟨list, q.count, q.expiredCount⟩ : Tr50Pending κ)) hlist

/-- A message is found by its id under any handle. -/
theorem rename_findAndRemove (hash : ℤ) :
    tr50PendingFindAndRemove (q.rename f) hash
      = ((tr50PendingFindAndRemove q hash).1.map (·.rename f),
        (tr50PendingFindAndRemove q hash).2.rename f) := by
  have hfind : ((q.rename f).list.find? fun m => m.seqId = hash)
      = (q.list.find? fun m => m.seqId = hash).map (·.rename f) := by
    rw [Tr50Pending.rename, List.find?_map]
    rfl
  rw [tr50PendingFindAndRemove, hfind, tr50PendingFindAndRemove]
  cases h : q.list.find? fun m => m.seqId = hash with
  | none => rfl
  | some m => exact Prod.ext rfl (rename_remove hnodup (List.mem_of_find?_eq_some h))

/-- …and by its handle. -/
theorem rename_find (hm : m ∈ q.list) :
    ((q.rename f).list.find? fun m' => m'.handle = (m.rename f).handle) = some (m.rename f) := by
  obtain ⟨list, list', hsplit⟩ := List.append_of_mem hm
  rw [Tr50Pending.handles, rename_split hsplit, List.map_append, List.nodup_append] at hnodup
  rw [rename_split hsplit, List.find?_append, List.find?_eq_none.mpr fun m' hm' => ?_,
    Option.none_or, List.find?_cons_of_pos (by simp)]
  simpa using hnodup.2.2 m'.handle (List.mem_map_of_mem hm') (m.rename f).handle (by simp)

end Rename

/-- The pointers show one list only. -/
theorem LinkedPending.Refines.unique {p : LinkedPending κ} {q q' : Tr50Pending κ}
    (h : p.Refines q) (h' : p.Refines q') : q = q' := by
  have hinjective : Function.Injective fun m : Tr50Message κ => (m.handle, m) :=
    fun _ _ heq => (Prod.mk.inj heq).2
  have hlist : q.list = q'.list :=
    List.map_injective_iff.mpr hinjective (h.links.unique h'.links)
  cases q
  cases q'
  exact congr (congrArg₂ Tr50Pending.mk hlist (h.count.symm.trans h'.count))
    (h.expiredCount.symm.trans h'.expiredCount)

/-! ## What the pointers show -/

/-- A call with a message under another handle. -/
def ApiCall.rename (f : ℕ → ℕ) (call : ApiCall κ) : ApiCall κ :=
  { call with message := call.message.rename f }

/-- The sweep, with the pointer it has saved under another handle. -/
def PendingSweep.rename (f : ℕ → ℕ) : PendingSweep → Sweep
  | .idle => .idle
  | .scan now next => .scan now (next.map f)
  | .callback now _ next => .callback now (next.map f)

theorem PendingSweep.rename_eq_idle {f : ℕ → ℕ} {sweep : PendingSweep} :
    sweep.rename f = .idle ↔ sweep.lets false := by
  cases sweep <;> simp [PendingSweep.rename, PendingSweep.lets]

theorem PendingSweep.next_of_lets {sweep : PendingSweep} (h : sweep.lets false) :
    sweep.next = none := by
  cases sweep with
  | idle => rfl
  | scan | callback => cases h

theorem PendingSweep.inCallback_rename {f : ℕ → ℕ} {sweep : PendingSweep} :
    (sweep.rename f).inCallback = sweep.lets true := by
  cases sweep <;> rfl

theorem PendingSweep.next_rename {f : ℕ → ℕ} {sweep : PendingSweep} :
    (sweep.rename f).next = sweep.next.map f := by
  cases sweep <;> rfl

theorem PendingSweep.rename_congr {f g : ℕ → ℕ} {sweep : PendingSweep}
    (h : ∀ x, sweep.next = some x → f x = g x) : sweep.rename f = sweep.rename g := by
  cases sweep with
  | idle => rfl
  | scan now next => exact congrArg (Sweep.scan now) (Option.map_congr h)
  | callback now message next => exact congrArg (Sweep.callback now) (Option.map_congr h)

/-- The step of `Tr50Client` that it is, but for what applications do with their messages. -/
def OwnerAction.shown : OwnerAction κ → Option (Action κ)
  | .create _ | .discard _ => none
  | .api _ inSweep messageType timeout callback =>
      some (.api inSweep messageType timeout callback)
  | .step a => some a

namespace LinkedClient

/-- The call from its adding on, as `CallSystem` has it. -/
def publishing (s : LinkedClient κ) : Option Publishing :=
  s.call.bind fun call =>
    if call.stage = .payload ∨ call.stage = .add then none
    else some ⟨call.inSweep, call.message.handle, call.message.seqId⟩

/-- The list, and where messages are: the state of `CallSystem`. -/
def calls (s : LinkedClient κ) : CallSystem κ :=
  ⟨s.pending, s.sweep, s.publishing, s.owned, s.delivery.toList.map (·.request.handle), s.created⟩

/-- The client that has the list `q`, and numbers for addresses. -/
def client (s : LinkedClient κ) (q : Tr50Pending κ) : Tr50Client κ where
  stopped := s.stopped
  isStopping := s.isStopping
  seqId := s.seqId
  nextHandle := s.submissions
  call := s.call.map (·.rename s.number)
  pending := q.rename s.number
  sweep := s.sweep.rename s.number
  delivery := s.delivery.map (·.rename s.number)
  history := s.history

/-- The pointers are those of `q`, and the call in progress has the message it thinks it has. -/
structure View (s : LinkedClient κ) (q : Tr50Pending κ) : Prop where
  sound : s.calls.Sound q
  /-- The number of a call is that of no other message… -/
  apart : ∀ call ∈ s.call, ∀ x ∈ q.handles, s.number x = s.number call.message.handle →
    x = call.message.handle
  /-- …and what it has yet to add is as it has left it. -/
  filled : ∀ call ∈ s.call, call.stage = .payload ∨ call.stage = .add →
    call.message.handle ∈ s.owned ∧ ∃ previous,
      s.pending.links.node call.message.handle = some ⟨call.message, none, previous⟩

/-- What `s` shows is `c`. -/
def Shows (s : LinkedClient κ) (c : Tr50Client κ) : Prop := ∃ q, View s q ∧ c = s.client q

variable {s t : LinkedClient κ} {q : Tr50Pending κ} {call : ApiCall κ}

theorem client_call (hcall : s.call = some call) (q : Tr50Pending κ) :
    (s.client q).call = some (call.rename s.number) := congrArg (Option.map _) hcall

theorem client_idle (hcall : s.call = none) (q : Tr50Pending κ) : (s.client q).call = none :=
  congrArg (Option.map _) hcall

/-- What waits has numbers that are apart. -/
theorem nodup_shown (hc : (s.client q).SubmitInv) : (q.rename s.number).handles.Nodup :=
  hc.inv.accounted.pending_nodup

theorem view_init : View (init : LinkedClient κ) tr50PendingCreate :=
  ⟨CallSystem.sound_init, by rintro _ ⟨⟩, by rintro _ ⟨⟩⟩

/-- There are not more requests in the list than there have been messages. -/
theorem View.lt_fuel (h : View s q) : q.list.length < s.fuel := by
  have hsubset : q.handles ⊆ s.created := fun x hx =>
    h.sound.created x (CallSystem.mem_places.mpr (Or.inl hx))
  have hle := (List.subperm_of_subset h.sound.refines.nodup hsubset).length_le
  rw [Tr50Pending.handles, List.length_map] at hle
  exact Nat.lt_succ_of_le hle

/-- What is read from `list_head` on is the list. -/
theorem View.walk (h : View s q) :
    s.pending.links.walk s.fuel s.pending.links.head = byHandle q.list := by
  have hhead : s.pending.links.head = _ := h.sound.refines.links.head
  rw [hhead]
  refine Links.walk_spec h.sound.refines.links.segment ?_
  rw [byHandle, List.length_map]
  exact h.lt_fuel.le

theorem View.requests (h : View s q) : s.requests = (q.rename s.number).list := by
  rw [LinkedClient.requests, h.walk, byHandle, List.map_map]
  rfl

/-! ## The calls -/

/-- The call goes on, with nothing to add or with what it had. -/
theorem View.goOn (h : View s q) (hcall : s.call = some call) {stage : Stage}
    (hsame : (stage = .payload ∨ stage = .add) ↔ (call.stage = .payload ∨ call.stage = .add)) :
    View (s.goOn call stage) q := by
  have hpublishing : (s.goOn call stage).publishing = s.publishing := by
    simp [publishing, LinkedClient.goOn, hcall, hsame]
  have hcalls : (s.goOn call stage).calls = s.calls := by
    rw [calls, hpublishing]
    rfl
  refine ⟨hcalls ▸ h.sound, ?_, ?_⟩
  · rintro _ ⟨⟩
    exact h.apart call hcall
  · rintro _ ⟨⟩ hstage
    exact h.filled call hcall (hsame.mp hstage)

/-- The call returns. -/
theorem View.leave (h : View s q) (call : ApiCall κ) (ret : ℤ) : View (s.leave call ret) q :=
  ⟨h.sound.done, by rintro _ ⟨⟩, by rintro _ ⟨⟩⟩

/-- The list is open to a call where it is open to it in what the pointers show. -/
theorem lets_iff (hcursor : (s.client q).Cursor) (hcall : s.call = some call) :
    (s.client q).PendingFree (call.rename s.number).inSweep ↔ s.sweep.lets call.inSweep := by
  change (s.client q).PendingFree call.inSweep ↔ _
  cases hin : call.inSweep with
  | false =>
    exact ⟨fun h => PendingSweep.rename_eq_idle.mp (h.resolve_left (by simp)),
      fun h => Or.inr (PendingSweep.rename_eq_idle.mpr h)⟩
  | true =>
    refine ⟨fun _ => ?_, fun _ => Or.inl rfl⟩
    have hcallback := (hcursor.call _ (client_call hcall q) hin).1
    exact PendingSweep.inCallback_rename.symm.trans hcallback

/-- **The message of a call is added**, a new one or one that a failed call has left, where its
stale pointer does no harm. -/
theorem View.apiAdd (h : View s q) (hcursor : (s.client q).Cursor) (hcall : s.call = some call)
    (hstage : call.stage = .add) (hgood : s.calls.Resubmittable call.message.handle) (now : ℤ) :
    Option.Rel Shows (s.apiAdd call now) ((s.client q).apiAdd (call.rename s.number) now) := by
  rw [LinkedClient.apiAdd, Tr50Client.apiAdd]
  by_cases hfree : s.sweep.lets call.inSweep
  swap
  · rw [if_neg hfree, if_neg fun hc => hfree ((lets_iff hcursor hcall).mp hc)]
    exact .none
  rw [if_pos hfree, if_pos ((lets_iff hcursor hcall).mpr hfree)]
  obtain ⟨howned, previous, hnode⟩ := h.filled call hcall (Or.inr hstage)
  have hnode : s.calls.pending.links.node call.message.handle
      = some ⟨call.message, none, previous⟩ := hnode
  obtain ⟨herased, hout⟩ := h.sound.erase_returned howned
  have hfirst : q.list = [] → previous = none := fun hnil => by
    have hbefore := h.sound.resubmittable_iff.mp hgood hnil
    rwa [hnode] at hbefore
  obtain ⟨pending, hadd, hsound⟩ := herased.add hout
    (h.sound.created _ (CallSystem.mem_places.mpr (Or.inr (Or.inr (Or.inl howned))))) hnode hfirst
    call.inSweep hfree now
  have hadd : s.pending.add call.message.handle now = some pending := hadd
  rw [hadd, Option.map_some]
  refine .some ⟨tr50PendingAdd q call.message now, ⟨?_, ?_, ?_⟩, ?_⟩
  · cases htype : call.message.messageType <;> exact hsound
  · rintro _ ⟨⟩ x hx hnumber
    rw [Tr50Pending.handles, tr50PendingAdd, List.map_append, List.mem_append] at hx
    rcases hx with hx | hx
    · exact h.apart call hcall x hx hnumber
    · exact List.mem_singleton.mp hx
  · rintro _ ⟨⟩ hearly
    cases htype : call.message.messageType <;> simp [htype] at hearly
  · simp only [LinkedClient.client, LinkedClient.goOn, Tr50Client.goOn, ← rename_add]
    rfl

/-- What is found by an id, in the memory and in the list. -/
theorem View.find (h : View s q) (hash : ℤ) :
    (s.pending.findAndRemove s.fuel hash = some (none, s.pending)
      ∧ tr50PendingFindAndRemove q hash = (none, q))
    ∨ ∃ m ∈ q.list, m.seqId = hash
      ∧ tr50PendingFindAndRemove q hash = (some m, tr50PendingLinklistRemove q m)
      ∧ ∃ pending n, s.pending.findAndRemove s.fuel hash = some (some m.handle, pending)
        ∧ pending.links.node m.handle = some n ∧ n.value = m
        ∧ n.next = tr50PendingNext q.list m.handle
        ∧ (∀ x ∈ s.owned, pending.links.node x = s.pending.links.node x)
        ∧ (s.sweep.next ≠ some m.handle →
          CallSystem.Sound { s.calls with pending } (tr50PendingLinklistRemove q m)
          ∧ m.handle ∉ CallSystem.places { s.calls with pending } (tr50PendingLinklistRemove q m)
          ∧ m.handle ∈ s.created) := by
  obtain ⟨pending, hfind, hrefines, hsame, hframe⟩ :=
    LinkedPending.findAndRemove_refines h.sound.refines hash h.lt_fuel
  rcases findAndRemove_cases q hash with ⟨hnone, -⟩ | ⟨m, hm, hid, hsome⟩
  · rw [hnone] at hfind hsame
    obtain rfl := hsame rfl
    exact Or.inl ⟨hfind, hnone⟩
  · rw [hsome] at hfind hrefines hframe
    obtain ⟨n, hnode, hvalue, hnext⟩ := h.sound.refines.node hm
    have hkept := hframe m.handle (LinkedPending.notMem_handles_remove h.sound.refines.nodup)
    have hsub := LinkedPending.handles_remove_sublist (m := m) h.sound.refines.nodup
    exact Or.inr ⟨m, hm, hid, hsome, pending, n, hfind, hkept.trans hnode, hvalue, hnext,
      fun x hx => hframe x fun hin => h.sound.notMem_handles hx (hsub.subset hin),
      fun hapart => h.sound.unlink hm hrefines hframe hapart⟩

/-- What a call finds whose publish has failed is its own message. -/
theorem View.own (h : View s q) (hc : (s.client q).SubmitInv) (hcall : s.call = some call)
    {m : Tr50Message κ} (hm : m ∈ q.list) (hid : m.seqId = call.message.seqId) :
    m.handle = call.message.handle := by
  refine h.apart call hcall m.handle (List.mem_map_of_mem hm) ?_
  have hmem : m.rename s.number ∈ (s.client q).pending.list := List.mem_map_of_mem hm
  exact hc.ids.call _ (client_call hcall q) _ hmem hid

/-- **A call whose publish has failed takes its message back**, if that is still there; that of
`tr50_api_call_async` is its caller's again. -/
theorem View.apiRemove (h : View s q) (hc : (s.client q).SubmitInv) (hcall : s.call = some call)
    {ret : ℤ} (hstage : call.stage = .remove ret) :
    Option.Rel Shows (s.apiRemove call ret)
      ((s.client q).apiRemove (call.rename s.number) ret) := by
  rw [LinkedClient.apiRemove, Tr50Client.apiRemove]
  by_cases hfree : s.sweep.lets call.inSweep
  swap
  · rw [if_neg hfree, if_neg fun hc' => hfree ((lets_iff hc.cursor hcall).mp hc')]
    exact .none
  rw [if_pos hfree, if_pos ((lets_iff hc.cursor hcall).mpr hfree)]
  have hrename : tr50PendingFindAndRemove (s.client q).pending
      (call.rename s.number).message.seqId = _ :=
    rename_findAndRemove (nodup_shown hc) call.message.seqId
  rcases h.find call.message.seqId with
    ⟨hfind, hnone⟩ | ⟨m, hm, hid, hsome, pending, n, hfind, hnode, hvalue, hbehind, -, hsound⟩
  · rw [hrename, hfind, hnone]
    exact .some ⟨q, h.leave call 0, rfl⟩
  · have hown := h.own hc hcall hm hid
    have hpublishing : (⟨call.inSweep, call.message.handle, call.message.seqId⟩ : Publishing)
        ∈ s.calls.call := by
      simp [calls, publishing, hcall, hstage]
    have hnext : s.sweep.next ≠ some m.handle := fun heq => by
      cases hin : call.inSweep with
      | true => exact (h.sound.own _ hpublishing hin).2 (hown ▸ heq)
      | false =>
        rw [hin] at hfree
        exact absurd heq (by simp [PendingSweep.next_of_lets hfree])
    obtain ⟨hsound, hout, hcreated⟩ := hsound hnext
    have hlast : q.handles.getLast? = some m.handle :=
      hown ▸ h.sound.last _ hpublishing (hown ▸ List.mem_map_of_mem hm)
    have hnone : n.next = none := hbehind.trans
      (LinkedPending.next_last h.sound.refines.nodup hlast)
    rw [hrename, hfind, hsome, Option.bind_some]
    simp only [hnode, Option.map_some]
    cases htype : call.message.messageType with
    | obj =>
      refine .some ⟨tr50PendingLinklistRemove q m, ⟨?_, by rintro _ ⟨⟩, by rintro _ ⟨⟩⟩, ?_⟩
      · rw [← hown]
        exact hsound.done.give hout hcreated ⟨n, hnode, hnone⟩
      · rw [← hvalue]
        rfl
    | raw =>
      refine .some ⟨tr50PendingLinklistRemove q m, ⟨?_, by rintro _ ⟨⟩, by rintro _ ⟨⟩⟩, ?_⟩
      · exact hsound.done.delete hout
      · rw [← hvalue]
        rfl

/-- A step of the call in progress. -/
theorem View.apiStep (h : View s q) (hc : (s.client q).SubmitInv) (hcall : s.call = some call)
    {a : Action κ}
    (hadd : ∀ now, a = .add now → s.calls.Resubmittable call.message.handle)
    (hcompress : ∀ ret, a = .compress ret → ret = 0) :
    Option.Rel Shows (s.apiStep call call.stage a)
      ((s.client q).apiStep (call.rename s.number) call.stage a) := by
  cases hstage : call.stage with
  | payload =>
    cases a with
    | payload ret =>
      rw [LinkedClient.apiStep, Tr50Client.apiStep]
      split_ifs
      · exact .some ⟨q, h.leave call ret, rfl⟩
      · exact .some ⟨q, h.goOn hcall (by simp [hstage]), rfl⟩
    | _ => exact .none
  | add =>
    cases a with
    | add now => exact h.apiAdd hc.cursor hcall hstage (hadd now rfl) now
    | _ => exact .none
  | compress =>
    cases a with
    | compress ret =>
      rw [LinkedClient.apiStep, Tr50Client.apiStep, if_neg (not_not_intro (hcompress ret rfl)),
        if_neg (not_not_intro (hcompress ret rfl))]
      exact .some ⟨q, h.goOn hcall (by simp [hstage]), rfl⟩
    | _ => exact .none
  | publish =>
    cases a with
    | publish ret =>
      rw [LinkedClient.apiStep, Tr50Client.apiStep]
      split_ifs
      · exact .some ⟨q, h.goOn hcall (by simp [hstage]), rfl⟩
      · exact .some ⟨q, h.leave call 0, rfl⟩
    | _ => exact .none
  | remove ret =>
    cases a with
    | remove => exact h.apiRemove hc hcall hstage
    | _ => exact .none

/-! ## Replies -/

/-- What is not the call's stays as it is. -/
theorem View.frame (h : View s q) {q' : Tr50Pending κ} (hsound : t.calls.Sound q')
    (hcall : t.call = s.call) (howned : t.owned = s.owned) (hnumber : t.number = s.number)
    (hsub : q'.handles ⊆ q.handles)
    (hframe : ∀ x ∈ s.owned, t.pending.links.node x = s.pending.links.node x) : View t q' := by
  refine ⟨hsound, fun call hc x hx => ?_, fun call hc hstage => ?_⟩
  · rw [hnumber]
    exact h.apart call (hcall ▸ hc) x (hsub hx)
  · obtain ⟨hmem, previous, hnode⟩ := h.filled call (hcall ▸ hc) hstage
    exact ⟨howned ▸ hmem, previous, (hframe _ hmem).trans hnode⟩

/-- **The receive thread takes out the same request.** -/
theorem View.receive (h : View s q) (hc : (s.client q).SubmitInv)
    (inflate : List UInt8 → Option (List UInt8)) (topic data : List UInt8) :
    Option.Rel Shows (s.receive inflate topic data)
      ((s.client q).receive inflate topic data) := by
  rw [LinkedClient.receive, Tr50Client.receive]
  have hdelivery : (s.client q).delivery.isSome = s.delivery.isSome := Option.isSome_map
  rw [hdelivery]
  by_cases hsome : s.delivery.isSome
  · rw [if_pos hsome, if_pos hsome]
    exact .none
  rw [if_neg hsome, if_neg hsome]
  cases tr50PublishHandler inflate topic data with
  | notify => exact .some ⟨q, h, rfl⟩
  | other => exact .some ⟨q, h, rfl⟩
  | reply seqId data =>
    have hfree : (s.client q).PendingFree false ↔ s.sweep.lets false := by
      simp [Tr50Client.PendingFree, LinkedClient.client, PendingSweep.rename_eq_idle]
    simp only
    by_cases hlets : s.sweep.lets false
    swap
    · rw [if_neg hlets, if_neg (mt hfree.mp hlets)]
      exact .none
    rw [if_pos hlets, if_pos (hfree.mpr hlets)]
    have hrename : tr50PendingFindAndRemove (s.client q).pending seqId = _ :=
      rename_findAndRemove (nodup_shown hc) seqId
    rcases h.find seqId with
      ⟨hfind, hnone⟩ | ⟨m, hm, hid, hfound, pending, n, hfind, hnode, hvalue, -, hframe, hsound⟩
    · rw [hrename, hfind, hnone]
      exact .some ⟨q, h, rfl⟩
    · have hnext : s.sweep.next ≠ some m.handle := by simp [PendingSweep.next_of_lets hlets]
      obtain ⟨hsound, hout, hcreated⟩ := hsound hnext
      have hidle : s.delivery = none := Option.not_isSome_iff_eq_none.mp hsome
      rw [hrename, hfind, hfound, Option.bind_some]
      simp only [hnode, Option.map_some]
      subst hvalue
      refine .some ⟨tr50PendingLinklistRemove q n.value, h.frame ?_ rfl rfl rfl ?_ ?_, rfl⟩
      · have hhand := hsound.hand hout hcreated
        simp only [calls, hidle] at hhand
        exact hhand
      · exact (LinkedPending.handles_remove_sublist h.sound.refines.nodup).subset
      · exact hframe

/-- **…and its callback is the same.** -/
theorem View.deliver (h : View s q) :
    Option.Rel Shows s.deliver (s.client q).deliver := by
  rw [LinkedClient.deliver, Tr50Client.deliver]
  cases hdelivery : s.delivery with
  | none =>
    rw [LinkedClient.client, hdelivery]
    exact .none
  | some d =>
    have hd : (s.client q).delivery = some (d.rename s.number) := congrArg (Option.map _) hdelivery
    rw [hd, Option.map_some, Option.map_some]
    have hcalls : s.calls.delivering = [d.request.handle] := by simp [calls, hdelivery]
    obtain ⟨herased, hout⟩ := h.sound.erase_delivering (x := d.request.handle) (by simp [hcalls])
    rw [hcalls, List.erase_cons_head] at herased hout
    refine .some ⟨q, ?_, rfl⟩
    cases d.deletes with
    | false => exact h.frame herased rfl rfl rfl (List.Subset.refl _) fun _ _ => rfl
    | true =>
      refine h.frame (herased.delete hout) rfl rfl rfl (List.Subset.refl _) fun x hx => ?_
      exact Function.update_of_ne (CallSystem.ne_of_returned hout hx) _ _

/-! ## The sweep -/

/-- What the sweep makes of a message, in the memory and in the list. -/
theorem View.visitMessage_eq (h : View s q) (hc : (s.client q).SubmitInv) {m : Tr50Message κ}
    (hm : m ∈ q.list) (now : ℤ) :
    ∃ t q', s.visitMessage now m.handle = some t ∧ t.pending.Refines q'
      ∧ q'.handles ⊆ q.handles ∧ t = { s with
        pending := t.pending
        sweep := t.sweep
        history := t.history }
      ∧ (PendingSystem.visitMessage ⟨s.pending, s.sweep, [], []⟩ now m.handle).map
        (fun r => (r.pending, r.sweep)) = some (t.pending, t.sweep)
      ∧ (s.client q).visitMessage now (m.rename s.number) = t.client q' := by
  have hnodup := nodup_shown hc
  obtain ⟨n, hnode, rfl, hbehind⟩ := h.sound.refines.node hm
  have hnode : s.pending.links.node n.value.handle = some n := hnode
  have hnext : tr50PendingNext (s.client q).pending.list (n.value.rename s.number).handle
      = n.next.map s.number := by
    rw [hbehind]
    exact rename_next hnodup hm
  have hjudge : tr50PendingJudge now (n.value.rename s.number) = tr50PendingJudge now n.value := rfl
  rw [LinkedClient.visitMessage, hnode, Option.bind_some, PendingSystem.visitMessage, hnode,
    Option.bind_some, Tr50Client.visitMessage, hnext, hjudge]
  cases tr50PendingJudge now n.value with
  | keep => exact ⟨_, q, rfl, h.sound.refines, List.Subset.refl _, rfl, rfl, rfl⟩
  | reschedule =>
    obtain ⟨links, hlinks, hrefines⟩ := LinkedPending.reschedule_refines h.sound.refines hm now
    have hlinks : s.pending.links.modify n.value.handle (fun n => { n with value := { n.value with
      pendingExpirationTimestamp := now + n.value.callbackTimeout } }) = some links := hlinks
    have hhandles := handles_reschedule q n.value.handle now
    have hrename := rename_reschedule hnodup hm now
    simp only [hlinks, Option.map_some]
    refine ⟨_, tr50PendingReschedule q n.value.handle now, rfl, hrefines,
      hhandles ▸ List.Subset.refl _, rfl, rfl, ?_⟩
    simp only [LinkedClient.client, ← hrename]
    rfl
  | expire =>
    obtain ⟨pending, hremove, hrefines, -⟩ := LinkedPending.expire_refines h.sound.refines hm
    have hremove : { s.pending with expiredCount := s.pending.expiredCount + 1 }.linklistRemove
      n.value.handle = some pending := hremove
    have hsub := LinkedPending.handles_remove_sublist (m := n.value) h.sound.refines.nodup
    have hrename := rename_remove hnodup hm
    simp only [hremove, Option.map_some]
    refine ⟨_, tr50PendingLinklistRemove { q with expiredCount := q.expiredCount + 1 } n.value,
      rfl, ?_, hsub.subset, rfl, rfl, ?_⟩
    · cases n.value.callback with
      | none =>
        exact LinkedPending.messageDelete_refines hrefines
          (LinkedPending.notMem_handles_remove h.sound.refines.nodup)
      | some k => exact hrefines
    · have hcallback : (n.value.rename s.number).callback = n.value.callback := rfl
      simp only [LinkedClient.client, hrename, Tr50Message.submission, hcallback]
      cases n.value.callback <;> rfl

/-- **The sweep does the same with every message**, and goes on with the same one. -/
theorem View.visit (h : View s q) (hc : (s.client q).SubmitInv) :
    Option.Rel Shows s.visit (s.client q).visit := by
  rw [LinkedClient.visit, Tr50Client.visit]
  cases hsweep : s.sweep with
  | idle =>
    have hview : (s.client q).sweep = .idle := congrArg (PendingSweep.rename s.number) hsweep
    rw [hview]
    exact .none
  | callback now message next =>
    have hview : (s.client q).sweep = .callback now (next.map s.number) :=
      congrArg (PendingSweep.rename s.number) hsweep
    rw [hview]
    exact .none
  | scan now next =>
    have hview : (s.client q).sweep = .scan now (next.map s.number) :=
      congrArg (PendingSweep.rename s.number) hsweep
    rw [hview]
    have hquiet := h.sound.quiet (by rw [calls, hsweep]; rfl)
    cases next with
    | none =>
      obtain ⟨hsound, -⟩ := h.sound.turn .idle rfl (by rintro x ⟨⟩) hquiet
      exact .some ⟨q, h.frame hsound rfl rfl rfl (List.Subset.refl _) fun _ _ => rfl, rfl⟩
    | some handle =>
      have hin : handle ∈ q.handles := h.sound.next handle (by rw [calls, hsweep]; rfl)
      obtain ⟨m, hm, rfl⟩ := List.mem_map.mp hin
      obtain ⟨t, q', hvisit, hrefines, hsub, ht, hmemory, hshown⟩ := h.visitMessage_eq hc hm now
      obtain ⟨r, q'', hr, hrefines', hframe, -⟩ :=
        CallSystem.visitMessage_spec (r := ⟨s.pending, s.sweep, [], []⟩) h.sound.refines hm now
      rw [hr, Option.map_some] at hmemory
      obtain ⟨hpending, hturned⟩ := Prod.mk.inj (Option.some.inj hmemory)
      have hscan : s.calls.sweep = .scan now (some m.handle) := hsweep
      have hstep : s.calls.step .visit
          = some { s.calls with pending := t.pending, sweep := t.sweep } := by
        rw [hsweep] at hr
        rw [CallSystem.step, CallSystem.sweepStep, PendingSystem.step, hscan, ← hpending, ← hturned]
        exact congrArg (Option.map _) hr
      obtain ⟨u, q₁, hu, hsound⟩ := h.sound.visit hscan
      obtain rfl := Option.some.inj (hu.symm.trans hstep)
      obtain rfl := hsound.refines.unique hrefines
      have hfind : ((s.client q).pending.list.find? fun m' => m'.handle = s.number m.handle)
          = some (m.rename s.number) := rename_find (nodup_shown hc) hm
      simp only [Option.map_some, hfind, hvisit, hshown]
      rw [ht]
      refine .some ⟨q₁, h.frame hsound rfl rfl rfl hsub fun x hx => ?_, rfl⟩
      rw [← hpending]
      exact hframe x (h.sound.notMem_handles hx)

/-- The sweep begins at the head, … -/
theorem View.sweep (h : View s q) (hidle : s.sweep = .idle) (now : ℤ) :
    Shows { s with sweep := .scan now s.pending.links.head }
      { s.client q with sweep := .scan now (tr50PendingHead (s.client q).pending.list) } := by
  have hhead : s.pending.links.head = tr50PendingHead q.list :=
    h.sound.refines.links.head.trans (first_byHandle q.list)
  have hquiet := h.sound.quiet (by rw [calls, hidle]; rfl)
  obtain ⟨hsound, -⟩ := h.sound.turn (.scan now s.pending.links.head) rfl
    (fun x hx => mem_handles_of_head (hhead ▸ hx)) hquiet
  refine ⟨q, h.frame hsound rfl rfl rfl (List.Subset.refl _) fun _ _ => rfl, ?_⟩
  have hview : tr50PendingHead (s.client q).pending.list = s.pending.links.head.map s.number :=
    rename_head.trans (congrArg (Option.map s.number) hhead.symm)
  rw [hview]
  rfl

/-- …and goes on behind a callback, with its message gone. -/
theorem View.callbackReturn (h : View s q) :
    Option.Rel Shows s.callbackReturn (s.client q).callbackReturn := by
  rw [LinkedClient.callbackReturn, Tr50Client.callbackReturn]
  cases hsweep : s.sweep with
  | idle =>
    have hview : (s.client q).sweep = .idle := congrArg (PendingSweep.rename s.number) hsweep
    rw [hview]
    exact .none
  | scan now next =>
    have hview : (s.client q).sweep = .scan now (next.map s.number) :=
      congrArg (PendingSweep.rename s.number) hsweep
    rw [hview]
    exact .none
  | callback now message next =>
    have hview : (s.client q).sweep = .callback now (next.map s.number) :=
      congrArg (PendingSweep.rename s.number) hsweep
    have hown : (s.client q).call.any (·.inSweep) = s.call.any (·.inSweep) := by
      cases hcall : s.call <;> simp [LinkedClient.client, hcall, ApiCall.rename]
    simp only [hview, hown]
    by_cases hany : s.call.any (·.inSweep)
    · rw [if_pos hany, if_pos hany]
      exact .none
    rw [if_neg hany, if_neg hany]
    have hquiet : ∀ c ∈ s.calls.call, c.inSweep = false := by
      intro c hc
      obtain ⟨call, hcall, hpublishing⟩ := Option.bind_eq_some_iff.mp hc
      split_ifs at hpublishing
      obtain rfl := Option.some.inj hpublishing
      simpa [hcall] using hany
    obtain ⟨hsound, hout⟩ := h.sound.turn (.scan now next) rfl
      (fun x hx => h.sound.next x (by rw [calls, hsweep]; exact hx)) hquiet
    have hcalled : message ∈ s.calls.sweep.called := by
      rw [calls, hsweep]
      exact List.mem_singleton_self _
    have hgone := hout message hcalled
    refine .some ⟨q, h.frame (hsound.delete hgone) rfl rfl rfl (List.Subset.refl _) fun x hx => ?_,
      rfl⟩
    exact Function.update_of_ne (CallSystem.ne_of_returned hgone hx) _ _

/-! ## Messages -/

/-- An application creates a message, … -/
theorem View.create (h : View s q) {message : ℕ} (hnew : message ∉ s.created) :
    View (s.tr50MessageCreate message) q := by
  have hnot : message ∉ s.owned := fun hmem =>
    hnew (h.sound.created _ (CallSystem.mem_places.mpr (Or.inr (Or.inr (Or.inl hmem)))))
  obtain ⟨u, previous, hfill, hsound, -, -, hout, hcreated, hnode, -⟩ :=
    @CallSystem.Sound.fill _ _ _ h.sound ⟨message, .obj, 0, 0, none, 0, 0⟩ (Or.inr hnew)
  rw [CallSystem.fill, if_neg (c := _ ∈ s.calls.returned) hnot,
    if_pos (c := _ ∉ s.calls.created) hnew] at hfill
  obtain rfl := Option.some.inj hfill
  refine ⟨hsound.give hout hcreated ⟨_, hnode, rfl⟩, h.apart, fun call hcall hstage => ?_⟩
  obtain ⟨hmem, previous, hfilled⟩ := h.filled call hcall hstage
  refine ⟨List.mem_cons_of_mem _ hmem, previous, ?_⟩
  exact (Function.update_of_ne (ne_of_mem_of_not_mem hmem hnot) _ _).trans hfilled

/-- …or deletes one of its own that no call has. -/
theorem View.discard (h : View s q) {message : ℕ} (howned : message ∈ s.owned)
    (hfree : ∀ call ∈ s.call, call.message.handle ≠ message) :
    View { s with
      pending := s.pending.messageDelete message
      owned := s.owned.erase message } q := by
  obtain ⟨herased, hout⟩ := h.sound.erase_returned howned
  refine ⟨herased.delete hout, h.apart, fun call hcall hstage => ?_⟩
  obtain ⟨hmem, previous, hfilled⟩ := h.filled call hcall hstage
  have hne := hfree call hcall
  exact ⟨(List.mem_erase_of_ne hne).mpr hmem, previous,
    (Function.update_of_ne hne _ _).trans hfilled⟩

/-- Whose messages are whose does not depend on an order. -/
theorem sound_perm {s : CallSystem κ} (h : s.Sound q) (returned : List ℕ)
    (hperm : returned.Perm s.returned) : CallSystem.Sound { s with returned } q := by
  have hplaces : CallSystem.places { s with returned } q = s.places q := by
    simp only [CallSystem.places, Multiset.coe_eq_coe.mpr hperm]
  exact ⟨h.refines, hplaces ▸ h.nodup, fun x hx => h.created x (hplaces ▸ hx), h.next,
    fun x hx => h.returned x (hperm.mem_iff.mp hx), h.last, h.own⟩

/-- **A call sets the fields of its message**, and gives it a number that no other has. -/
theorem View.fill (h : View s q) (hc : (s.client q).SubmitInv) (hcall : s.call = none)
    (value : Tr50Message κ) (howned : value.handle ∈ s.owned) (inSweep : Bool) {stage : Stage}
    (hstage : stage = .payload ∨ stage = .add) (seqId : ℤ) :
    ∃ links t, s.pending.links.modify value.handle (fun n => { n with value }) = some links
      ∧ t = { s with
        seqId
        submissions := s.submissions + 1
        pending.links := links
        number := Function.update s.number value.handle s.submissions
        call := some ⟨inSweep, value, stage⟩ }
      ∧ View t q ∧ t.client q = { s.client q with
        seqId
        nextHandle := s.submissions + 1
        call := some ⟨inSweep, { value with handle := s.submissions }, stage⟩ } := by
  obtain ⟨u, previous, hfill, hsound, -, -, hout, hcreated, hnode, -⟩ :=
    h.sound.fill (Or.inl howned)
  rw [CallSystem.fill, if_pos (c := _ ∈ s.calls.returned) howned] at hfill
  obtain ⟨links, hlinks, rfl⟩ := Option.map_eq_some_iff.mp hfill
  have hhandles : value.handle ∉ q.handles := h.sound.notMem_handles howned
  have hnumber : ∀ x ≠ value.handle,
      Function.update s.number value.handle s.submissions x = s.number x := fun x hx =>
    Function.update_of_ne hx _ _
  have hlist : ∀ x ∈ q.handles,
      Function.update s.number value.handle s.submissions x = s.number x := fun x hx =>
    hnumber x (ne_of_mem_of_not_mem hx hhandles)
  refine ⟨links, _, hlinks, rfl, ⟨?_, ?_, ?_⟩, ?_⟩
  · have hgiven := hsound.give hout hcreated ⟨_, hnode, rfl⟩
    have hperm := sound_perm hgiven s.owned (List.perm_cons_erase howned)
    have hpublishing : s.calls.call = none := by simp [calls, publishing, hcall]
    rw [hpublishing] at hperm
    rcases hstage with rfl | rfl <;> exact hperm
  · rintro _ ⟨⟩ x hx heq
    have heq : Function.update s.number value.handle s.submissions x = s.submissions :=
      heq.trans (Function.update_self ..)
    rw [hlist x hx] at heq
    have hmem : s.number x ∈ (s.client q).pending.handles := by
      rw [LinkedClient.client, handles_rename]
      exact List.mem_map_of_mem hx
    obtain ⟨m, hm, hhandle⟩ := List.mem_map.mp hmem
    have hlt := hc.inv.accounted.fresh _ (hc.inv.accounted.mem_added hm)
    exact absurd (hhandle.trans heq) hlt.ne
  · rintro _ ⟨⟩ -
    exact ⟨howned, previous, hnode⟩
  · have hmessage : value.rename (Function.update s.number value.handle s.submissions)
        = { value with handle := s.submissions } := by
      rw [Tr50Message.rename, Function.update_self]
    have hsweep : s.sweep.rename (Function.update s.number value.handle s.submissions)
        = s.sweep.rename s.number :=
      PendingSweep.rename_congr fun x hx => hlist x (h.sound.next x hx)
    have hdelivery : s.delivery.map (·.rename (Function.update s.number value.handle s.submissions))
        = s.delivery.map (·.rename s.number) := Option.map_congr fun d hd => by
      have hne : d.request.handle ≠ value.handle := fun heq => hout
        (CallSystem.mem_places.mpr (Or.inr (Or.inr (Or.inr (by simp [calls, hd, heq])))))
      rw [Delivery.rename, Delivery.rename, Tr50Message.rename, Tr50Message.rename, hnumber _ hne]
    simp only [LinkedClient.client, rename_congr hlist, hsweep, hdelivery, Option.map_some,
      ApiCall.rename, hmessage]

/-- **A call begins**, with a message of its caller's or a new one. -/
theorem View.apiEnter (h : View s q) (hc : (s.client q).SubmitInv) {message : ℕ} {inSweep : Bool}
    {messageType : MessageType} (timeout : ℤ) (callback : Option κ) (hcall : s.call = none)
    (hin : inSweep → s.sweep.lets true) (hmessage : s.Submits message messageType) :
    ∃ t d, s.apiEnter message inSweep messageType timeout callback = some t
      ∧ (s.client q).apiEnter inSweep messageType timeout callback = some d ∧ Shows t d := by
  have hidle := client_idle hcall q
  have hcallback : ¬ (inSweep ∧ ¬ s.sweep.lets true) := fun hnot => hnot.2 (hin hnot.1)
  have hcallback' : ¬ (inSweep ∧ ¬ (s.client q).sweep.inCallback) := by
    rw [LinkedClient.client, PendingSweep.inCallback_rename]
    exact hcallback
  have hnone : ¬ (none : Option (ApiCall κ)).isSome := by simp
  unfold LinkedClient.apiEnter Tr50Client.apiEnter
  rw [hcall, hidle, if_neg hnone, if_neg hnone, if_neg hcallback, if_neg hcallback',
    if_neg (not_not_intro hmessage)]
  simp only
  by_cases hstopped : s.stopped
  · have hstopped' : (s.client q).stopped := hstopped
    rw [if_pos hstopped, if_pos hstopped']
    refine ⟨_, _, rfl, rfl, q, ⟨h.sound, h.apart, h.filled⟩, ?_⟩
    rw [LinkedClient.client, LinkedClient.refuse, hcall]
    rfl
  have hstopped' : ¬ (s.client q).stopped := hstopped
  rw [if_neg hstopped, if_neg hstopped']
  by_cases hstopping : s.isStopping
  · have hstopping' : (s.client q).isStopping := hstopping
    rw [if_pos hstopping, if_pos hstopping']
    refine ⟨_, _, rfl, rfl, q, ⟨h.sound, h.apart, h.filled⟩, ?_⟩
    rw [LinkedClient.client, LinkedClient.refuse, hcall]
    rfl
  have hstopping' : ¬ (s.client q).isStopping := hstopping
  rw [if_neg hstopping, if_neg hstopping']
  cases messageType with
  | obj =>
    obtain ⟨links, t, hlinks, rfl, ht, hshown⟩ := h.fill hc hcall
      ⟨message, .obj, tr50ApiMsgIdNext s.seqId, timeout, callback, 0, 0⟩ hmessage inSweep
      (Or.inl rfl) (tr50ApiMsgIdNext s.seqId)
    exact ⟨_, _, congrArg (Option.map _) hlinks, rfl, q, ht, hshown.symm⟩
  | raw =>
    have hcreate := h.create hmessage
    obtain ⟨links, t, hlinks, rfl, ht, hshown⟩ := hcreate.fill hc hcall
      ⟨message, .raw, tr50ApiMsgIdNext s.seqId, timeout, callback, 0, 0⟩
      List.mem_cons_self inSweep (Or.inr rfl) (tr50ApiMsgIdNext s.seqId)
    exact ⟨_, _, congrArg (Option.map _) hlinks, rfl, q, ht, hshown.symm⟩

/-! ## Steps -/

/-- A call gets an id that no request has which waits. -/
def NewId (s : LinkedClient κ) : OwnerAction κ → Prop
  | .api .. => ∀ m ∈ s.requests, m.seqId ≠ tr50ApiMsgIdNext s.seqId
  | _ => True

/-- …and a message is added where its stale pointer does no harm, and no raw request's deflation
fails. -/
def Good (s : LinkedClient κ) (a : OwnerAction κ) : Prop :=
  s.NewId a ∧ match a with
    | .step (.add _) => ∀ call ∈ s.call, s.calls.Resubmittable call.message.handle
    | .step (.compress ret) => ret = 0
    | _ => True

instance (s : LinkedClient κ) (a : OwnerAction κ) : Decidable (s.NewId a) :=
  match a with
  | .api .. => inferInstanceAs (Decidable (∀ m ∈ _, _ ≠ _))
  | .create _ | .discard _ | .step _ => inferInstanceAs (Decidable True)

instance (s : LinkedClient κ) (a : OwnerAction κ) : Decidable (s.Good a) :=
  match a with
  | .step (.add _) => inferInstanceAs (Decidable (_ ∧ ∀ call ∈ s.call, _ ∨ _))
  | .step (.compress ret) => inferInstanceAs (Decidable (_ ∧ ret = 0))
  | .step (.api _ _ _ _) | .step (.payload _) | .step (.publish _) | .step .remove
  | .step .msgIdNext | .step (.lifecycle _ _) | .step (.receive _ _) | .step .deliver
  | .step (.sweep _) | .step .visit | .step .callbackReturn | .create _ | .discard _ | .api .. =>
      inferInstanceAs (Decidable (_ ∧ True))

/-- **What is shown takes the steps that are taken**, and could take no other. -/
theorem View.step (h : View s q) (hc : (s.client q).SubmitInv)
    (inflate : List UInt8 → Option (List UInt8)) {a : Action κ} (hgood : s.Good (.step a))
    (hapi : ∀ inSweep messageType timeout callback,
      a ≠ .api inSweep messageType timeout callback) :
    Option.Rel Shows (s.step inflate (.step a)) ((s.client q).step inflate a) := by
  have hsome : (s.client q).call.isSome = s.call.isSome := Option.isSome_map
  have hadd : ∀ call ∈ s.call, ∀ now, a = .add now →
      s.calls.Resubmittable call.message.handle := by
    rintro call hcall now rfl
    exact hgood.2 call hcall
  have hcompress : ∀ ret, a = .compress ret → ret = 0 := by
    rintro ret rfl
    exact hgood.2
  cases a with
  | api inSweep messageType timeout callback =>
    exact absurd rfl (hapi inSweep messageType timeout callback)
  | msgIdNext =>
    rw [LinkedClient.step, Tr50Client.step, hsome]
    split_ifs
    · exact .none
    · exact .some ⟨q, ⟨h.sound, h.apart, h.filled⟩, rfl⟩
  | lifecycle stopped isStopping =>
    rw [LinkedClient.step, Tr50Client.step, hsome]
    split_ifs
    · exact .none
    · exact .some ⟨q, ⟨h.sound, h.apart, h.filled⟩, rfl⟩
  | receive topic data => exact h.receive hc inflate topic data
  | deliver => exact h.deliver
  | sweep now =>
    have hidle : (s.client q).sweep = .idle ↔ s.sweep = .idle := by
      rw [LinkedClient.client]
      cases s.sweep <;> simp [PendingSweep.rename]
    rw [LinkedClient.step, Tr50Client.step]
    by_cases hs : s.sweep = .idle
    · rw [if_pos hs, if_pos (hidle.mpr hs)]
      exact .some (h.sweep hs now)
    · rw [if_neg hs, if_neg (mt hidle.mp hs)]
      exact .none
  | visit => exact h.visit hc
  | callbackReturn => exact h.callbackReturn
  | payload | add | compress | publish | remove =>
    cases hcall : s.call with
    | none =>
      simp only [LinkedClient.step, Tr50Client.step, hcall, client_idle hcall]
      exact .none
    | some call =>
      simp only [LinkedClient.step, Tr50Client.step, hcall, client_call hcall]
      exact h.apiStep hc hcall (hadd call hcall) hcompress

/-- What is to hold of a state: it shows one that replies and sweeps treat well. -/
def Kept (s : LinkedClient κ) : Prop := ∃ q, View s q ∧ (s.client q).SubmitInv

theorem kept_init : Kept (init : LinkedClient κ) :=
  ⟨tr50PendingCreate, view_init, Tr50Client.inv_init, Tr50Client.ids_init, Tr50Client.cursor_init,
    Tr50Client.outcomes_init, List.nodup_nil⟩

/-- **A good step is one of what is shown, or an application's with a message of its own.** -/
theorem View.run (h : View s q) (hc : (s.client q).SubmitInv)
    {inflate : List UInt8 → Option (List UInt8)} {a : OwnerAction κ} (hgood : s.Good a)
    (hstep : s.step inflate a = some t) :
    (a.shown = none ∧ View t q ∧ t.client q = s.client q)
    ∨ ∃ a' q', a.shown = some a' ∧ View t q' ∧ (s.client q).NewId a'
      ∧ (s.client q).step inflate a' = some (t.client q') := by
  cases a with
  | create message =>
    simp only [LinkedClient.step] at hstep
    split_ifs at hstep with hnew
    obtain rfl := Option.some.inj hstep
    exact Or.inl ⟨rfl, h.create hnew, rfl⟩
  | discard message =>
    simp only [LinkedClient.step] at hstep
    split_ifs at hstep with hfree
    obtain rfl := Option.some.inj hstep
    refine Or.inl ⟨rfl, h.discard hfree.1 fun call hcall => ?_, rfl⟩
    have hall := hfree.2
    rw [Option.mem_def.mp hcall] at hall
    simpa using hall
  | api message inSweep messageType timeout callback =>
    have henter : s.apiEnter message inSweep messageType timeout callback = some t := hstep
    have hguard := henter
    unfold LinkedClient.apiEnter at hguard
    split_ifs at hguard with hcall hin hmessage
    all_goals
      obtain ⟨t', d, ht', hd, q', hview, rfl⟩ := h.apiEnter hc timeout callback
        (Option.not_isSome_iff_eq_none.mp hcall)
        (fun hin' => by_contra fun hlets => hin ⟨hin', hlets⟩) hmessage
      obtain rfl := Option.some.inj (henter.symm.trans ht')
      refine Or.inr ⟨.api inSweep messageType timeout callback, q', rfl, hview, ?_, hd⟩
      have hnew := hgood.1
      rw [NewId, h.requests] at hnew
      exact hnew
  | step a =>
    by_cases hapi : ∃ inSweep messageType timeout callback,
      a = .api inSweep messageType timeout callback
    · obtain ⟨inSweep, messageType, timeout, callback, rfl⟩ := hapi
      cases hstep
    · have hapi' : ∀ inSweep messageType timeout callback,
          a ≠ .api inSweep messageType timeout callback := fun _ _ _ _ heq =>
        hapi ⟨_, _, _, _, heq⟩
      have hrel := h.step hc inflate hgood hapi'
      rw [hstep] at hrel
      generalize hd : (s.client q).step inflate a = d at hrel
      obtain ⟨q', hview, rfl⟩ : ∃ q', View t q' ∧ d = some (t.client q') := by
        cases hrel with
        | some hshows =>
          obtain ⟨q', hview, rfl⟩ := hshows
          exact ⟨q', hview, rfl⟩
      refine Or.inr ⟨a, q', rfl, hview, ?_, hd⟩
      cases a with
      | api => exact absurd rfl (hapi' _ _ _ _)
      | _ => trivial

theorem Kept.step (h : Kept s) {inflate : List UInt8 → Option (List UInt8)} {a : OwnerAction κ}
    (hgood : s.Good a) (hstep : s.step inflate a = some t) : Kept t := by
  obtain ⟨q, hview, hc⟩ := h
  rcases hview.run hc hgood hstep with ⟨-, ht, hsame⟩ | ⟨a', q', -, ht, hnew, hshown⟩
  · exact ⟨q, ht, hsame ▸ hc⟩
  · exact ⟨q', ht, hc.step hnew hshown⟩

theorem kept {inflate : List UInt8 → Option (List UInt8)}
    (h : Reach (step inflate) Good init s) : Kept s :=
  h.invariant kept_init fun _ _ _ hs hgood hstep => hs.step hgood hstep

end LinkedClient

end Tr50
