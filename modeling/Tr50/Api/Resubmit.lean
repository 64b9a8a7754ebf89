import Tr50.Api.Linked

/-!
# Api/Resubmit — a message whose call has failed, submitted again

`tr50_api_call_async` over the pointers of the list, next to replies and the sweep.  A call whose
`mqtt_async_publish` fails takes its message out of the list again and leaves it to its caller, who
may submit it another time; taken out, it still points to what was before it.

`tr50_pending_add` writes `pending_previous` only behind another message, and `pending_next` never.
A call has the client locked until it returns, so its message is the last of the list and has
nothing behind it when it is taken out; but it may have had something before it.
-/

namespace Tr50

open Machinery

variable {κ : Type}

/-! ## Calls -/

/-- A call at `mqtt_async_publish`, in a callback of the sweep or not; `seqId` is its
`local_seq_id`. -/
structure Publishing where
  inSweep : Bool
  message : ℕ
  seqId : ℤ
deriving DecidableEq, Repr

/-- `returned` are the messages that failed calls have left to their callers, `delivering` those
taken out for a reply, `created` all that there have been. -/
structure CallSystem (κ : Type) where
  pending : LinkedPending κ
  sweep : PendingSweep
  call : Option Publishing
  returned : List ℕ
  delivering : List ℕ
  created : List ℕ

inductive CallAction (κ : Type)
  /-- A call fails before its message is in the list. -/
  | refuse (message : Tr50Message κ)
  /-- A call up to `mqtt_async_publish`, which succeeds or fails. -/
  | submit (inSweep : Bool) (message : Tr50Message κ) (now : ℤ)
  | published
  | takeBack (fuel : ℕ)
  /-- A reply takes a message out, and deletes it when its callback is through. -/
  | reply (fuel : ℕ) (hash : ℤ)
  | delivered (message : ℕ)
  /-- A caller deletes a message that it has been left. -/
  | discard (message : ℕ)
  | sweep (now : ℤ)
  | visit
  | callbackReturn

/-- Whether `pending->mux` lets a thread in: the sweep's own in a callback, others between
sweeps. -/
def PendingSweep.lets (inSweep : Bool) : PendingSweep → Bool
  | .idle => !inSweep
  | .scan _ _ => false
  | .callback _ _ _ => inSweep

/-- The message whose callback the sweep is in. -/
def PendingSweep.called : PendingSweep → List ℕ
  | .callback _ message _ => [message]
  | _ => []

theorem PendingSweep.called_of_lets {sweep : PendingSweep} (h : sweep.lets true) :
    sweep.called ≠ [] := by
  cases sweep with
  | callback now message next => exact List.cons_ne_nil _ _
  | idle => cases h
  | scan now next => cases h

namespace CallSystem

def init : CallSystem κ := ⟨.create, .idle, none, [], [], []⟩

/-- The caller's message with the call's id, callback and timeout: a new one, or one that a failed
call has left. -/
def fill (s : CallSystem κ) (message : Tr50Message κ) : Option (CallSystem κ) :=
  if message.handle ∈ s.returned then
    (s.pending.links.modify message.handle fun n => { n with value := message }).map fun links =>
      { s with pending.links := links, returned := s.returned.erase message.handle }
  else if message.handle ∉ s.created then
    some { s with
      pending := s.pending.messageCreate message
      created := message.handle :: s.created }
  else none

/-- A step of the sweep. -/
def sweepStep (s : CallSystem κ) (a : PendingAction κ) : Option (CallSystem κ) :=
  (PendingSystem.step ⟨s.pending, s.sweep, [], []⟩ a).map fun t =>
    { s with pending := t.pending, sweep := t.sweep }

def step (s : CallSystem κ) : CallAction κ → Option (CallSystem κ)
  | .refuse message =>
    if s.call = none then
      (s.fill message).map fun s => { s with returned := message.handle :: s.returned }
    else none
  | .submit inSweep message now =>
    -- `client->mux` is free
    if s.call = none ∧ s.sweep.lets inSweep then
      (s.fill message).bind fun s => (s.pending.add message.handle now).map fun pending =>
        { s with pending, call := some ⟨inSweep, message.handle, message.seqId⟩ }
    else none
  | .published => s.call.map fun _ => { s with call := none }
  | .takeBack fuel =>
    s.call.bind fun c =>
      if s.sweep.lets c.inSweep then
        (s.pending.findAndRemove fuel c.seqId).map fun found =>
          { s with
            pending := found.2
            call := none
            -- not found, it has expired: the call succeeds
            returned := if found.1.isSome then c.message :: s.returned else s.returned }
      else none
  | .reply fuel hash =>
    if s.sweep = .idle then
      (s.pending.findAndRemove fuel hash).map fun found =>
        { s with pending := found.2, delivering := found.1.toList ++ s.delivering }
    else none
  | .delivered message =>
    if message ∈ s.delivering then
      some { s with
        pending := s.pending.messageDelete message
        delivering := s.delivering.erase message }
    else none
  | .discard message =>
    if message ∈ s.returned then
      some { s with
        pending := s.pending.messageDelete message
        returned := s.returned.erase message }
    else none
  | .sweep now => s.sweepStep (.sweep now)
  | .visit => s.sweepStep .visit
  | .callbackReturn =>
    if s.call.all fun c => !c.inSweep then s.sweepStep .callbackReturn else none

/-! ## What is to hold -/

/-- `list_head`, `list_tail`, the links and `count` are those of one list. -/
def WellFormed (s : CallSystem κ) : Prop :=
  ∃ list : List (Tr50Message κ), s.pending.links.Represents (byHandle list)
    ∧ s.pending.count = list.length

/-- Something is in the list, or the message had nothing before it when it was taken out. -/
def Resubmittable (s : CallSystem κ) (message : ℕ) : Prop :=
  s.pending.links.tail.isSome ∨ (s.pending.links.node message).bind (·.previous) = none

/-- What is submitted again is resubmittable, and a call that fails finds its own message. -/
def Tidy (s : CallSystem κ) : CallAction κ → Prop
  | .submit _ message _ => message.handle ∈ s.returned → s.Resubmittable message.handle
  | .takeBack fuel => ∀ c ∈ s.call, ∀ ptr ∈ (s.pending.findAndRemove fuel c.seqId).bind Prod.fst,
      ptr = c.message
  | _ => True

instance (s : CallSystem κ) (message : ℕ) : Decidable (s.Resubmittable message) :=
  inferInstanceAs (Decidable (_ ∨ _))

instance (s : CallSystem κ) (a : CallAction κ) : Decidable (s.Tidy a) :=
  match a with
  | .submit .. => inferInstanceAs (Decidable (_ → _))
  | .takeBack fuel => inferInstanceAs (Decidable (∀ c ∈ s.call,
      ∀ ptr ∈ (s.pending.findAndRemove fuel c.seqId).bind Prod.fst, ptr = c.message))
  | .refuse .. | .published | .reply .. | .delivered .. | .discard .. | .sweep .. | .visit
  | .callbackReturn => inferInstanceAs (Decidable True)

/-! ## The invariant -/

variable {s t : CallSystem κ} {q : Tr50Pending κ}

/-- Where messages are. -/
def places (s : CallSystem κ) (q : Tr50Pending κ) : Multiset ℕ :=
  ↑q.handles + ↑s.sweep.called + ↑s.returned + ↑s.delivering

/-- The pointers describe a list, every message is in one place, and what a call leaves to its
caller has nothing behind it. -/
structure Sound (s : CallSystem κ) (q : Tr50Pending κ) : Prop where
  refines : s.pending.Refines q
  nodup : (s.places q).Nodup
  created : ∀ x ∈ s.places q, x ∈ s.created
  next : ∀ x, s.sweep.next = some x → x ∈ q.handles
  returned : ∀ x ∈ s.returned, ∃ n, s.pending.links.node x = some n ∧ n.next = none
  /-- The message of a call is the last… -/
  last : ∀ c ∈ s.call, c.message ∈ q.handles → q.handles.getLast? = some c.message
  /-- …and the sweep does not go on with it if it is its own. -/
  own : ∀ c ∈ s.call, c.inSweep → s.sweep.called ≠ [] ∧ s.sweep.next ≠ some c.message

theorem sound_init : Sound (init : CallSystem κ) tr50PendingCreate :=
  ⟨LinkedPending.create_refines, Multiset.nodup_zero, by rintro x ⟨⟩, by rintro x ⟨⟩,
    by rintro x ⟨⟩, by rintro c ⟨⟩, by rintro c ⟨⟩⟩

theorem Sound.wellFormed (h : Sound s q) : s.WellFormed :=
  ⟨q.list, h.refines.links, h.refines.count.trans h.refines.length⟩

/-- What is in some place… -/
theorem mem_places {x : ℕ} : x ∈ s.places q
    ↔ x ∈ q.handles ∨ x ∈ s.sweep.called ∨ x ∈ s.returned ∨ x ∈ s.delivering := by
  simp [places]

/-- …and leaves it is in no other. -/
theorem Sound.shrink {returned delivering : List ℕ} (h : Sound s q)
    (hreturned : returned.Sublist s.returned) (hdelivering : delivering.Sublist s.delivering) :
    Sound { s with returned, delivering } q := by
  have hle : places { s with returned, delivering } q ≤ s.places q :=
    add_le_add (add_le_add le_rfl (Multiset.coe_le.mpr hreturned.subperm))
      (Multiset.coe_le.mpr hdelivering.subperm)
  exact ⟨h.refines, Multiset.nodup_of_le hle h.nodup,
    fun x hx => h.created x (Multiset.mem_of_le hle hx), h.next,
    fun x hx => h.returned x (hreturned.subset hx), h.last, h.own⟩

/-- What is left to callers is as it was. -/
theorem Sound.write (h : Sound s q) {p' : LinkedPending κ} (hrefines : p'.Refines q)
    (hframe : ∀ x ∈ s.returned, p'.links.node x = s.pending.links.node x) :
    Sound { s with pending := p' } q := by
  refine ⟨hrefines, h.nodup, h.created, h.next, fun x hx => ?_, h.last, h.own⟩
  rw [hframe x hx]
  exact h.returned x hx

theorem ne_of_returned {x y : ℕ} (hx : x ∉ s.places q) (hy : y ∈ s.returned) : y ≠ x :=
  fun heq => hx (mem_places.mpr (Or.inr (Or.inr (Or.inl (heq ▸ hy)))))

/-- A message that is in no place may go. -/
theorem Sound.delete (h : Sound s q) {x : ℕ} (hx : x ∉ s.places q) :
    Sound { s with pending := s.pending.messageDelete x } q := by
  exact h.write (LinkedPending.messageDelete_refines h.refines
    fun hin => hx (mem_places.mpr (Or.inl hin)))
    fun y hy => Function.update_of_ne (ne_of_returned hx hy) _ _

/-- A message that is in no place is left to its caller… -/
theorem Sound.give (h : Sound s q) {x : ℕ} (hx : x ∉ s.places q) (hcreated : x ∈ s.created)
    (hnode : ∃ n, s.pending.links.node x = some n ∧ n.next = none) :
    Sound { s with returned := x :: s.returned } q := by
  have hplaces : places { s with returned := x :: s.returned } q = x ::ₘ s.places q := by
    simp only [places, ← Multiset.cons_coe, Multiset.add_cons, Multiset.cons_add]
  refine ⟨h.refines, hplaces ▸ h.nodup.cons hx, fun y hy => ?_, h.next, fun y hy => ?_, h.last,
    h.own⟩
  · rw [hplaces, Multiset.mem_cons] at hy
    exact hy.elim (· ▸ hcreated) (h.created y)
  · exact (List.mem_cons.mp hy).elim (· ▸ hnode) (h.returned y)

/-- …or on its way to its callback. -/
theorem Sound.hand (h : Sound s q) {x : ℕ} (hx : x ∉ s.places q) (hcreated : x ∈ s.created) :
    Sound { s with delivering := x :: s.delivering } q := by
  have hplaces : places { s with delivering := x :: s.delivering } q = x ::ₘ s.places q := by
    simp only [places, ← Multiset.cons_coe, Multiset.add_cons]
  refine ⟨h.refines, hplaces ▸ h.nodup.cons hx, fun y hy => ?_, h.next, h.returned, h.last, h.own⟩
  rw [hplaces, Multiset.mem_cons] at hy
  exact hy.elim (· ▸ hcreated) (h.created y)

/-- A call is through. -/
theorem Sound.done (h : Sound s q) : Sound { s with call := none } q :=
  ⟨h.refines, h.nodup, h.created, h.next, h.returned, by rintro c ⟨⟩, by rintro c ⟨⟩⟩

/-- The last of a list is the last of what is left of it. -/
theorem getLast?_of_sublist {l l' : List ℕ} {x : ℕ} (hsub : l'.Sublist l) (hnodup : l.Nodup)
    (hlast : l.getLast? = some x) (hx : x ∈ l') : l'.getLast? = some x := by
  obtain ⟨l₀, rfl⟩ := List.getLast?_eq_some_iff.mp hlast
  obtain ⟨l₁, l₂, rfl, hl₁, hl₂⟩ := List.sublist_append_iff.mp hsub
  have hx₁ : x ∉ l₁ := fun hmem =>
    List.disjoint_of_nodup_append hnodup (hl₁.subset hmem) (List.mem_singleton_self x)
  rcases List.sublist_singleton.mp hl₂ with rfl | rfl
  · rw [List.append_nil] at hx
    exact absurd hx hx₁
  · simp

/-- **A message taken out is in no place**, and still says what was before and behind it. -/
theorem Sound.unlink (h : Sound s q) {m : Tr50Message κ} (hm : m ∈ q.list)
    {p' : LinkedPending κ} (hrefines : p'.Refines (tr50PendingLinklistRemove q m))
    (hframe : ∀ x ∉ (tr50PendingLinklistRemove q m).handles,
      p'.links.node x = s.pending.links.node x)
    (hnext : s.sweep.next ≠ some m.handle) :
    Sound { s with pending := p' } (tr50PendingLinklistRemove q m)
      ∧ m.handle ∉ places { s with pending := p' } (tr50PendingLinklistRemove q m)
      ∧ m.handle ∈ s.created := by
  have hsub := LinkedPending.handles_remove_sublist (m := m) h.refines.nodup
  have hperm := LinkedPending.perm_handles_remove h.refines.nodup hm
  have hplaces : s.places q
      = m.handle ::ₘ places { s with pending := p' } (tr50PendingLinklistRemove q m) := by
    simp only [places, Multiset.coe_eq_coe.mpr hperm, ← Multiset.cons_coe, Multiset.cons_add]
  have hnodup := h.nodup
  rw [hplaces] at hnodup
  have hcreated : ∀ x ∈ m.handle ::ₘ _, x ∈ s.created := hplaces ▸ h.created
  refine ⟨⟨hrefines, (Multiset.nodup_cons.mp hnodup).2,
    fun x hx => hcreated x (Multiset.mem_cons_of_mem hx), fun x hx => ?_, fun x hx => ?_,
    fun c hc hin => ?_, h.own⟩, (Multiset.nodup_cons.mp hnodup).1,
    hcreated _ (Multiset.mem_cons_self ..)⟩
  · exact mem_handles_remove (h.next x hx) fun heq => hnext (heq ▸ hx)
  · rw [hframe x fun hin => ?_]
    · exact h.returned x hx
    · have hdisjoint := h.nodup
      rw [places, add_assoc, add_assoc, Multiset.nodup_add] at hdisjoint
      exact Multiset.disjoint_left.mp hdisjoint.2.2 (hsub.subset hin)
        (Multiset.mem_add.mpr (Or.inr (Multiset.mem_add.mpr (Or.inl hx))))
  · exact getLast?_of_sublist hsub h.refines.nodup (h.last c hc (hsub.subset hin)) hin

/-- What is in the list is left to nobody. -/
theorem Sound.notMem_handles (h : Sound s q) {x : ℕ} (hx : x ∈ s.returned) : x ∉ q.handles := by
  intro hin
  have hnodup := h.nodup
  rw [places, add_assoc, add_assoc, Multiset.nodup_add] at hnodup
  exact Multiset.disjoint_left.mp hnodup.2.2 hin
    (Multiset.mem_add.mpr (Or.inr (Multiset.mem_add.mpr (Or.inl hx))))

/-- A message that is left to its caller is taken back from it. -/
theorem Sound.erase_returned (h : Sound s q) {x : ℕ} (hx : x ∈ s.returned) :
    Sound { s with returned := s.returned.erase x } q
      ∧ x ∉ places { s with returned := s.returned.erase x } q := by
  have hplaces : s.places q = x ::ₘ places { s with returned := s.returned.erase x } q := by
    simp only [places, Multiset.coe_eq_coe.mpr (List.perm_cons_erase hx), ← Multiset.cons_coe,
      Multiset.add_cons, Multiset.cons_add]
  exact ⟨h.shrink List.erase_sublist (List.Sublist.refl _),
    (Multiset.nodup_cons.mp (hplaces ▸ h.nodup)).1⟩

theorem Sound.erase_delivering (h : Sound s q) {x : ℕ} (hx : x ∈ s.delivering) :
    Sound { s with delivering := s.delivering.erase x } q
      ∧ x ∉ places { s with delivering := s.delivering.erase x } q := by
  have hplaces : s.places q = x ::ₘ places { s with delivering := s.delivering.erase x } q := by
    simp only [places, Multiset.coe_eq_coe.mpr (List.perm_cons_erase hx), ← Multiset.cons_coe,
      Multiset.add_cons]
  exact ⟨h.shrink (List.Sublist.refl _) List.erase_sublist,
    (Multiset.nodup_cons.mp (hplaces ▸ h.nodup)).1⟩

/-- There may be more messages. -/
theorem Sound.know (h : Sound s q) (x : ℕ) : Sound { s with created := x :: s.created } q :=
  ⟨h.refines, h.nodup, fun y hy => List.mem_cons_of_mem _ (h.created y hy), h.next, h.returned,
    h.last, h.own⟩

/-- **A message to be submitted is in no place and has nothing behind it**; what was before it is so
only where a call has left it. -/
theorem Sound.fill (h : Sound s q) {message : Tr50Message κ}
    (hmessage : message.handle ∈ s.returned ∨ message.handle ∉ s.created) :
    ∃ t previous, s.fill message = some t ∧ Sound t q ∧ t.sweep = s.sweep ∧ t.call = s.call
      ∧ message.handle ∉ t.places q ∧ message.handle ∈ t.created
      ∧ t.pending.links.node message.handle = some ⟨message, none, previous⟩
      ∧ t.pending.links.tail = s.pending.links.tail
      ∧ (message.handle ∉ s.returned → previous = none)
      ∧ (message.handle ∈ s.returned →
        previous = (s.pending.links.node message.handle).bind (·.previous)) := by
  by_cases hreturned : message.handle ∈ s.returned
  · obtain ⟨n, hnode, hnext⟩ := h.returned _ hreturned
    obtain ⟨herased, hout⟩ := h.erase_returned hreturned
    have hwritten : ∀ y ≠ message.handle, Function.update s.pending.links.node message.handle
        (some { n with value := message }) y = s.pending.links.node y :=
      fun y hy => Function.update_of_ne hy _ _
    have hrefines : LinkedPending.Refines { s.pending with links := { s.pending.links with
        node := Function.update s.pending.links.node message.handle
          (some { n with value := message }) } } q := by
      refine ⟨h.refines.links.congr (fun y hy => hwritten y fun heq => ?_) rfl rfl,
        h.refines.count, h.refines.length, h.refines.expiredCount⟩
      rw [map_fst_byHandle] at hy
      exact h.notMem_handles hreturned (heq ▸ hy)
    refine ⟨_, n.previous, ?_,
      herased.write hrefines fun y hy => hwritten y (ne_of_returned hout hy), rfl, rfl, hout,
      h.created _ (mem_places.mpr (Or.inr (Or.inr (Or.inl hreturned)))), ?_, rfl,
      fun hnot => absurd hreturned hnot, fun _ => by rw [hnode]; rfl⟩
    · rw [CallSystem.fill, if_pos hreturned, Links.modify_eq hnode]
      rfl
    · rw [← hnext]
      exact Function.update_self ..
  · have hnew := hmessage.resolve_left hreturned
    have hout : message.handle ∉ s.places q := fun hin => hnew (h.created _ hin)
    have hrefines : (s.pending.messageCreate message).Refines q :=
      LinkedPending.messageCreate_refines h.refines fun hin => hout (mem_places.mpr (Or.inl hin))
    have hwritten := h.write hrefines fun y hy =>
      Function.update_of_ne (ne_of_returned hout hy) _ _
    refine ⟨_, none, ?_, hwritten.know message.handle, rfl, rfl, hout, List.mem_cons_self,
      Function.update_self .., rfl, fun _ => rfl, fun hin => absurd hin hreturned⟩
    rw [CallSystem.fill, if_neg hreturned, if_pos hnew]

/-- **It is added behind the others**, and is the last then. -/
theorem Sound.add (h : Sound s q) {m : Tr50Message κ} {previous : Option ℕ}
    (hout : m.handle ∉ s.places q) (hcreated : m.handle ∈ s.created)
    (hnode : s.pending.links.node m.handle = some ⟨m, none, previous⟩)
    (hfirst : q.list = [] → previous = none) (inSweep : Bool) (hlets : s.sweep.lets inSweep)
    (now : ℤ) :
    ∃ pending, s.pending.add m.handle now = some pending
      ∧ Sound { s with pending, call := some ⟨inSweep, m.handle, m.seqId⟩ }
        (tr50PendingAdd q m now) := by
  have hfresh : m.handle ∉ q.handles := fun hin => hout (mem_places.mpr (Or.inl hin))
  obtain ⟨pending, hadd, hrefines, hframe⟩ :=
    LinkedPending.addNode_refines h.refines hnode hfresh hfirst now
  have hhandles : (tr50PendingAdd q m now).handles = q.handles ++ [m.handle] := by
    simp [tr50PendingAdd, Tr50Pending.handles]
  have hplaces : places { s with pending, call := some ⟨inSweep, m.handle, m.seqId⟩ }
      (tr50PendingAdd q m now) = m.handle ::ₘ s.places q := by
    simp only [places, hhandles, ← Multiset.coe_add, Multiset.coe_singleton, add_assoc,
      Multiset.singleton_add, Multiset.add_cons, Multiset.cons_add]
  refine ⟨pending, hadd, hrefines, hplaces ▸ h.nodup.cons hout, fun x hx => ?_, fun x hx => ?_,
    fun x hx => ?_, fun c hc _ => ?_, fun c hc hin => ?_⟩
  · rw [hplaces, Multiset.mem_cons] at hx
    exact hx.elim (· ▸ hcreated) (h.created x)
  · rw [hhandles]
    exact List.mem_append_left _ (h.next x hx)
  · obtain ⟨n, hn, hnext⟩ := h.returned x hx
    refine ⟨n, (hframe x ?_).trans hn, hnext⟩
    rw [List.mem_cons, not_or]
    exact ⟨ne_of_returned hout hx, h.notMem_handles hx⟩
  · obtain rfl := Option.some.inj hc
    rw [hhandles, List.getLast?_concat]
  · obtain rfl := Option.some.inj hc
    obtain rfl : inSweep = true := hin
    exact ⟨PendingSweep.called_of_lets hlets, fun hnext => hfresh (h.next _ hnext)⟩

/-! ## The sweep -/

/-- The sweep at a message leaves what is not in the list, and goes on in what is left of it. -/
theorem visitMessage_spec {r : PendingSystem κ} (h : r.pending.Refines q) {m : Tr50Message κ}
    (hm : m ∈ q.list) (now : ℤ) :
    ∃ t q', r.visitMessage now m.handle = some t ∧ t.pending.Refines q'
      ∧ (∀ x ∉ q.handles, t.pending.links.node x = r.pending.links.node x)
      ∧ q'.handles.Sublist q.handles
      ∧ (↑q'.handles + ↑t.sweep.called : Multiset ℕ) ≤ ↑q.handles
      ∧ ∀ x, t.sweep.next = some x → x ∈ q'.handles := by
  obtain ⟨n, hnode, rfl, hnext⟩ := h.node hm
  have hmem : n.value.handle ∈ q.handles := List.mem_map_of_mem hm
  have hsaved : ∀ x, n.next = some x → x ∈ q.handles := fun x hx =>
    mem_handles_of_next (hnext.symm.trans hx)
  have hnothing : ∀ list : List ℕ, (↑list + ↑([] : List ℕ) : Multiset ℕ) ≤ ↑list := fun list => by
    simp
  rw [PendingSystem.visitMessage, hnode, Option.bind_some]
  cases tr50PendingJudge now n.value with
  | keep =>
    exact ⟨_, q, rfl, h, fun _ _ => rfl, List.Sublist.refl _, hnothing _, hsaved⟩
  | reschedule =>
    obtain ⟨links, hlinks, hrefines⟩ := LinkedPending.reschedule_refines h hm now
    have hhandles := handles_reschedule q n.value.handle now
    refine ⟨_, _, Option.map_eq_some_iff.mpr ⟨links, hlinks, rfl⟩, hrefines, fun x hx => ?_, ?_, ?_,
      ?_⟩
    · exact Links.node_of_modify hlinks fun heq => hx (heq ▸ hmem)
    · rw [hhandles]
    · rw [hhandles]
      exact hnothing _
    · rw [hhandles]
      exact hsaved
  | expire =>
    obtain ⟨pending, hremove, hrefines, hframe⟩ := LinkedPending.expire_refines h hm
    have hsub := LinkedPending.handles_remove_sublist (m := n.value) h.nodup
    -- the saved pointer is that of another message
    have hrest : ∀ x, n.next = some x → x ∈ (tr50PendingLinklistRemove q n.value).handles :=
      fun x hx => mem_handles_remove (hsaved x hx) fun heq =>
        next_ne h.nodup (hnext.symm.trans (heq ▸ hx))
    have hkept : ∀ x ∉ q.handles, pending.links.node x = r.pending.links.node x := fun x hx =>
      hframe x fun hin => hx (hsub.subset hin)
    refine ⟨_, tr50PendingLinklistRemove { q with expiredCount := q.expiredCount + 1 } n.value,
      Option.map_eq_some_iff.mpr ⟨pending, hremove, rfl⟩, ?_⟩
    cases n.value.callback with
    | none =>
      refine ⟨LinkedPending.messageDelete_refines hrefines
        (LinkedPending.notMem_handles_remove h.nodup), fun x hx => ?_, hsub, ?_, hrest⟩
      · have hne : x ≠ n.value.handle := fun heq => hx (heq ▸ hmem)
        exact (Function.update_of_ne hne _ _).trans (hkept x hx)
      · exact (hnothing _).trans (Multiset.coe_le.mpr hsub.subperm)
    | some k =>
      refine ⟨hrefines, hkept, hsub, ?_, hrest⟩
      have hperm := LinkedPending.perm_handles_remove h.nodup hm
      exact Multiset.coe_le.mpr (List.perm_append_singleton .. |>.trans hperm.symm).subperm

/-- The sweep goes on, with nobody called back. -/
theorem Sound.turn (h : Sound s q) (sweep : PendingSweep) (hcalled : sweep.called = [])
    (hnext : ∀ x, sweep.next = some x → x ∈ q.handles)
    (hquiet : ∀ c ∈ s.call, c.inSweep = false) :
    Sound { s with sweep } q ∧ ∀ x ∈ s.sweep.called, x ∉ places { s with sweep } q := by
  have hplaces : s.places q = ↑s.sweep.called + places { s with sweep } q := by
    simp only [places, hcalled, Multiset.coe_nil, add_zero]
    abel
  have hnodup := h.nodup
  rw [hplaces, Multiset.nodup_add] at hnodup
  have hle : places { s with sweep } q ≤ s.places q := hplaces ▸ Multiset.le_add_left _ _
  refine ⟨⟨h.refines, hnodup.2.1, fun x hx => h.created x (Multiset.mem_of_le hle hx), hnext,
    h.returned, h.last, fun c hc hin => ?_⟩,
    fun x hx => Multiset.disjoint_left.mp hnodup.2.2 (Multiset.mem_coe.mpr hx)⟩
  rw [hquiet c hc] at hin
  cases hin

/-- A call of the sweep's own is on in a callback only. -/
theorem Sound.quiet (h : Sound s q) (hcalled : s.sweep.called = []) :
    ∀ c ∈ s.call, c.inSweep = false := fun c hc =>
  Bool.eq_false_iff.mpr fun hin => (h.own c hc hin).1 hcalled

theorem Sound.visit (h : Sound s q) {now : ℤ} {handle : ℕ}
    (hsweep : s.sweep = .scan now (some handle)) :
    ∃ t q', s.step .visit = some t ∧ Sound t q' := by
  obtain ⟨m, hm, rfl⟩ := List.mem_map.mp (h.next handle (by rw [hsweep]; rfl))
  obtain ⟨t, q', hvisit, hrefines, hframe, hsub, hcalled, hnext⟩ :=
    visitMessage_spec (r := ⟨s.pending, s.sweep, [], []⟩) h.refines hm now
  have hle : places { s with pending := t.pending, sweep := t.sweep } q' ≤ s.places q := by
    have hnobody : (↑s.sweep.called : Multiset ℕ) = 0 := by rw [hsweep]; rfl
    rw [places, places, hnobody, add_zero]
    exact add_le_add (add_le_add hcalled le_rfl) le_rfl
  have hquiet := h.quiet (by rw [hsweep]; rfl)
  refine ⟨{ s with pending := t.pending, sweep := t.sweep }, q', ?_, hrefines,
    Multiset.nodup_of_le hle h.nodup, fun x hx => h.created x (Multiset.mem_of_le hle hx), hnext,
    fun x hx => ?_, fun c hc hin => ?_, fun c hc hin => ?_⟩
  · rw [step, sweepStep, PendingSystem.step, hsweep]
    rw [hsweep] at hvisit
    exact congrArg (Option.map _) hvisit
  · rw [hframe x (h.notMem_handles hx)]
    exact h.returned x hx
  · exact getLast?_of_sublist hsub h.refines.nodup (h.last c hc (hsub.subset hin)) hin
  · rw [hquiet c hc] at hin
    cases hin

theorem Sound.sweepStep (h : Sound s q) {a : PendingAction κ}
    (ha : a = .visit ∨ (∃ now, a = .sweep now)
      ∨ a = .callbackReturn ∧ ∀ c ∈ s.call, c.inSweep = false)
    (hstep : s.sweepStep a = some t) : ∃ q', Sound t q' := by
  obtain ⟨r, hr, rfl⟩ := Option.map_eq_some_iff.mp hstep
  rcases ha with rfl | ⟨now, rfl⟩ | ⟨rfl, hquiet⟩
  · simp only [PendingSystem.step] at hr
    split at hr
    · rename_i now message hsweep
      obtain ⟨t, q', hvisit, ht⟩ := h.visit hsweep
      have hsame := hvisit.symm.trans hstep
      obtain rfl := Option.some.inj hsame
      exact ⟨q', ht⟩
    · rename_i now hsweep
      obtain rfl := Option.some.inj hr
      exact ⟨q, (h.turn .idle rfl (by rintro x ⟨⟩) (h.quiet (by rw [hsweep]; rfl))).1⟩
    · cases hr
  · simp only [PendingSystem.step] at hr
    split_ifs at hr with hidle
    obtain rfl := Option.some.inj hr
    refine ⟨q, (h.turn _ rfl (fun x hx => ?_) (h.quiet (by rw [hidle]; rfl))).1⟩
    refine mem_handles_of_head (Eq.trans ?_ hx)
    rw [← first_byHandle, ← h.refines.links.head]
    rfl
  · simp only [PendingSystem.step] at hr
    split at hr
    · rename_i now message next hsweep
      obtain rfl := Option.some.inj hr
      obtain ⟨hsound, hout⟩ := h.turn (.scan now next) rfl
        (fun x hx => h.next x (by rw [hsweep]; exact hx)) hquiet
      exact ⟨q, hsound.delete (hout message (by rw [hsweep]; exact List.mem_singleton_self _))⟩
    · cases hr

/-! ## Steps -/

theorem mem_or_notMem_of_fill {message : Tr50Message κ} (h : s.fill message = some t) :
    message.handle ∈ s.returned ∨ message.handle ∉ s.created := by
  unfold fill at h
  split_ifs at h with hreturned hnew
  · exact Or.inl hreturned
  · exact Or.inr hnew

/-- Of one message, only in an empty list. -/
theorem Sound.resubmittable_iff (h : Sound s q) {x : ℕ} : s.Resubmittable x
    ↔ (q.list = [] → (s.pending.links.node x).bind (·.previous) = none) := by
  have htail : s.pending.links.tail.isSome ↔ q.list ≠ [] := by
    rw [h.refines.links.tail]
    simp [Links.last, byHandle, Option.isSome_iff_ne_none]
  rw [Resubmittable, htail, or_iff_not_imp_left, not_not]

/-- What is found for a reply or for a call, and what then is left of the list. -/
theorem Sound.findAndRemove (h : Sound s q) {fuel : ℕ} {hash : ℤ} {found : Option ℕ}
    {p' : LinkedPending κ} (hfind : s.pending.findAndRemove fuel hash = some (found, p'))
    (hnext : ∀ x, found = some x → s.sweep.next ≠ some x) :
    (found = none ∧ Sound { s with pending := p' } q)
      ∨ ∃ m ∈ q.list, found = some m.handle
        ∧ Sound { s with pending := p' } (tr50PendingLinklistRemove q m)
        ∧ m.handle ∉ places { s with pending := p' } (tr50PendingLinklistRemove q m)
        ∧ m.handle ∈ s.created ∧ p'.links.node m.handle = s.pending.links.node m.handle := by
  obtain ⟨hrefines, rfl, hframe⟩ := h.refines.findAndRemove_inv hfind
  rcases findAndRemove_cases q hash with ⟨hnone, -⟩ | ⟨m, hm, -, hsome⟩
  · rw [hnone] at hrefines hframe ⊢
    exact Or.inl ⟨rfl, h.write hrefines fun x hx => hframe x (h.notMem_handles hx)⟩
  · rw [hsome] at hrefines hframe hnext ⊢
    obtain ⟨hsound, hout, hcreated⟩ := h.unlink hm hrefines hframe (hnext _ rfl)
    exact Or.inr ⟨m, hm, rfl, hsound, hout, hcreated,
      hframe _ (LinkedPending.notMem_handles_remove h.refines.nodup)⟩

/-- A message that is not resubmitted where it may not be is added. -/
theorem Sound.submit (h : Sound s q) (inSweep : Bool) (message : Tr50Message κ) (now : ℤ)
    (hmessage : message.handle ∈ s.returned ∨ message.handle ∉ s.created)
    (hgood : s.Tidy (.submit inSweep message now)) (hcall : s.call = none)
    (hlets : s.sweep.lets inSweep) :
    ∃ t, s.step (.submit inSweep message now) = some t
      ∧ Sound t (tr50PendingAdd q message now) := by
  obtain ⟨t, previous, hfill, ht, hsweep, -, hout, hcreated, hnode, -, hnew, hold⟩ :=
    h.fill hmessage
  have hfirst : q.list = [] → previous = none := fun hnil => by
    by_cases hreturned : message.handle ∈ s.returned
    · rw [hold hreturned]
      exact h.resubmittable_iff.mp (hgood hreturned) hnil
    · exact hnew hreturned
  obtain ⟨pending, hadd, hsound⟩ :=
    ht.add hout hcreated hnode hfirst inSweep (hsweep ▸ hlets) now
  refine ⟨_, ?_, hsound⟩
  rw [step, if_pos ⟨hcall, hlets⟩, hfill, Option.bind_some, hadd, Option.map_some]

/-- A call that has failed finds its message behind all others. -/
theorem Sound.takeBack (h : Sound s q) {fuel : ℕ} (hgood : s.Tidy (.takeBack fuel))
    (hstep : s.step (.takeBack fuel) = some t) : ∃ q', Sound t q' := by
  obtain ⟨c, hc, hstep⟩ := Option.bind_eq_some_iff.mp hstep
  split_ifs at hstep with hlets
  obtain ⟨⟨found, pending⟩, hfind, rfl⟩ := Option.map_eq_some_iff.mp hstep
  have hown : ∀ x, found = some x → x = c.message := fun x hx =>
    hgood c hc x (by rw [hfind, hx]; rfl)
  have hnext : ∀ x, found = some x → s.sweep.next ≠ some x := fun x hx hnext => by
    cases hin : c.inSweep with
    | true => exact (h.own c hc hin).2 (hown x hx ▸ hnext)
    | false =>
      rw [hin] at hlets
      cases hsweep : s.sweep <;> simp [hsweep, PendingSweep.lets, PendingSweep.next] at hlets hnext
  rcases h.findAndRemove hfind hnext with
    ⟨rfl, hsound⟩ | ⟨m, hm, rfl, hsound, hout, hcreated, hsame⟩
  · exact ⟨q, hsound.done⟩
  · have hmessage := hown m.handle rfl
    obtain ⟨n, hnode, -, hbehind⟩ := h.refines.node hm
    have hlast : q.handles.getLast? = some m.handle :=
      (h.last c hc (hmessage ▸ List.mem_map_of_mem hm)).trans (congrArg some hmessage.symm)
    have hnone : n.next = none := hbehind.trans (LinkedPending.next_last h.refines.nodup hlast)
    have hgiven := hsound.done.give (x := m.handle) hout hcreated ⟨n, hsame.trans hnode, hnone⟩
    rw [hmessage] at hgiven
    exact ⟨_, hgiven⟩

theorem Sound.step (h : Sound s q) {a : CallAction κ} (hgood : s.Tidy a)
    (hstep : s.step a = some t) : ∃ q', Sound t q' := by
  cases a with
  | refuse message =>
    simp only [CallSystem.step] at hstep
    split_ifs at hstep with hcall
    obtain ⟨t₁, hfill, rfl⟩ := Option.map_eq_some_iff.mp hstep
    obtain ⟨t₂, previous, hfill', ht, -, -, hout, hcreated, hnode, -⟩ :=
      h.fill (mem_or_notMem_of_fill hfill)
    obtain rfl := Option.some.inj (hfill.symm.trans hfill')
    exact ⟨q, ht.give hout hcreated ⟨_, hnode, rfl⟩⟩
  | submit inSweep message now =>
    have hguard := hstep
    simp only [CallSystem.step] at hguard
    split_ifs at hguard with hfree
    obtain ⟨t₁, hfill, -⟩ := Option.bind_eq_some_iff.mp hguard
    obtain ⟨t', ht', hsound⟩ := h.submit inSweep message now
      (mem_or_notMem_of_fill hfill) hgood hfree.1 hfree.2
    obtain rfl := Option.some.inj (hstep.symm.trans ht')
    exact ⟨_, hsound⟩
  | published =>
    obtain ⟨c, -, rfl⟩ := Option.map_eq_some_iff.mp hstep
    exact ⟨q, h.done⟩
  | takeBack fuel => exact h.takeBack hgood hstep
  | reply fuel hash =>
    simp only [CallSystem.step] at hstep
    split_ifs at hstep with hidle
    obtain ⟨⟨found, pending⟩, hfind, rfl⟩ := Option.map_eq_some_iff.mp hstep
    have hnext : ∀ x, found = some x → s.sweep.next ≠ some x := fun x _ => by
      simp [hidle, PendingSweep.next]
    rcases h.findAndRemove hfind hnext with ⟨rfl, hsound⟩ | ⟨m, -, rfl, hsound, hout, hcreated, -⟩
    · exact ⟨q, hsound⟩
    · exact ⟨_, hsound.hand hout hcreated⟩
  | delivered message =>
    simp only [CallSystem.step] at hstep
    split_ifs at hstep with hmem
    obtain rfl := Option.some.inj hstep
    obtain ⟨herased, hout⟩ := h.erase_delivering hmem
    exact ⟨q, herased.delete hout⟩
  | discard message =>
    simp only [CallSystem.step] at hstep
    split_ifs at hstep with hmem
    obtain rfl := Option.some.inj hstep
    obtain ⟨herased, hout⟩ := h.erase_returned hmem
    exact ⟨q, herased.delete hout⟩
  | sweep now => exact h.sweepStep (Or.inr (Or.inl ⟨now, rfl⟩)) hstep
  | visit => exact h.sweepStep (Or.inl rfl) hstep
  | callbackReturn =>
    simp only [CallSystem.step] at hstep
    split_ifs at hstep with hquiet
    refine h.sweepStep (Or.inr (Or.inr ⟨rfl, fun c hc => ?_⟩)) hstep
    rw [Option.mem_def.mp hc] at hquiet
    simpa using hquiet

/-- The pointers of every state are those of a list. -/
theorem sound (h : Reach step Tidy (init : CallSystem κ) s) : ∃ q, Sound s q :=
  h.invariant (I := fun s => ∃ q, Sound s q) ⟨_, sound_init⟩
    fun _ _ _ ⟨_, hs⟩ hgood hstep => hs.step hgood hstep

/-- A message before which there was another is added to an empty list as if it still were. -/
theorem Sound.not_wellFormed (h : Sound s q) (inSweep : Bool) (message : Tr50Message κ) (now : ℤ)
    (hreturned : message.handle ∈ s.returned) (hnot : ¬ s.Resubmittable message.handle)
    (hcall : s.call = none) (hlets : s.sweep.lets inSweep) :
    ∃ t, s.step (.submit inSweep message now) = some t ∧ ¬ t.WellFormed := by
  obtain ⟨t, previous, hfill, ht, -, -, -, -, hnode, htail, -, hold⟩ := h.fill (Or.inl hreturned)
  rw [Resubmittable, not_or, Option.not_isSome_iff_eq_none] at hnot
  obtain ⟨hempty, hbefore⟩ := hnot
  rw [← hold hreturned] at hbefore
  rw [← htail] at hempty
  obtain ⟨pending, hadd, hhead, n, hn, hprevious⟩ := LinkedPending.add_empty hnode hempty now
  refine ⟨{ t with pending, call := some ⟨inSweep, message.handle, message.seqId⟩ }, ?_,
    fun ⟨list, hlinks, _⟩ => hbefore ?_⟩
  · rw [CallSystem.step, if_pos ⟨hcall, hlets⟩, hfill, Option.bind_some, hadd, Option.map_some]
  · exact hprevious.symm.trans (hlinks.previous_head hhead hn)

/-- **A message whose call has failed may be submitted again where the list is not empty, or there
was nothing before it**: in every run in which this is so, and a call that fails finds its own
message, the pointers and `count` are those of one list, what is submitted again keeps them so
exactly where it may be, and replies and the sweep find what they take out. -/
theorem resubmitted (h : Reach step Tidy (init : CallSystem κ) s) :
    s.WellFormed
    ∧ (∀ (inSweep : Bool) (message : Tr50Message κ) (now : ℤ), message.handle ∈ s.returned →
      s.call = none → s.sweep.lets inSweep →
        ∃ t, s.step (.submit inSweep message now) = some t
          ∧ (t.WellFormed ↔ s.Resubmittable message.handle))
    ∧ (s.sweep = .idle → ∀ hash, ∃ fuel, (s.step (.reply fuel hash)).isSome)
    ∧ ∀ now next, s.sweep = .scan now next → (s.step .visit).isSome := by
  obtain ⟨q, hs⟩ := sound h
  refine ⟨hs.wellFormed, fun inSweep message now hreturned hcall hlets => ?_,
    fun hidle hash => ⟨q.list.length + 1, ?_⟩, fun now next hsweep => ?_⟩
  · by_cases hgood : s.Resubmittable message.handle
    · obtain ⟨t, hstep, ht⟩ := hs.submit inSweep message now (Or.inl hreturned)
        (fun _ => hgood) hcall hlets
      exact ⟨t, hstep, iff_of_true ht.wellFormed hgood⟩
    · obtain ⟨t, hstep, ht⟩ := hs.not_wellFormed inSweep message now hreturned hgood hcall hlets
      exact ⟨t, hstep, iff_of_false ht hgood⟩
  · obtain ⟨pending, hfind, -⟩ :=
      LinkedPending.findAndRemove_refines hs.refines hash (Nat.lt_succ_self _)
    rw [step, if_pos hidle, hfind, Option.map_some, Option.isSome_some]
  · cases next with
    | none =>
      rw [step, sweepStep, PendingSystem.step, hsweep]
      rfl
    | some message =>
      obtain ⟨t, q', ht, -⟩ := hs.visit hsweep
      exact Option.isSome_of_mem ht

/-- The request of a handle. -/
def request (handle : ℕ) (seqId : ℤ) : Tr50Message Unit := ⟨handle, .obj, seqId, 10, none, 0, 0⟩

/-- A call, a second that fails and has the first before it, and the reply to the first. -/
def leftBehind : List (CallAction Unit) :=
  [.submit false (request 0 1) 0, .published, .submit false (request 1 2) 0, .takeBack 3,
    .reply 2 1, .delivered 0]

/-- A message that has been left behind another goes behind another again. -/
theorem resubmitted_behind : ∃ s t : CallSystem Unit, Reach step Tidy init s ∧ s.returned = [1]
    ∧ s.WellFormed ∧ s.step (.submit false (request 1 3) 0) = some t ∧ t.WellFormed := by
  have heval : ((leftBehind.take 4).foldlM
      (fun s a => if Tidy s a then step s a else none) init).map
        (fun s => (s.returned, s.call, s.sweep, decide (s.Resubmittable 1)))
          = some ([1], none, .idle, true) := by decide +kernel
  obtain ⟨s, hs, hview⟩ := Option.map_eq_some_iff.mp heval
  obtain ⟨hreturned, hcall, hsweep, hagain⟩ := by simpa only [Prod.mk.injEq] using hview
  have hreach : Reach step Tidy (init : CallSystem Unit) s := Reach.of_guarded _ hs
  obtain ⟨hwell, hsubmit, -⟩ := resubmitted hreach
  obtain ⟨t, hstep, ht⟩ := hsubmit false (request 1 3) 0 (by rw [hreturned]; simp [request]) hcall
    (by rw [hsweep]; rfl)
  exact ⟨s, t, hreach, hreturned, hwell, hstep, ht.mpr (of_decide_eq_true hagain)⟩

/-- With the message before it gone it goes into an empty list and still has it before it: taking it
out writes to what has been deleted. -/
theorem not_resubmitted : ∃ s t : CallSystem Unit, Reach step Tidy init s ∧ s.returned = [1]
    ∧ s.WellFormed ∧ s.step (.submit false (request 1 3) 0) = some t ∧ ¬ t.WellFormed
    ∧ t.step (.reply 2 3) = none := by
  have heval : (leftBehind.foldlM (fun s a => if Tidy s a then step s a else none) init).map
      (fun s => (s.returned, s.call, s.sweep, decide (s.Resubmittable 1),
        ((s.step (.submit false (request 1 3) 0)).bind fun t => t.step (.reply 2 3)).isSome))
        = some ([1], none, .idle, false, false) := by decide +kernel
  obtain ⟨s, hs, hview⟩ := Option.map_eq_some_iff.mp heval
  obtain ⟨hreturned, hcall, hsweep, hagain, hremoved⟩ := by
    simpa only [Prod.mk.injEq] using hview
  have hreach : Reach step Tidy (init : CallSystem Unit) s := Reach.of_guarded _ hs
  obtain ⟨q, hsound⟩ := sound hreach
  obtain ⟨t, hstep, ht⟩ := hsound.not_wellFormed false (request 1 3) 0
    (by rw [hreturned]; simp [request]) (of_decide_eq_false hagain) hcall (by rw [hsweep]; rfl)
  rw [hstep, Option.bind_some, Option.isSome_eq_false_iff, Option.isNone_iff_eq_none] at hremoved
  exact ⟨s, t, hreach, hreturned, hsound.wellFormed, hstep, ht, hremoved⟩

end CallSystem

end Tr50
