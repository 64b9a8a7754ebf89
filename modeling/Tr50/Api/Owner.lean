import Tr50.Api.Shown

/-!
# Api/Owner — who owns the message of a call

What `Api/Submit` says of results, over the pointers of the list, where a message that a failed call
has left may be submitted again.  That the other requests are as without the call is said of a
second client beside the first: it does not make the call, and the same happens in it elsewhere.
-/

namespace Tr50

open Machinery

variable {κ : Type}

namespace LinkedClient

variable {s t : LinkedClient κ} {q : Tr50Pending κ}

/-! ## What a result says -/

/-- Who has taken the message of a call out. -/
def unlinkedBy (s : LinkedClient κ) (number : ℕ) : List Party :=
  (s.history.unlinked.filter (·.1.1 = number)).map Prod.snd

/-- What the result of a call promises: with an error, its message is not in the list and its
callback has not been called; with `0`, its message is found from `list_head` on, or has been taken
out by one of the reply and the sweep, and its callback has been called once at most. -/
def Promise (s : LinkedClient κ) (r : Returned) : Prop :=
  (r.ret ≠ 0 → r.handle ∉ s.requests.map (·.handle)
    ∧ ∀ i ∈ s.history.callbacks, i.handle ≠ r.handle)
  ∧ (r.ret = 0 →
    (r.handle ∈ s.requests.map (·.handle) ∧ s.unlinkedBy r.handle = []
      ∨ r.handle ∉ s.requests.map (·.handle)
        ∧ (s.unlinkedBy r.handle = [.reply] ∨ s.unlinkedBy r.handle = [.sweep]))
    ∧ (s.history.callbacks.filter (·.handle = r.handle)).length ≤ 1)

theorem View.promise (h : View s q) {r : Returned} (hr : (s.client q).Promise r) :
    s.Promise r := by
  rw [Promise, h.requests]
  exact hr

/-- What the locks let in finds all that it looks for: the loops over the list end, and every node
that is written to is there. -/
structure Goes (inflate : List UInt8 → Option (List UInt8)) (s : LinkedClient κ) : Prop where
  api : ∀ message (inSweep : Bool) messageType timeout callback, s.call = none →
    (inSweep → s.sweep.lets true) → s.Submits message messageType →
    (s.step inflate (.api message inSweep messageType timeout callback)).isSome
  add : ∀ call ∈ s.call, call.stage = .add → s.sweep.lets call.inSweep →
    s.calls.Resubmittable call.message.handle → ∀ now, (s.step inflate (.step (.add now))).isSome
  remove : ∀ call ∈ s.call, ∀ ret, call.stage = .remove ret → s.sweep.lets call.inSweep →
    (s.step inflate (.step .remove)).isSome
  receive : s.delivery = none → s.sweep = .idle → ∀ topic data,
    (s.step inflate (.step (.receive topic data))).isSome
  visit : ∀ now next, s.sweep = .scan now next → (s.step inflate (.step .visit)).isSome

theorem isSome_of_rel {α β : Type*} {r : α → β → Prop} {x : Option α} {y : Option β}
    (h : Option.Rel r x y) (hy : y.isSome) : x.isSome := by
  cases h with
  | some => rfl
  | none => cases hy

theorem View.goes (h : View s q) (hc : (s.client q).SubmitInv)
    (inflate : List UInt8 → Option (List UInt8)) : Goes inflate s := by
  refine ⟨fun message inSweep messageType timeout callback hcall hin hmessage => ?_,
    fun call hcall hstage hlets hgood now => ?_, fun call hcall ret hstage hlets => ?_,
    fun hdelivery hidle topic data => ?_, fun now next hsweep => ?_⟩
  · obtain ⟨t, d, ht, -⟩ := h.apiEnter hc timeout callback hcall hin hmessage
    exact Option.isSome_of_mem ht
  · have hcall : s.call = some call := hcall
    have hrel := h.apiAdd hc.cursor hcall hstage hgood now
    have hsome := isSome_of_rel hrel (by
      rw [Tr50Client.apiAdd, if_pos ((lets_iff hc.cursor hcall).mpr hlets)]
      rfl)
    simp only [LinkedClient.step, hcall, hstage]
    exact hsome
  · have hcall : s.call = some call := hcall
    have hrel := h.apiRemove hc hcall hstage
    have hsome := isSome_of_rel hrel (by
      rw [Tr50Client.apiRemove, if_pos ((lets_iff hc.cursor hcall).mpr hlets)]
      split <;> rfl)
    simp only [LinkedClient.step, hcall, hstage]
    exact hsome
  · have hnone : (s.client q).delivery = none := congrArg (Option.map _) hdelivery
    have hfree : (s.client q).PendingFree false :=
      Or.inr (congrArg (PendingSweep.rename s.number) hidle)
    refine isSome_of_rel (h.receive hc inflate topic data) ?_
    rw [Tr50Client.receive, hnone, if_neg (by simp)]
    split
    · rw [if_pos hfree]
      split <;> rfl
    · rfl
    · rfl
  · have hscan : (s.client q).sweep = .scan now (next.map s.number) :=
      congrArg (PendingSweep.rename s.number) hsweep
    exact isSome_of_rel (h.visit hc) (hc.visit_isSome hscan)

/-! ## The other requests -/

/-- The call `number` is in progress. -/
def InCall (number : ℕ) (s : LinkedClient κ) : Prop :=
  ∃ call ∈ s.call, s.number call.message.handle = number

instance (number : ℕ) (s : LinkedClient κ) : Decidable (InCall number s) :=
  decidable_of_iff (s.call.any fun call => s.number call.message.handle = number) (by
    simp [InCall, Option.any_eq_true])

/-- A step of the receive thread or of the sweep, but for the sweep at the message of the call
`number`. -/
def Elsewhere (number : ℕ) (s : LinkedClient κ) : OwnerAction κ → Prop
  | .step a =>
    match a with
    | .receive _ _ | .deliver | .sweep _ | .callbackReturn => True
    | .visit => s.sweep.next.map s.number ≠ some number
    | _ => False
  | _ => False

instance (number : ℕ) (s : LinkedClient κ) (a : OwnerAction κ) : Decidable (Elsewhere number s a) :=
  match a with
  | .step a =>
    match a with
    | .receive _ _ | .deliver | .sweep _ | .callbackReturn => inferInstanceAs (Decidable True)
    | .visit => inferInstanceAs (Decidable (_ ≠ _))
    | .api _ _ _ _ | .payload _ | .add _ | .compress _ | .publish _ | .remove | .msgIdNext
    | .lifecycle _ _ => inferInstanceAs (Decidable False)
  | .create _ | .discard _ | .api .. => inferInstanceAs (Decidable False)

/-- A client in the call `number`, and beside it one without that call in which the same happens
elsewhere. -/
def beside (inflate : List UInt8 → Option (List UInt8)) (number : ℕ)
    (p : LinkedClient κ × LinkedClient κ) (a : OwnerAction κ) :
    Option (LinkedClient κ × LinkedClient κ) :=
  (p.1.step inflate a).bind fun s =>
    (if Elsewhere number p.1 a then p.2.step inflate a else some p.2).map fun s' => (s, s')

/-- Elsewhere is elsewhere in what is shown. -/
theorem elsewhere_iff {number : ℕ} {a : OwnerAction κ} {a' : Action κ} (h : a.shown = some a') :
    Elsewhere number s a ↔ Tr50Client.Elsewhere number (s.client q) a' := by
  cases a with
  | create | discard => cases h
  | api =>
    obtain rfl := Option.some.inj h
    exact Iff.rfl
  | step b =>
    obtain rfl := Option.some.inj h
    cases b <;> simp [Elsewhere, Tr50Client.Elsewhere, LinkedClient.client,
      PendingSweep.next_rename]

/-- What happens elsewhere is good. -/
theorem good_of_elsewhere {number : ℕ} {c c' : Tr50Client κ} {a : Action κ}
    (h : Tr50Client.Elsewhere number c' a) : s.Good (.step a) ∧ c.NewId a := by
  cases a with
  | api | payload | add | compress | publish | remove | msgIdNext | lifecycle => exact h.elim
  | _ => exact ⟨⟨trivial, trivial⟩, trivial⟩

/-- The second shows what the first does, but for the message of the call `number`. -/
structure Besides (number : ℕ) (s s' : LinkedClient κ) (q q' : Tr50Pending κ) : Prop where
  view : View s q
  view' : View s' q'
  kept : (s.client q).SubmitInv
  kept' : (s'.client q').SubmitInv
  without : Tr50Client.Without number (s.client q) (s'.client q')

/-- **What happens elsewhere while the call is in progress happens without it too.** -/
theorem Besides.step {number : ℕ} {s' : LinkedClient κ} {q' : Tr50Pending κ}
    (h : Besides number s s' q q') {inflate : List UInt8 → Option (List UInt8)}
    {a : OwnerAction κ} (hcall : InCall number s) (hgood : s.Good a)
    (hstep : s.step inflate a = some t)
    (hnot : ∀ p ∈ t.history.unlinked, p.1.1 = number → p.2 = .call) :
    ∃ t' r r', beside inflate number (s, s') a = some (t, t') ∧ Besides number t t' r r' := by
  have hbeside : ∀ t', (if Elsewhere number s a then s'.step inflate a else some s') = some t' →
      beside inflate number (s, s') a = some (t, t') := fun t' ht' => by
    rw [beside, hstep, Option.bind_some, ht', Option.map_some]
  rcases h.view.run h.kept hgood hstep with ⟨hshown, ht, hsame⟩ | ⟨a', r, hshown, ht, hnew, hc⟩
  · have helse : ¬ Elsewhere number s a := by
      cases a with
      | create | discard => exact id
      | api | step => cases hshown
    exact ⟨s', q, q', hbeside s' (if_neg helse), ht, h.view', hsame ▸ h.kept, h.kept',
      hsame ▸ h.without⟩
  · obtain ⟨call, hmem, rfl⟩ := hcall
    have hcall := client_call hmem q
    have hkept := h.kept.step hnew hc
    have hwithout : Tr50Client.Without (call.rename s.number).message.handle (s.client q)
      (s'.client q') := h.without
    rcases hwithout.step h.kept hcall hc with
      ⟨p, hp, hhandle, hparty⟩ | ⟨helse, hwithout⟩ | ⟨helse, d, hd, hwithout⟩
    · exact absurd (hnot p hp hhandle) hparty
    · have helse' : ¬ Elsewhere (s.number call.message.handle) s a := fun hin =>
        helse ((elsewhere_iff hshown).mp hin)
      exact ⟨s', r, q', hbeside s' (if_neg helse'), ht, h.view', hkept, h.kept', hwithout⟩
    · obtain rfl : a = .step a' := by
        cases a with
        | create | discard => cases hshown
        | api =>
          obtain rfl := Option.some.inj hshown
          exact helse.elim
        | step => exact congrArg _ (Option.some.inj hshown)
      obtain ⟨hgood', hnew'⟩ := good_of_elsewhere (s := s') (c := s'.client q') helse
      have hrel : Option.Rel Shows (s'.step inflate (.step a')) ((s'.client q').step inflate a') :=
        h.view'.step h.kept' inflate hgood' (by rintro _ _ _ _ rfl; exact helse.elim)
      rw [hd] at hrel
      generalize ht' : s'.step inflate (.step a') = x at hrel
      obtain ⟨t', hstep', r', hview', rfl⟩ : ∃ t', x = some t' ∧ Shows t' d := by
        cases hrel with
        | some hshows => exact ⟨_, rfl, hshows⟩
      rw [hstep'] at ht'
      have helse' := (elsewhere_iff (q := q) hshown).mpr helse
      exact ⟨t', r, r', hbeside t' ((if_pos helse').trans ht'), ht, hview', hkept,
        h.kept'.step hnew' hd, hwithout⟩

/-- Who has been taken out stays so. -/
theorem Kept.unlinked_mono (h : Kept s) {inflate : List UInt8 → Option (List UInt8)}
    (hrun : Reach (LinkedClient.step inflate) Good s t) :
    s.history.unlinked ⊆ t.history.unlinked := by
  have hinv : Kept t ∧ s.history.unlinked ⊆ t.history.unlinked :=
    hrun.invariant (I := fun t => Kept t ∧ s.history.unlinked ⊆ t.history.unlinked)
      ⟨h, List.Subset.refl _⟩ fun t a u ⟨ht, hsub⟩ hgood hstep => by
        refine ⟨ht.step hgood hstep, ?_⟩
        obtain ⟨q, hview, hc⟩ := ht
        rcases hview.run hc hgood hstep with ⟨-, -, hsame⟩ | ⟨a', q', -, -, -, hshown⟩
        · have hhistory : t.history = u.history := (congrArg Tr50Client.history hsame).symm
          exact hhistory ▸ hsub
        · exact fun p hp => (Tr50Client.step_effect hshown).unlinked_mono (hsub hp)
  exact hinv.2

theorem Besides.run {number : ℕ} {s' : LinkedClient κ} {q' : Tr50Pending κ}
    (h : Besides number s s' q q') {inflate : List UInt8 → Option (List UInt8)}
    {trace : List (OwnerAction κ)}
    (htrace : Trace (LinkedClient.step inflate) (fun s a => InCall number s ∧ s.Good a) s trace t)
    (hnot : ∀ p ∈ t.history.unlinked, p.1.1 = number → p.2 = .call) :
    ∃ t' r r', Trace (beside inflate number) (fun _ _ => True) (s, s') trace (t, t')
      ∧ Besides number t t' r r' := by
  induction htrace generalizing s' q q' with
  | nil s => exact ⟨s', q, q', .nil _, h⟩
  | cons hgood hstep htrace ih =>
    have hkept : Kept _ := ⟨q, h.view, h.kept⟩
    have hmono := (hkept.step hgood.2 hstep).unlinked_mono (htrace.reach.mono fun _ _ h => h.2)
    obtain ⟨u', r, r', hbeside, hu⟩ :=
      h.step hgood.1 hgood.2 hstep fun p hp => hnot p (hmono hp)
    obtain ⟨t', r, r', hrun, ht⟩ := ih hu hnot
    exact ⟨t', r, r', .cons trivial hbeside hrun, ht⟩

end LinkedClient

open LinkedClient

/-- **The result of `tr50_api_call_async` tells its caller who owns the message.**  In every run in
which no call gets an id that is still pending, messages are added only where their stale pointers
do no harm, and no raw request's deflation fails: whatever the locks let in goes; and after an error
the message is not in the list, its callback is never called, and the other requests are those of a
client without the call in which the same has happened elsewhere; after `0` the message waits, or
the reply or the sweep has taken it, once. -/
theorem tr50ApiCallAsync_owner (inflate : List UInt8 → Option (List UInt8)) :
    (∀ s : LinkedClient κ, Reach (step inflate) Good init s →
      Goes inflate s ∧ ∀ r ∈ s.history.returned, r.messageType = .obj → s.Promise r)
    ∧ ∀ (s₀ s₁ s : LinkedClient κ) (message : ℕ) (inSweep : Bool) (timeout : ℤ)
        (callback : Option κ) (trace : List (OwnerAction κ)) (ret : ℤ),
      Reach (step inflate) Good init s₀ → s₀.Good (.api message inSweep .obj timeout callback) →
      s₀.step inflate (.api message inSweep .obj timeout callback) = some s₁ →
      Trace (step inflate) (fun s a => InCall s₀.submissions s ∧ s.Good a) s₁ trace s →
      ⟨s₀.submissions, .obj, ret⟩ ∈ s.history.returned → ret ≠ 0 →
      ∃ s', Trace (beside inflate s₀.submissions) (fun _ _ => True) (s₁, s₀) trace (s, s')
        ∧ s.requests = s'.requests ∧ s.pending.count = s'.pending.count
        ∧ s.delivery.map (·.rename s.number) = s'.delivery.map (·.rename s'.number)
        ∧ s.history.callbacks = s'.history.callbacks := by
  refine ⟨fun s h => ?_, ?_⟩
  · obtain ⟨q, hview, hc⟩ := kept h
    exact ⟨hview.goes hc inflate, fun r hr htype => hview.promise (hc.promise hr htype)⟩
  intro s₀ s₁ s message inSweep timeout callback trace ret h₀ hgood hstep htrace hr hret
  obtain ⟨q₀, hview₀, hc₀⟩ := kept h₀
  obtain ⟨q, hview, hc⟩ : Kept s := kept
    ((h₀.tail hgood hstep).trans (htrace.reach.mono fun _ _ h => h.2))
  rcases hview₀.run hc₀ hgood hstep with ⟨hnone, -⟩ | ⟨a', q₁, hshown, hview₁, hnew, hc₁⟩
  · cases hnone
  obtain rfl := Option.some.inj hshown
  have hbesides : Besides s₀.submissions s₁ s₀ q₁ q₀ :=
    ⟨hview₁, hview₀, hc₀.step hnew hc₁, hc₀, Tr50Client.Without.enter hc₀ hc₁⟩
  obtain ⟨s', r, r', hrun, h⟩ := hbesides.run htrace (hc.not_taken hr rfl hret)
  obtain ⟨own, -, hown, hpending⟩ := h.without.pending
  -- its own message is no longer there
  have hnil : own = [] := by
    refine List.eq_nil_iff_forall_not_mem.mpr fun m hm => ((h.kept.promise hr rfl).1 hret).1 ?_
    rw [← hown m hm]
    exact List.mem_map_of_mem (by rw [hpending]; exact List.mem_append_right _ hm)
  rw [hnil, List.append_nil, List.length_nil, Nat.cast_zero, add_zero] at hpending
  refine ⟨s', hrun, ?_, ?_, h.without.delivery.symm, h.without.callbacks.symm⟩
  · rw [h.view.requests, h.view'.requests]
    exact congrArg Tr50Pending.list hpending
  · have hcount : (s.client r).pending.count = (s'.client r').pending.count :=
      congrArg Tr50Pending.count hpending
    exact h.view.sound.refines.count.trans (hcount.trans h.view'.sound.refines.count.symm)

/-- Into a call with a message, and up to what `mqtt_async_publish` returns. -/
def submit (message : ℕ) (inSweep : Bool) (now ret : ℤ) : List (OwnerAction Unit) :=
  [.api message inSweep .obj 10 (some ()), .step (.payload 0), .step (.add now),
    .step (.publish ret)]

/-- Two calls that go well, … -/
def submitted : List (OwnerAction Unit) :=
  [.create 0, .create 1, .create 2] ++ submit 0 false 0 0 ++ submit 2 false 0 0

/-- …one that fails, with the reply to the first in between, … -/
def refused : List (OwnerAction Unit) :=
  [.step (.payload 0), .step (.add 0),
    .step (.receive (cstring "reply/1".toList) (cstring "\x7b\x7d".toList)), .step .deliver,
    .step (.publish (-1)), .step .remove]

/-- …and its message again, with a reply. -/
def again : List (OwnerAction Unit) :=
  submit 1 false 0 0 ++ [.step (.receive (cstring "reply/4".toList) (cstring "\x7b\x7d".toList)),
    .step .deliver]

/-- …as a call does that fails, and the call that submits its message again. -/
theorem tr50ApiCallAsync_owner_again : ∃ s₀ s₁ s s' u : LinkedClient Unit,
    Trace (beside (fun _ => none) 2) (fun _ _ => True) (s₁, s₀) refused (s, s')
    ∧ s.history.returned.head? = some ⟨2, .obj, -1⟩
    ∧ s.requests = s'.requests ∧ s.requests.map (·.handle) = [1]
    ∧ s.history.callbacks = s'.history.callbacks ∧ s.history.callbacks.map (·.handle) = [0]
    ∧ u.history.returned.head? = some ⟨3, .obj, 0⟩ ∧ u.Promise ⟨3, .obj, 0⟩
    ∧ u.unlinkedBy 3 = [.reply] := by
  have heval : ((submitted.foldlM
      (fun s a => if Good s a then step (fun _ => none) s a else none) init).bind fun s₀ =>
        (s₀.step (fun _ => none) (.api 1 false .obj 10 (some ()))).bind fun s₁ =>
        (refused.foldlM (fun s a =>
          if InCall s₀.submissions s ∧ s.Good a then step (fun _ => none) s a else none) s₁).bind
        fun s => (again.foldlM
          (fun s a => if Good s a then step (fun _ => none) s a else none) s).map fun u =>
        (decide (s₀.Good (.api 1 false .obj 10 (some ()))),
          [[s₀.submissions], s.requests.map (·.handle), s.history.callbacks.map (·.handle)],
          [s.history.returned.head?, u.history.returned.head?], u.unlinkedBy 3))
      = some (true, [[2], [1], [0]], [some ⟨2, .obj, -1⟩, some ⟨3, .obj, 0⟩], [.reply]) := by
    decide +kernel
  obtain ⟨s₀, hs₀, heval⟩ := Option.bind_eq_some_iff.mp heval
  obtain ⟨s₁, hs₁, heval⟩ := Option.bind_eq_some_iff.mp heval
  obtain ⟨s, hs, heval⟩ := Option.bind_eq_some_iff.mp heval
  obtain ⟨u, hu, hview⟩ := Option.map_eq_some_iff.mp heval
  obtain ⟨hgood, ⟨hsubmissions, hrequests, hcallbacks⟩, ⟨hreturned, hagain⟩, hby⟩ := by
    simpa only [Prod.mk.injEq, List.cons.injEq, and_true] using hview
  have h₀ : Reach (step fun _ => none) Good init s₀ := Reach.of_guarded _ hs₀
  have hgood : s₀.Good (.api 1 false .obj 10 (some ())) := of_decide_eq_true hgood
  have htrace : Trace (step fun _ => none) (fun s a => InCall s₀.submissions s ∧ s.Good a) s₁
    refused s := Trace.of_guarded hs
  have hrun : Reach (step fun _ => none) Good init s :=
    (h₀.tail hgood hs₁).trans (htrace.reach.mono fun _ _ h => h.2)
  have howner := tr50ApiCallAsync_owner (κ := Unit) fun _ => none
  obtain ⟨s', hbeside, hsame, -, -, hcalled⟩ := howner.2 s₀ s₁ s 1 false 10 (some ()) refused (-1)
    h₀ hgood hs₁ htrace (hsubmissions ▸ List.mem_of_mem_head? hreturned) (by decide)
  have hpromise := (howner.1 u (hrun.trans (Reach.of_guarded _ hu))).2 ⟨3, .obj, 0⟩
    (List.mem_of_mem_head? hagain) rfl
  exact ⟨s₀, s₁, s, s', u, hsubmissions ▸ hbeside, hreturned, hsame, hrequests, hcalled,
    hcallbacks, hagain, hpromise, hby⟩

/-- A call that fails behind another, whose reply comes; its message again, into the empty list; and
another in its callback, when it has expired. -/
def stale : List (OwnerAction Unit) :=
  [.create 0, .create 1, .create 2] ++ submit 0 false 0 0 ++ submit 1 false 0 (-1)
    ++ [.step .remove, .step (.receive (cstring "reply/1".toList) [])] ++ submit 1 false 0 0
    ++ [.step (.sweep 50), .step .visit] ++ submit 2 true 50 0

/-- **A message that is submitted again into an empty list still points to the one that was before
it**, and expires: `list_head` stays on it and `list_tail` goes to the other, so that what is
submitted next cannot be found. -/
theorem not_tr50ApiCallAsync_owner : ¬ ∀ s : LinkedClient Unit,
    Reach (step fun _ => none) NewId init s →
      ∀ r ∈ s.history.returned, r.messageType = .obj → s.Promise r := by
  intro h
  have heval : (stale.foldlM
      (fun s a => if NewId s a then step (fun _ => none) s a else none) init).map
      (fun s => (s.history.returned.head?, s.requests.map (·.handle), s.unlinkedBy 3))
      = some (some ⟨3, .obj, 0⟩, [2], []) := by decide +kernel
  obtain ⟨s, hs, hview⟩ := Option.map_eq_some_iff.mp heval
  obtain ⟨hreturned, hrequests, hby⟩ := by simpa only [Prod.mk.injEq] using hview
  have hpromise := h s (Reach.of_guarded _ hs) ⟨3, .obj, 0⟩ (List.mem_of_mem_head? hreturned) rfl
  have hwaits := (hpromise.2 rfl).1
  simp [hrequests, hby] at hwaits

end Tr50
