import Tr50.Api.Client
import Tr50.Api.Linked

/-!
# Api/Sweep — one turn of the expiration thread

The inner loop of `_tr50_pending_expiration_handler`, over the pointers.  The callback of an expired
message is its thread's own, so it is let in and may add messages behind the others; what each
callback adds is given (`submits`).  A sweep treats every message that it comes to
(`sweep_treats`): those of the list it starts with, and those that its callbacks add as long as
there is a message to go on with.  It is a run of `PendingSystem` (`reach_sweepLoop`).
-/

namespace Tr50

open Machinery

variable {κ : Type}

/-! ## The loop -/

namespace LinkedPending

/-- What a callback adds: messages, each at its time. -/
def submitAll (pending : LinkedPending κ) (messages : List (Tr50Message κ × ℤ)) :
    Option (LinkedPending κ) :=
  messages.foldlM (fun pending x => (pending.messageCreate x.1).add x.1.handle x.2) pending

/-- `while (next)`, as far as `fuel` turns of it go, with what is called back.  The next callback
adds the first of `submits`. -/
def sweepLoop (now : ℤ) : (fuel : ℕ) → (submits : List (List (Tr50Message κ × ℤ))) →
    (next : Option ℕ) → LinkedPending κ → Option (LinkedPending κ × List (Invocation κ))
  | 0, _, _, _ => none
  | _ + 1, _, none, pending => some (pending, [])
  | fuel + 1, submits, some message, pending =>
    -- `next` is read first
    (pending.links.node message).bind fun n =>
      match tr50PendingJudge now n.value with
      | .keep => sweepLoop now fuel submits n.next pending
      | .reschedule =>
        (pending.links.modify message fun n => { n with value := { n.value with
            pendingExpirationTimestamp := now + n.value.callbackTimeout } }).bind fun links =>
          sweepLoop now fuel submits n.next { pending with links }
      | .expire =>
        ({ pending with expiredCount := pending.expiredCount + 1 }.linklistRemove message).bind
          fun pending =>
            match n.value.callback with
            | none => sweepLoop now fuel submits n.next (pending.messageDelete message)
            | some k =>
              (pending.submitAll (submits.headD [])).bind fun pending =>
                (sweepLoop now fuel submits.tail n.next (pending.messageDelete message)).map
                  fun (pending, calls) => (pending, ⟨message, k, errTr50ReqTimeout, none⟩ :: calls)

/-- A sweep from `list_head` on. -/
def sweep (fuel : ℕ) (now : ℤ) (submits : List (List (Tr50Message κ × ℤ)))
    (pending : LinkedPending κ) : Option (LinkedPending κ × List (Invocation κ)) :=
  sweepLoop now fuel submits pending.links.head pending

end LinkedPending

/-! ## What it does to the list -/

/-- A message as `tr50_pending_add` leaves it. -/
def stamped (x : Tr50Message κ × ℤ) : Tr50Message κ :=
  { x.1 with
    pendingSentTimestamp := x.2
    pendingExpirationTimestamp := x.2 + x.1.callbackTimeout }

/-- What is left of a message. -/
def tr50PendingTreat (now : ℤ) (m : Tr50Message κ) : Option (Tr50Message κ) :=
  match tr50PendingJudge now m with
  | .keep => some m
  | .reschedule => some { m with pendingExpirationTimestamp := now + m.callbackTimeout }
  | .expire => none

/-- What the callback of an expired message is told. -/
def timeoutCall (m : Tr50Message κ) : Option (Invocation κ) :=
  m.callback.map fun k => ⟨m.handle, k, errTr50ReqTimeout, none⟩

/-- The messages that expire. -/
def tr50PendingExpired (now : ℤ) (list : List (Tr50Message κ)) : List (Tr50Message κ) :=
  list.filter fun m => tr50PendingJudge now m = .expire

/-- The sweep from `rest` on, with the messages before it done: `visited` and `late` are what
callbacks have added, and the sweep does not come to `late`. -/
structure Swept (now : ℤ) (submits : List (List (Tr50Message κ × ℤ))) (q : Tr50Pending κ)
    (done rest : List (Tr50Message κ)) (q' : Tr50Pending κ) (calls : List (Invocation κ))
    (visited late : List (Tr50Message κ)) : Prop where
  submitted : (submits.take calls.length).flatten.map stamped = visited ++ late
  list : q'.list = done ++ (rest ++ visited).filterMap (tr50PendingTreat now) ++ late
  calls : calls = (tr50PendingExpired now (rest ++ visited)).filterMap timeoutCall
  expiredCount : q'.expiredCount = q.expiredCount
    + (tr50PendingExpired now (rest ++ visited)).length

namespace Swept

variable {now : ℤ} {submits : List (List (Tr50Message κ × ℤ))} {q q₁ q' : Tr50Pending κ}
  {done rest visited late : List (Tr50Message κ)} {m m' : Tr50Message κ}
  {calls : List (Invocation κ)}

theorem expired_cons_pos {l : List (Tr50Message κ)} (hjudge : tr50PendingJudge now m = .expire) :
    tr50PendingExpired now (m :: l) = m :: tr50PendingExpired now l :=
  List.filter_cons_of_pos (by simpa using hjudge)

theorem expired_cons_neg {l : List (Tr50Message κ)} (hjudge : tr50PendingJudge now m ≠ .expire) :
    tr50PendingExpired now (m :: l) = tr50PendingExpired now l :=
  List.filter_cons_of_neg (by simpa using hjudge)

/-- A message that stays, as it is or rescheduled… -/
theorem stay (hstay : tr50PendingTreat now m = some m') (hcount : q₁.expiredCount = q.expiredCount)
    (h : Swept now submits q₁ (done ++ [m']) rest q' calls visited late) :
    Swept now submits q done (m :: rest) q' calls visited late := by
  have hexpired : tr50PendingExpired now (m :: rest ++ visited)
      = tr50PendingExpired now (rest ++ visited) := expired_cons_neg fun hjudge => by
    simp [tr50PendingTreat, hjudge] at hstay
  refine ⟨h.submitted, ?_, hexpired ▸ h.calls, ?_⟩
  · simp [h.list, hstay]
  · rw [hexpired, h.expiredCount, hcount]

/-- …one that goes without a word… -/
theorem drop (hjudge : tr50PendingJudge now m = .expire) (hcallback : m.callback = none)
    (hcount : q₁.expiredCount = q.expiredCount + 1)
    (h : Swept now submits q₁ done rest q' calls visited late) :
    Swept now submits q done (m :: rest) q' calls visited late := by
  refine ⟨h.submitted, ?_, ?_, ?_⟩
  · simp [h.list, tr50PendingTreat, hjudge]
  · simp [← h.calls, expired_cons_pos hjudge, timeoutCall, hcallback]
  · rw [h.expiredCount, hcount, List.cons_append, expired_cons_pos hjudge, List.length_cons]
    push_cast
    ring

theorem submitted_cons {n : ℕ} : (submits.take (n + 1)).flatten
    = submits.headD [] ++ (submits.tail.take n).flatten := by
  cases submits <;> simp

theorem flatten_eq : submits.flatten = submits.headD [] ++ submits.tail.flatten := by
  cases submits <;> simp

/-- …and one whose callback adds messages; the sweep comes to them if there is one before them. -/
theorem call {k : κ} (hjudge : tr50PendingJudge now m = .expire) (hcallback : m.callback = some k)
    (hcount : q₁.expiredCount = q.expiredCount + 1)
    (h : Swept now submits.tail q₁ done (rest ++ (submits.headD []).map stamped) q' calls visited
      late) :
    Swept now submits q done (m :: rest) q' (⟨m.handle, k, errTr50ReqTimeout, none⟩ :: calls)
      ((submits.headD []).map stamped ++ visited) late := by
  refine ⟨?_, ?_, ?_, ?_⟩
  · rw [List.length_cons, submitted_cons, List.map_append, h.submitted, List.append_assoc]
  · simp [h.list, tr50PendingTreat, hjudge]
  · simp [h.calls, expired_cons_pos hjudge, timeoutCall, hcallback]
  · rw [h.expiredCount, hcount, List.cons_append, expired_cons_pos hjudge, List.length_cons,
      List.append_assoc]
    push_cast
    ring

/-- The callback of the last message: what it adds is not looked at. -/
theorem last {k : κ} (hjudge : tr50PendingJudge now m = .expire) (hcallback : m.callback = some k)
    (hcount : q'.expiredCount = q.expiredCount + 1)
    (hlist : q'.list = done ++ (submits.headD []).map stamped) :
    Swept now submits q done [m] q' [⟨m.handle, k, errTr50ReqTimeout, none⟩] []
      ((submits.headD []).map stamped) := by
  refine ⟨?_, ?_, ?_, ?_⟩
  · rw [List.length_singleton, submitted_cons]
    simp
  · simp [hlist, tr50PendingTreat, hjudge]
  · simp [tr50PendingExpired, timeoutCall, hjudge, hcallback]
  · simp [tr50PendingExpired, hcount, hjudge]

end Swept

namespace LinkedPending

variable {p : LinkedPending κ} {q : Tr50Pending κ} {now : ℤ}

/-- **A callback adds its messages behind the others.** -/
theorem submitAll_refines (h : p.Refines q) (messages : List (Tr50Message κ × ℤ))
    (hnodup : (q.handles ++ messages.map (·.1.handle)).Nodup) :
    ∃ p' q', p.submitAll messages = some p' ∧ p'.Refines q'
      ∧ q'.list = q.list ++ messages.map stamped ∧ q'.expiredCount = q.expiredCount := by
  induction messages generalizing p q with
  | nil => exact ⟨p, q, rfl, h, by simp, rfl⟩
  | cons x messages ih =>
    have hfresh : x.1.handle ∉ q.handles := fun hmem =>
      List.disjoint_of_nodup_append hnodup hmem (by simp)
    obtain ⟨p₁, hadd, hrefines⟩ := add_refines h hfresh x.2
    obtain ⟨p', q', hrest, hrefines', hlist, hcount⟩ := ih hrefines (by
      simpa [tr50PendingAdd, Tr50Pending.handles] using hnodup)
    refine ⟨p', q', ?_, hrefines', ?_, hcount⟩
    · rw [submitAll, List.foldlM_cons, hadd]
      exact hrest
    · rw [hlist, tr50PendingAdd, List.map_cons, List.append_assoc]
      rfl

/-- The messages from a pointer on are those behind it. -/
theorem Refines.next_eq (h : p.Refines q) {done rest : List (Tr50Message κ)} {m : Tr50Message κ}
    (hsplit : q.list = done ++ m :: rest) :
    ∃ n, p.links.node m.handle = some n ∧ n.value = m ∧ n.next = tr50PendingHead rest := by
  obtain ⟨n, hnode, hvalue, hnext⟩ := h.node (m := m) (by simp [hsplit])
  have hnodup := h.nodup
  rw [Tr50Pending.handles, hsplit] at hnodup
  exact ⟨n, hnode, hvalue, by rw [hnext, hsplit, next_split hnodup]⟩

/-- …and one of them is counted and taken out. -/
theorem Refines.expire_split (h : p.Refines q) {done rest : List (Tr50Message κ)}
    {m : Tr50Message κ} (hsplit : q.list = done ++ m :: rest) :
    ∃ p₁ q₁, { p with expiredCount := p.expiredCount + 1 }.linklistRemove m.handle = some p₁
      ∧ p₁.Refines q₁ ∧ q₁.list = done ++ rest ∧ q₁.expiredCount = q.expiredCount + 1 := by
  obtain ⟨p₁, hremove, h₁, -⟩ := expire_refines h (m := m) (by simp [hsplit])
  have hnodup := h.nodup
  rw [Tr50Pending.handles, hsplit] at hnodup
  refine ⟨p₁, _, hremove, h₁, ?_, rfl⟩
  rw [tr50PendingLinklistRemove, hsplit, eraseP_split hnodup]

/-- **The sweep goes through the list**, and through what its callbacks add to it. -/
theorem sweepLoop_treats (h : p.Refines q) (now : ℤ) (fuel : ℕ)
    (submits : List (List (Tr50Message κ × ℤ))) (done rest : List (Tr50Message κ))
    (hsplit : q.list = done ++ rest)
    (hnodup : (q.handles ++ submits.flatten.map (·.1.handle)).Nodup)
    (hfuel : rest.length + submits.flatten.length < fuel) :
    ∃ p' q' calls visited late,
      sweepLoop now fuel submits (tr50PendingHead rest) p = some (p', calls) ∧ p'.Refines q'
        ∧ Swept now submits q done rest q' calls visited late := by
  induction fuel generalizing p q submits done rest with
  | zero => cases hfuel
  | succ fuel ih =>
    cases rest with
    | nil => exact ⟨p, q, [], [], [], rfl, h, by simp, by simp [hsplit], rfl, (add_zero _).symm⟩
    | cons m rest =>
      obtain ⟨n, hnode, rfl, hnext⟩ := h.next_eq hsplit
      have hmem : n.value ∈ q.list := by simp [hsplit]
      have hshorter : rest.length + submits.flatten.length < fuel := by
        rw [List.length_cons] at hfuel
        omega
      change ∃ p' q' calls visited late, (p.links.node n.value.handle).bind _ = some (p', calls) ∧ _
      rw [hnode, Option.bind_some, hnext]
      cases hjudge : tr50PendingJudge now n.value with
      | keep =>
        obtain ⟨p', q', calls, visited, late, hloop, hrefines, hswept⟩ :=
          ih h submits (done ++ [n.value]) rest (by simp [hsplit]) hnodup hshorter
        exact ⟨p', q', calls, visited, late, hloop, hrefines,
          hswept.stay (by rw [tr50PendingTreat, hjudge]) (by rfl)⟩
      | reschedule =>
        obtain ⟨links, hlinks, hrescheduled⟩ := reschedule_refines h hmem now
        have hlist := reschedule_split hsplit h.nodup now
        obtain ⟨p', q', calls, visited, late, hloop, hrefines, hswept⟩ :=
          ih hrescheduled submits (done ++ [_]) rest (hlist.trans (List.append_cons ..))
            (by simpa only [Tr50Pending.handles, hlist, hsplit, List.map_append, List.map_cons]
              using hnodup) hshorter
        exact ⟨p', q', calls, visited, late, (congrArg (Option.bind · _) hlinks).trans hloop,
          hrefines, hswept.stay (by rw [tr50PendingTreat, hjudge]) (by rfl)⟩
      | expire =>
        obtain ⟨p₁, q₁, hremove, h₁, hlist₁, hcount₁⟩ := h.expire_split hsplit
        rw [Tr50Pending.handles, hsplit, List.map_append, List.map_cons, List.append_assoc,
          List.cons_append] at hnodup
        obtain ⟨hout, hrest⟩ := List.nodup_cons.mp (List.nodup_middle.mp hnodup)
        rw [← List.append_assoc, ← List.map_append, ← hlist₁] at hout hrest
        simp only [hremove, Option.bind_some]
        cases hcallback : n.value.callback with
        | none =>
          obtain ⟨p', q', calls, visited, late, hloop, hrefines, hswept⟩ :=
            ih (messageDelete_refines h₁ fun hin => hout (List.mem_append_left _ hin)) submits done
              rest hlist₁ hrest hshorter
          exact ⟨p', q', calls, visited, late, hloop, hrefines,
            hswept.drop hjudge hcallback hcount₁⟩
        | some k =>
          rw [Swept.flatten_eq, List.map_append, ← List.append_assoc] at hout hrest
          obtain ⟨p₂, q₂, hsubmit, h₂, hlist₂, hcount₂⟩ :=
            submitAll_refines h₁ _ hrest.of_append_left
          have hhandles₂ : q₂.handles = q₁.handles ++ (submits.headD []).map (·.1.handle) := by
            simp [Tr50Pending.handles, hlist₂, stamped]
          rw [← Tr50Pending.handles, ← hhandles₂] at hout hrest
          have hdeleted := messageDelete_refines h₂ fun hin => hout (List.mem_append_left _ hin)
          rw [hlist₁] at hlist₂
          simp only [hsubmit, Option.bind_some]
          cases rest with
          | nil =>
            obtain ⟨fuel, rfl⟩ :=
              Nat.exists_eq_succ_of_ne_zero (Nat.ne_of_gt (Nat.zero_lt_of_lt hshorter))
            exact ⟨_, q₂, _, [], _, rfl, hdeleted, .last hjudge hcallback (hcount₂.trans hcount₁)
              (by simpa using hlist₂)⟩
          | cons m' rest =>
            obtain ⟨p', q', calls, visited, late, hloop, hrefines, hswept⟩ :=
              ih hdeleted submits.tail done (m' :: rest ++ (submits.headD []).map stamped)
                (hlist₂.trans (List.append_assoc ..)) hrest (by
                  rw [Swept.flatten_eq] at hshorter
                  simp only [List.length_append, List.length_map] at hshorter ⊢
                  omega)
            exact ⟨p', q', _, _, late, congrArg (Option.map _) hloop, hrefines,
              hswept.call hjudge hcallback (hcount₂.trans hcount₁)⟩

end LinkedPending

/-! ## A run of the system -/

namespace PendingSystem

/-- One step is a run. -/
theorem reach_step {s t : PendingSystem κ} (a : PendingAction κ) (hsteady : Steady s a)
    (h : s.step a = some t) : Reach step Steady s t := .tail .refl hsteady h

/-- A callback adds its messages step by step. -/
theorem reach_submitAll {s : PendingSystem κ} {messages : List (Tr50Message κ × ℤ)}
    {p' : LinkedPending κ} (hfree : s.sweep.free)
    (hnew : (messages.map (·.1.handle) ++ s.added).Nodup)
    (h : s.pending.submitAll messages = some p') :
    Reach step Steady s
      { s with pending := p', added := (messages.map (·.1.handle)).reverse ++ s.added } := by
  induction messages generalizing s with
  | nil =>
    obtain rfl := Option.some.inj h
    exact .refl
  | cons x messages ih =>
    rw [LinkedPending.submitAll, List.foldlM_cons] at h
    obtain ⟨p₁, hadd, hrest⟩ := Option.bind_eq_some_iff.mp h
    rw [List.map_cons, List.cons_append] at hnew
    obtain ⟨hfresh, hnew'⟩ := List.nodup_cons.mp hnew
    have hstep : s.step (.add x.1 x.2)
        = some { s with pending := p₁, added := x.1.handle :: s.added } := by
      rw [step, if_pos ⟨hfree, fun hmem => hfresh (List.mem_append_right _ hmem)⟩, hadd]
      rfl
    have hrun := ih (s := { s with pending := p₁, added := x.1.handle :: s.added }) hfree
      (List.nodup_middle.mpr hnew) hrest
    simpa using (reach_step (.add x.1 x.2) trivial hstep).trans hrun

/-- **The loop is a run**, from the pointer it has saved until it has the list behind it. -/
theorem reach_sweepLoop {now : ℤ} {fuel : ℕ} {submits : List (List (Tr50Message κ × ℤ))}
    {next : Option ℕ} {s : PendingSystem κ} {p' : LinkedPending κ} {calls : List (Invocation κ)}
    (hsweep : s.sweep = .scan now next)
    (hnew : (submits.flatten.map (·.1.handle) ++ s.added).Nodup)
    (h : s.pending.sweepLoop now fuel submits next = some (p', calls)) :
    ∃ t, Reach step Steady s t ∧ t.sweep = .idle ∧ t.pending = p' := by
  induction fuel generalizing s submits next calls with
  | zero => cases h
  | succ fuel ih =>
    cases next with
    | none =>
      obtain ⟨rfl, rfl⟩ := Prod.mk.inj (Option.some.inj h)
      have hstep : s.step .visit = some { s with sweep := .idle } := by rw [step, hsweep]
      exact ⟨_, reach_step .visit trivial hstep, rfl, rfl⟩
    | some message =>
      have hvisit : s.step .visit = s.visitMessage now message := by rw [step, hsweep]
      obtain ⟨n, hnode, hloop⟩ := Option.bind_eq_some_iff.mp h
      rw [visitMessage, hnode, Option.bind_some] at hvisit
      cases hjudge : tr50PendingJudge now n.value with
      | keep =>
        rw [hjudge] at hvisit hloop
        obtain ⟨t, hrun, hidle, hpending⟩ :=
          ih (s := { s with sweep := .scan now n.next }) rfl hnew hloop
        exact ⟨t, (reach_step .visit trivial hvisit).trans hrun, hidle, hpending⟩
      | reschedule =>
        rw [hjudge] at hvisit hloop
        obtain ⟨links, hlinks, hloop⟩ := Option.bind_eq_some_iff.mp hloop
        simp only [hlinks, Option.map_some] at hvisit
        obtain ⟨t, hrun, hidle, hpending⟩ := ih
          (s := { s with sweep := .scan now n.next, pending := { s.pending with links } }) rfl hnew
          hloop
        exact ⟨t, (reach_step .visit trivial hvisit).trans hrun, hidle, hpending⟩
      | expire =>
        rw [hjudge] at hvisit hloop
        obtain ⟨p₁, hremove, hloop⟩ := Option.bind_eq_some_iff.mp hloop
        simp only [hremove, Option.map_some] at hvisit
        cases hcallback : n.value.callback with
        | none =>
          simp only [hcallback, Option.isSome_none] at hvisit hloop
          obtain ⟨t, hrun, hidle, hpending⟩ := ih
            (s := { s with
              sweep := .scan now n.next
              pending := p₁.messageDelete message
              removed := message :: s.removed }) rfl hnew hloop
          exact ⟨t, (reach_step .visit trivial hvisit).trans hrun, hidle, hpending⟩
        | some k =>
          simp only [hcallback, Option.isSome_some, if_true] at hvisit hloop
          obtain ⟨p₂, hsubmit, hloop⟩ := Option.bind_eq_some_iff.mp hloop
          obtain ⟨⟨p₃, calls'⟩, hrest, hp₃⟩ := Option.map_eq_some_iff.mp hloop
          obtain ⟨rfl, rfl⟩ := Prod.mk.inj hp₃
          rw [Swept.flatten_eq, List.map_append, List.append_assoc] at hnew
          -- the callback, and then the next message
          have hcalled := reach_submitAll (s := { s with
            sweep := .callback now message n.next
            pending := p₁
            removed := message :: s.removed }) rfl
            ((hnew.perm (List.perm_append_comm_assoc ..)).of_append_right) hsubmit
          obtain ⟨t, hrun, hidle, hpending⟩ := ih
            (s := { s with
              sweep := .scan now n.next
              pending := p₂.messageDelete message
              added := ((submits.headD []).map (·.1.handle)).reverse ++ s.added
              removed := message :: s.removed }) rfl
            (hnew.perm ((List.perm_append_comm_assoc ..).trans
              (((List.reverse_perm _).symm.append_right _).append_left _))) hrest
          exact ⟨t, (((reach_step .visit trivial hvisit).trans hcalled).trans
            (reach_step .callbackReturn trivial rfl)).trans hrun, hidle, hpending⟩

end PendingSystem

/-! ## What expires -/

section Expiry

variable {p : LinkedPending κ} {q : Tr50Pending κ} {now : ℤ} {m : Tr50Message κ}

/-- The test for a clock shifted forward never holds. -/
theorem judge_eq_expire : tr50PendingJudge now m = .expire
    ↔ m.pendingExpirationTimestamp ≤ now := by
  have hallow : tr50PendingTimeShiftAllow = 3600000 := rfl
  unfold tr50PendingJudge
  split_ifs <;> simp <;> omega

theorem expired_eq (list : List (Tr50Message κ)) : tr50PendingExpired now list
    = list.filter fun m => m.pendingExpirationTimestamp ≤ now := by
  simp only [tr50PendingExpired, judge_eq_expire]

/-- A message that waits on: the second test finds it set back where the sum of its `int`s is below
what is left of its time. -/
def tr50PendingKept (now : ℤ) (m : Tr50Message κ) : Tr50Message κ :=
  if now - m.pendingExpirationTimestamp > toInt32 (tr50PendingTimeShiftAllow + m.callbackTimeout)
  then { m with pendingExpirationTimestamp := now + m.callbackTimeout }
  else m

@[simp] theorem handle_kept : (tr50PendingKept now m).handle = m.handle := by
  unfold tr50PendingKept
  split_ifs <;> rfl

/-- The sum does not come to that as long as it is an `int`, and not negative. -/
theorem kept_eq (hnow : now < m.pendingExpirationTimestamp)
    (hsum : 0 ≤ tr50PendingTimeShiftAllow + m.callbackTimeout)
    (hint : tr50PendingTimeShiftAllow + m.callbackTimeout < 2 ^ 31) :
    tr50PendingKept now m = m := by
  refine if_neg ?_
  rw [toInt32_of_mem ⟨by omega, hint⟩]
  omega

/-- What does not expire stays. -/
theorem filterMap_treat (list : List (Tr50Message κ)) :
    list.filterMap (tr50PendingTreat now)
      = (list.filter fun m => now < m.pendingExpirationTimestamp).map (tr50PendingKept now) := by
  induction list with
  | nil => rfl
  | cons m list ih =>
    by_cases hnow : m.pendingExpirationTimestamp ≤ now
    · have hgone : tr50PendingTreat now m = none := by
        rw [tr50PendingTreat, judge_eq_expire.mpr hnow]
      rw [List.filterMap_cons_none hgone, List.filter_cons_of_neg (by simpa using hnow), ih]
    · have hkept : tr50PendingTreat now m = some (tr50PendingKept now m) := by
        rw [tr50PendingTreat, tr50PendingJudge, if_neg hnow, tr50PendingKept]
        split_ifs <;> rfl
      rw [List.filterMap_cons_some hkept, List.filter_cons_of_pos (by simpa using hnow),
        List.map_cons, ih]

/-- **A sweep takes out what has expired**, each with one call of its callback, in order, and keeps
the rest in order: of the messages it starts with and of those that its callbacks have added, but
for `late`, which callbacks have added when it was at the end of the list.  What it keeps is as it
was, if the `int` of its second test does not overflow.  Where no callback reads an earlier time
than the sweep, all that they have added stays. -/
theorem sweep_removes (h : p.Refines q) (now : ℤ) (submits : List (List (Tr50Message κ × ℤ)))
    (fuel : ℕ)
    (hnew : (q.handles ++ submits.flatten.map (·.1.handle)).Nodup)
    (hshift : ∀ m ∈ q.list,
      m.pendingExpirationTimestamp ≤ now + tr50PendingTimeShiftAllow + m.callbackTimeout)
    (hpositive : ∀ x ∈ submits.flatten, 0 < x.1.callbackTimeout)
    (hfuel : q.list.length + submits.flatten.length < fuel) :
    ∃ p' q' calls visited late,
      p.sweep fuel now submits = some (p', calls) ∧ p'.Refines q'
      ∧ (submits.take calls.length).flatten.map stamped = visited ++ late
      ∧ q'.list = ((q.list ++ visited).filter fun m =>
          now < m.pendingExpirationTimestamp).map (tr50PendingKept now) ++ late
      ∧ (∀ m ∈ q.list ++ visited, now < m.pendingExpirationTimestamp →
          tr50PendingTimeShiftAllow + m.callbackTimeout < 2 ^ 31 → tr50PendingKept now m = m)
      ∧ calls = ((q.list ++ visited).filter fun m =>
          m.pendingExpirationTimestamp ≤ now).filterMap timeoutCall
      ∧ q'.expiredCount = q.expiredCount + ((q.list ++ visited).filter fun m =>
          m.pendingExpirationTimestamp ≤ now).length
      ∧ ((∀ x ∈ submits.flatten, now ≤ x.2) → ∀ m ∈ visited ++ late,
          now < m.pendingExpirationTimestamp) := by
  obtain ⟨p', q', calls, visited, late, hloop, hrefines, hswept⟩ :=
    LinkedPending.sweepLoop_treats h now fuel submits [] q.list rfl hnew hfuel
  rw [← first_byHandle, ← h.links.head] at hloop
  -- a message that a callback has added
  have hadded : ∀ m ∈ visited ++ late, ∃ x ∈ submits.flatten, m = stamped x := fun m hm => by
    rw [← hswept.submitted] at hm
    obtain ⟨x, hx, rfl⟩ := List.mem_map.mp hm
    exact ⟨x, ((List.take_sublist ..).flatten).subset hx, rfl⟩
  refine ⟨p', q', calls, visited, late, hloop, hrefines, hswept.submitted, ?_,
    fun m hm hnow hint => ?_, ?_, ?_, fun hclock m hm => ?_⟩
  · rw [hswept.list, List.nil_append, filterMap_treat]
  · refine kept_eq hnow ?_ hint
    rcases List.mem_append.mp hm with hm | hm
    · have hlate := hshift m hm
      omega
    · obtain ⟨x, hx, rfl⟩ := hadded m (List.mem_append_left _ hm)
      have hallow : tr50PendingTimeShiftAllow = 3600000 := rfl
      have htimeout := hpositive x hx
      change 0 ≤ _ + x.1.callbackTimeout
      omega
  · rw [hswept.calls, expired_eq]
  · rw [hswept.expiredCount, expired_eq]
  · obtain ⟨x, hx, rfl⟩ := hadded m hm
    have htimeout := hpositive x hx
    have hread := hclock x hx
    change now < x.2 + x.1.callbackTimeout
    omega

/-- A request of `handle` with its timeout. -/
def requestFor (handle : ℕ) (callbackTimeout : ℤ) (callback : Option Unit) : Tr50Message Unit :=
  ⟨handle, .obj, handle, callbackTimeout, callback, 0, 0⟩

/-- The first and the last of three expire, and the callback of the first adds a fourth. -/
theorem sweep_removes_ends : ∃ (p p' : LinkedPending Unit) (q q' : Tr50Pending Unit)
    (calls : List (Invocation Unit)),
    p.Refines q ∧ q.handles = [1, 2, 3]
      ∧ p.sweep 5 50 [[(requestFor 4 10 none, 50)]] = some (p', calls) ∧ p'.Refines q'
      ∧ q'.handles = [2, 4] ∧ calls = [⟨1, (), errTr50ReqTimeout, none⟩] ∧ q'.expiredCount = 2 := by
  obtain ⟨p, q, -, hrefines, hlist, hcount⟩ := LinkedPending.submitAll_refines
    (LinkedPending.create_refines (κ := Unit))
    [(requestFor 1 10 (some ()), 0), (requestFor 2 100 none, 0),
      (requestFor 3 10 none, 0)] (by decide)
  simp only [tr50PendingCreate, List.nil_append, List.map_cons, List.map_nil, stamped, requestFor,
    Nat.cast_ofNat, zero_add] at hlist hcount
  obtain ⟨p', q', calls, visited, late, hsweep, hrefines', hadded, hlist', hkept, hcalls, hcount',
      hstay⟩ :=
    sweep_removes hrefines 50 [[(requestFor 4 10 none, 50)]] 5
      (by simp [Tr50Pending.handles, hlist, requestFor])
      (by simp [hlist, tr50PendingTimeShiftAllow]) (by simp [requestFor]) (by simp [hlist])
  have hstays := hstay (by simp)
  have hvisited : (visited.filter fun m => m.pendingExpirationTimestamp ≤ 50) = [] :=
    List.filter_eq_nil_iff.mpr fun m hm => by
      simpa using hstays m (List.mem_append_left _ hm)
  have hvisited' : (visited.filter fun m => 50 < m.pendingExpirationTimestamp) = visited :=
    List.filter_eq_self.mpr fun m hm => by simpa using hstays m (List.mem_append_left _ hm)
  rw [List.filter_append, hvisited, hlist] at hcalls hcount'
  obtain rfl : calls = [⟨1, (), errTr50ReqTimeout, none⟩] := hcalls
  have hhandles : q'.handles = [2] ++ (visited ++ late).map (·.handle) := by
    rw [Tr50Pending.handles, hlist', List.filter_append, hvisited', hlist]
    simp [Function.comp_def]
  rw [← hadded] at hhandles
  exact ⟨p, p', q, q', _, hrefines, by simp [Tr50Pending.handles, hlist], hsweep, hrefines',
    hhandles, rfl, hcount'.trans (by rw [hcount]; rfl)⟩

end Expiry

/-! ## A clock that is set

The comments on the tests: a message is rescheduled where the clock has been set forward, past its
expiration, and where it has been set back. -/

section Shifted

/-- The tests as their comments have them. -/
def meantJudge (now : ℤ) (m : Tr50Message κ) : Judgement :=
  if now - m.pendingExpirationTimestamp > tr50PendingTimeShiftAllow then .reschedule
  else if m.pendingExpirationTimestamp - now > tr50PendingTimeShiftAllow + m.callbackTimeout then
    .reschedule
  else if m.pendingExpirationTimestamp ≤ now then .expire
  else .keep

/-- What a sweep has left of a message, and whether it has called it back. -/
def Treated (now : ℤ) (q' : Tr50Pending κ) (calls : List (Invocation κ)) (m : Tr50Message κ) :
    Judgement → Prop
  | .keep => m ∈ q'.list ∧ ∀ c ∈ calls, c.handle ≠ m.handle
  | .reschedule => { m with pendingExpirationTimestamp := now + m.callbackTimeout } ∈ q'.list
      ∧ ∀ c ∈ calls, c.handle ≠ m.handle
  | .expire => m.handle ∉ q'.handles ∧ ∀ c ∈ timeoutCall m, c ∈ calls

variable {p : LinkedPending κ} {q q' : Tr50Pending κ} {now : ℤ} {m : Tr50Message κ}
  {submits : List (List (Tr50Message κ × ℤ))} {calls : List (Invocation κ)}
  {visited late : List (Tr50Message κ)}

theorem handle_of_treat {m' : Tr50Message κ} (h : tr50PendingTreat now m = some m') :
    m'.handle = m.handle := by
  unfold tr50PendingTreat at h
  split at h <;> cases h <;> rfl

theorem handle_of_timeoutCall {c : Invocation κ} (h : timeoutCall m = some c) :
    c.handle = m.handle := by
  obtain ⟨k, -, rfl⟩ := Option.map_eq_some_iff.mp h
  rfl

/-- Of the messages that a sweep comes to, one has a handle. -/
theorem Swept.nodup (h : Swept now submits q [] q.list q' calls visited late)
    (hnew : (q.handles ++ submits.flatten.map (·.1.handle)).Nodup) :
    ((q.list ++ visited ++ late).map (·.handle)).Nodup := by
  have hadded : (visited ++ late).map (·.handle)
      = ((submits.take calls.length).flatten.map (·.1.handle)) := by
    rw [← h.submitted, List.map_map]
    rfl
  rw [List.append_assoc, List.map_append, hadded]
  exact hnew.sublist (((List.take_sublist ..).flatten.map _).append_left _)

/-- **Every message is treated as the tests have it.** -/
theorem Swept.treated (h : Swept now submits q [] q.list q' calls visited late)
    (hnew : (q.handles ++ submits.flatten.map (·.1.handle)).Nodup) (hm : m ∈ q.list) :
    Treated now q' calls m (tr50PendingJudge now m) := by
  have hnodup := h.nodup hnew
  have hsame : ∀ m' ∈ q.list ++ visited ++ late, m'.handle = m.handle → m' = m := fun m' hm' heq =>
    List.inj_on_of_nodup_map hnodup hm' (by simp [hm]) heq
  -- a message that stays is not called back
  have hquiet : tr50PendingJudge now m ≠ .expire → ∀ c ∈ calls, c.handle ≠ m.handle := by
    intro hjudge c hc heq
    rw [h.calls] at hc
    obtain ⟨m', hm', hcall⟩ := List.mem_filterMap.mp hc
    obtain ⟨hvisited, hexpire⟩ := List.mem_filter.mp hm'
    obtain rfl := hsame m' (List.mem_append_left _ hvisited)
      ((handle_of_timeoutCall hcall).symm.trans heq)
    exact hjudge (by simpa using hexpire)
  have hleft : ∀ m', tr50PendingTreat now m = some m' → m' ∈ q'.list := fun m' hm' => by
    rw [h.list]
    exact List.mem_append_left _ (List.mem_filterMap.mpr ⟨m, by simp [hm], hm'⟩)
  cases hjudge : tr50PendingJudge now m with
  | keep => exact ⟨hleft m (by rw [tr50PendingTreat, hjudge]), hquiet (by simp [hjudge])⟩
  | reschedule => exact ⟨hleft _ (by rw [tr50PendingTreat, hjudge]), hquiet (by simp [hjudge])⟩
  | expire =>
    refine ⟨fun hin => ?_, fun c hc => ?_⟩
    · obtain ⟨m', hm', heq⟩ := List.mem_map.mp hin
      rw [h.list, List.nil_append] at hm'
      rcases List.mem_append.mp hm' with hm' | hm'
      · obtain ⟨m₀, hm₀, htreat⟩ := List.mem_filterMap.mp hm'
        obtain rfl := hsame m₀ (List.mem_append_left _ hm₀)
          ((handle_of_treat htreat).symm.trans heq)
        simp [tr50PendingTreat, hjudge] at htreat
      · -- what is added is another message
        obtain rfl := hsame m' (List.mem_append_right _ hm') heq
        rw [List.append_assoc, List.map_append] at hnodup
        exact List.disjoint_of_nodup_append hnodup (List.mem_map_of_mem hm)
          (List.mem_map_of_mem (List.mem_append_right _ hm'))
    · rw [h.calls]
      have hexpired : m ∈ tr50PendingExpired now (q.list ++ visited) :=
        List.mem_filter.mpr ⟨by simp [hm], by simpa using hjudge⟩
      exact List.mem_filterMap.mpr ⟨m, hexpired, hc⟩

/-- A message that stays is in the list. -/
theorem Treated.mem_handles {j : Judgement} (h : Treated now q' calls m j) (hj : j ≠ .expire) :
    m.handle ∈ q'.handles := by
  cases j with
  | keep => exact List.mem_map_of_mem h.1
  | reschedule => exact List.mem_map_of_mem (f := (·.handle)) h.1
  | expire => exact absurd rfl hj

/-- A message is treated in one way, unless it would be rescheduled to when it expires anyway. -/
theorem Treated.unique {j j' : Judgement} (hnodup : q'.handles.Nodup)
    (h : Treated now q' calls m j) (h' : Treated now q' calls m j') :
    j = j' ∨ m.pendingExpirationTimestamp = now + m.callbackTimeout
      ∧ j ≠ .expire ∧ j' ≠ .expire := by
  have hone : ∀ {m' : Tr50Message κ}, m ∈ q'.list → m' ∈ q'.list → m'.handle = m.handle → m = m' :=
    fun hm hm' heq => List.inj_on_of_nodup_map hnodup hm hm' heq.symm
  by_cases hj : j = .expire
  · subst hj
    exact Or.inl (by_contra fun hne => h.1 (h'.mem_handles (Ne.symm hne)))
  by_cases hj' : j' = .expire
  · subst hj'
    exact absurd (h.mem_handles hj) h'.1
  cases j <;> cases j' <;> first | contradiction | exact Or.inl rfl | refine Or.inr ⟨?_, hj, hj'⟩
  · exact congrArg (·.pendingExpirationTimestamp) (hone h.1 h'.1 rfl)
  · exact congrArg (·.pendingExpirationTimestamp) (hone h'.1 h.1 rfl)

/-- …and then in both. -/
theorem Treated.again {j j' : Judgement}
    (hagain : m.pendingExpirationTimestamp = now + m.callbackTimeout) (h : Treated now q' calls m j)
    (hj : j ≠ .expire) (hj' : j' ≠ .expire) : Treated now q' calls m j' := by
  have hsame : { m with pendingExpirationTimestamp := now + m.callbackTimeout } = m := by
    rw [← hagain]
  cases j <;> cases j' <;> first | contradiction | exact h | exact ⟨hsame ▸ h.1, h.2⟩

/-- Where the clock has not been set by more than is allowed, and the `int` of the second test does
not find a message set back that waits on (or would give it the time it has); or where that test
finds one that is. -/
def InTime (now : ℤ) (m : Tr50Message κ) : Prop :=
  now - m.pendingExpirationTimestamp ≤ tr50PendingTimeShiftAllow
      ∧ m.pendingExpirationTimestamp - now ≤ tr50PendingTimeShiftAllow + m.callbackTimeout
      ∧ (m.pendingExpirationTimestamp ≤ now
        ∨ now - m.pendingExpirationTimestamp
          ≤ toInt32 (tr50PendingTimeShiftAllow + m.callbackTimeout)
        ∨ m.pendingExpirationTimestamp = now + m.callbackTimeout)
    ∨ now < m.pendingExpirationTimestamp
      ∧ now - m.pendingExpirationTimestamp > toInt32 (tr50PendingTimeShiftAllow + m.callbackTimeout)
      ∧ m.pendingExpirationTimestamp - now > tr50PendingTimeShiftAllow + m.callbackTimeout

/-- **There the tests say what is meant**, or come to the same. -/
theorem inTime_iff : InTime now m ↔ tr50PendingJudge now m = meantJudge now m
    ∨ m.pendingExpirationTimestamp = now + m.callbackTimeout
      ∧ tr50PendingJudge now m ≠ .expire ∧ meantJudge now m ≠ .expire := by
  have hallow : tr50PendingTimeShiftAllow = 3600000 := rfl
  unfold InTime tr50PendingJudge meantJudge
  split_ifs <;> simp <;> omega

/-- **A sweep treats its messages as meant where the clock has not been set**: otherwise there is
one whose expiration is too long past, which expires, or too far ahead, which waits on, or whose
timeout is too long for an `int`, which is given time anew. -/
theorem sweep_treatsAsMeant_iff (h : p.Refines q) (now : ℤ)
    (submits : List (List (Tr50Message κ × ℤ))) (fuel : ℕ)
    (hnew : (q.handles ++ submits.flatten.map (·.1.handle)).Nodup)
    (hfuel : q.list.length + submits.flatten.length < fuel) :
    ∃ p' q' calls, p.sweep fuel now submits = some (p', calls) ∧ p'.Refines q'
      ∧ ((∀ m ∈ q.list, Treated now q' calls m (meantJudge now m))
        ↔ ∀ m ∈ q.list, InTime now m) := by
  obtain ⟨p', q', calls, visited, late, hloop, hrefines, hswept⟩ :=
    LinkedPending.sweepLoop_treats h now fuel submits [] q.list rfl hnew hfuel
  rw [← first_byHandle, ← h.links.head] at hloop
  refine ⟨p', q', calls, hloop, hrefines, forall₂_congr fun m hm => ?_⟩
  have htreated := hswept.treated hnew hm
  rw [inTime_iff]
  refine ⟨fun hmeant => htreated.unique hrefines.nodup hmeant, ?_⟩
  rintro (heq | ⟨hagain, hstay, hstay'⟩)
  · exact heq ▸ htreated
  · exact Treated.again hagain htreated hstay hstay'

/-- One of two requests has waited as long as it may, and the sweep that finds it treats both as
meant. -/
theorem sweep_treatsAsMeant_onTime : ∃ (p p' : LinkedPending Unit) (q q' : Tr50Pending Unit)
    (calls : List (Invocation Unit)),
    p.Refines q ∧ q.handles = [1, 2] ∧ p.sweep 3 50 [] = some (p', calls) ∧ p'.Refines q'
      ∧ ∀ m ∈ q.list, Treated 50 q' calls m (meantJudge 50 m) := by
  obtain ⟨p, q, -, hrefines, hlist, -⟩ := LinkedPending.submitAll_refines
    (LinkedPending.create_refines (κ := Unit))
    [(requestFor 1 50 (some ()), 0), (requestFor 2 100 none, 0)] (by decide)
  simp only [tr50PendingCreate, List.nil_append, List.map_cons, List.map_nil, stamped, requestFor,
    Nat.cast_ofNat, zero_add] at hlist
  obtain ⟨p', q', calls, hsweep, hrefines', hiff⟩ :=
    sweep_treatsAsMeant_iff hrefines 50 [] 3
      (by simp [Tr50Pending.handles, hlist]) (by simp [hlist])
  refine ⟨p, p', q, q', calls, hrefines, by simp [Tr50Pending.handles, hlist], hsweep, hrefines',
    hiff.mpr fun m hm => Or.inl ?_⟩
  rw [hlist] at hm
  rcases List.mem_pair.mp hm with rfl | rfl <;> decide

/-- The clock is set forward by more than an hour: the request is taken out and called back instead
of rescheduled. -/
theorem not_treated_setForward : ∃ (p p' : LinkedPending Unit) (q q' : Tr50Pending Unit)
    (m : Tr50Message Unit),
    p.Refines q ∧ q.list = [m] ∧ 3600011 - m.pendingExpirationTimestamp > tr50PendingTimeShiftAllow
      ∧ p.sweep 2 3600011 [] = some (p', [⟨m.handle, (), errTr50ReqTimeout, none⟩])
      ∧ p'.Refines q' ∧ q'.list = []
      ∧ ¬ Treated 3600011 q' [⟨m.handle, (), errTr50ReqTimeout, none⟩] m .reschedule := by
  obtain ⟨p, q, -, hrefines, hlist, -⟩ := LinkedPending.submitAll_refines
    (LinkedPending.create_refines (κ := Unit))
    [(requestFor 1 10 (some ()), 0)] (by decide)
  simp only [tr50PendingCreate, List.nil_append, List.map_cons, List.map_nil] at hlist
  obtain ⟨p', q', calls, visited, late, hloop, hrefines', hswept⟩ :=
    LinkedPending.sweepLoop_treats hrefines 3600011 2 [] [] q.list rfl
      (by simp [Tr50Pending.handles, hlist]) (by simp [hlist])
  rw [← first_byHandle, ← hrefines.links.head] at hloop
  -- no callback adds anything
  obtain ⟨rfl, rfl⟩ : visited = [] ∧ late = [] := by simpa using hswept.submitted
  have hlist' := hswept.list
  have hcalls := hswept.calls
  rw [hlist] at hlist' hcalls
  obtain rfl : calls = [⟨1, (), errTr50ReqTimeout, none⟩] := hcalls
  have hempty : q'.list = [] := hlist'
  exact ⟨p, p', q, q', _, hrefines, hlist, by decide, hloop, hrefines', hempty,
    fun htreated => by simpa [hempty] using htreated.1⟩

end Shifted

end Tr50
