import Tr50.Mqtt.Released

/-!
# Mqtt/Undone — what a request that fails leaves behind

A request takes a slot of the QoS table before its packet is built, in `_mqtt_async_publish_base`,
`mqtt_async_subscribe` and `mqtt_async_unsubscribe` alike, and none of them gives it back: where the
builder fails the call returns nonzero, and its record stays (`undone_iff`).

Whom the records in use and the record in hand are for is owed a call (`AsyncSystem.owed`).  From
any state on, only what is owed there and what is added later is called back (`accounts_reach`), so
a request that has left no record is never called back.
-/

namespace Tr50

open Machinery

variable {γ κ : Type}

namespace AsyncSystem

variable {params : MqttConnectParams} {s t u : AsyncSystem γ κ} {a : AsyncAction γ κ}

/-! ## What is owed -/

/-- Who may yet be called back without a record more. -/
def owed (s : AsyncSystem γ κ) : Multiset (γ × Option κ) :=
  ↑s.handler.pending + ↑(s.client.qos.keys.filterMap RecordKey.call)

/-- From `s` on, who has been called back or is owed a call was so in `s`, or has been added
since. -/
def Accounts (s t : AsyncSystem γ κ) : Prop :=
  ∃ new, t.history.added = new ++ s.history.added
    ∧ (↑t.invoked + t.owed : Multiset (γ × Option κ))
      ≤ ↑s.invoked + s.owed + ↑((new.map Prod.snd).filterMap RecordKey.call)

theorem Accounts.refl (s : AsyncSystem γ κ) : Accounts s s := ⟨[], rfl, by simp⟩

theorem Accounts.trans (h : Accounts s t) (h' : Accounts t u) : Accounts s u := by
  obtain ⟨new, hadded, hle⟩ := h
  obtain ⟨new', hadded', hle'⟩ := h'
  refine ⟨new' ++ new, by rw [hadded', hadded, List.append_assoc], ?_⟩
  rw [List.map_append, List.filterMap_append, ← Multiset.coe_add]
  calc (↑u.invoked + u.owed : Multiset (γ × Option κ))
      ≤ ↑t.invoked + t.owed + ↑((new'.map Prod.snd).filterMap RecordKey.call) := hle'
    _ ≤ ↑s.invoked + s.owed + ↑((new.map Prod.snd).filterMap RecordKey.call)
          + ↑((new'.map Prod.snd).filterMap RecordKey.call) := add_le_add hle le_rfl
    _ = ↑s.invoked + s.owed + (↑((new'.map Prod.snd).filterMap RecordKey.call)
          + ↑((new.map Prod.snd).filterMap RecordKey.call)) := by abel

/-- Nothing is added, and what is owed stays or is dropped. -/
theorem Accounts.same (hkeys : t.client.qos.keys = s.client.qos.keys)
    (hadded : t.history.added = s.history.added) (hinvoked : t.history.invoked = s.history.invoked)
    (hpending : t.handler.pending = s.handler.pending ∨ t.handler.pending = []) :
    Accounts s t := by
  refine ⟨[], hadded, ?_⟩
  have hle : (↑t.handler.pending : Multiset (γ × Option κ)) ≤ ↑s.handler.pending := by
    rcases hpending with h | h <;> rw [h]
    exact Multiset.zero_le _
  have hcalled : t.invoked = s.invoked := congrArg (List.map QosInvocation.call) hinvoked
  rw [owed, owed, hkeys, hcalled]
  exact (add_le_add le_rfl (add_le_add hle le_rfl)).trans (Multiset.le_add_right _ _)

/-- A record goes out of the table, and into the hand. -/
theorem Accounts.take (r : MqttQosRecord γ κ) (hadded : t.history.added = s.history.added)
    (hinvoked : t.history.invoked = s.history.invoked)
    (hqos : s.client.qos.used.Perm (r :: t.client.qos.used))
    (hpending : t.handler.pending = r.key.call.toList) : Accounts s t := by
  refine ⟨[], hadded, ?_⟩
  have hkeys : (↑(s.client.qos.keys.filterMap RecordKey.call) : Multiset (γ × Option κ))
      = ↑(r.key.call.toList) + ↑(t.client.qos.keys.filterMap RecordKey.call) := by
    rw [Multiset.coe_add, Multiset.coe_eq_coe]
    refine ((hqos.map (·.key)).filterMap _).trans ?_
    rw [List.map_cons]
    cases hcall : r.key.call with
    | none => rw [List.filterMap_cons_none hcall]; rfl
    | some call => rw [List.filterMap_cons_some hcall]; rfl
  have hcalled : t.invoked = s.invoked := congrArg (List.map QosInvocation.call) hinvoked
  rw [owed, owed, hkeys, hpending, hcalled]
  exact (add_le_add le_rfl (Multiset.le_add_left _ _)).trans (Multiset.le_add_right _ _)

/-- The record in hand is called back. -/
theorem Accounts.invoke (r : MqttQosRecord γ κ) (status : ℤ) (pc : HandlerPc γ κ)
    (hpending : s.handler.pending = r.key.call.toList) (hpending' : pc.pending = []) :
    Accounts s ((s.invoke r status).goto pc) := by
  refine ⟨[], rfl, ?_⟩
  have hcalled : ((s.invoke r status).goto pc).invoked = r.key.call.toList ++ s.invoked :=
    invoked_invoke r status
  have howed : ((s.invoke r status).goto pc).owed
      = ↑(s.client.qos.keys.filterMap RecordKey.call) := by
    change (↑pc.pending + ↑(s.client.qos.keys.filterMap RecordKey.call) : Multiset (γ × Option κ))
      = _
    rw [hpending', Multiset.coe_nil, zero_add]
  rw [hcalled, howed, owed, hpending, ← Multiset.coe_add]
  refine le_of_eq ?_
  simp only [List.map_nil, List.filterMap_nil, Multiset.coe_nil]
  abel

/-- A record is added. -/
theorem Accounts.add {e : ℤ × RecordKey γ κ}
    (hadded : t.history.added = e :: s.history.added)
    (hinvoked : t.history.invoked = s.history.invoked)
    (hkeys : t.client.qos.keys.Perm (e.2 :: s.client.qos.keys))
    (hpending : t.handler.pending = s.handler.pending) : Accounts s t := by
  refine ⟨[e], hadded, ?_⟩
  have hnew : (↑(t.client.qos.keys.filterMap RecordKey.call) : Multiset (γ × Option κ))
      = ↑([e.2].filterMap RecordKey.call) + ↑(s.client.qos.keys.filterMap RecordKey.call) := by
    rw [Multiset.coe_add, Multiset.coe_eq_coe, ← List.filterMap_append]
    exact hkeys.filterMap _
  have hcalled : t.invoked = s.invoked := congrArg (List.map QosInvocation.call) hinvoked
  rw [owed, owed, hnew, hpending, hcalled]
  refine le_of_eq ?_
  simp only [List.map_cons, List.map_nil]
  abel

/-- **A step calls back whom it owes**, and owes more for a record that it adds only. -/
theorem accounts_step (h : Effect params s a t) : Accounts s t := by
  cases h with
  | started hmain => exact .same rfl rfl rfl (Or.inr rfl)
  | added call call' hcall now record qos hqos h =>
    rcases mqttQosAdd_cases h with ⟨-, hperm, -⟩ | ⟨hret, -⟩
    · exact .add rfl rfl (hperm.map MqttQosRecord.key) rfl
    · cases hret
  | requested call hcall mqtt mqtt' hmqtt hsock ret links h =>
    exact .same (congrArg MqttQos.keys (mqttAsyncSent_qos _ _ _)) rfl rfl (Or.inl rfl)
  | moved pc threadId ping h =>
    generalize hold : s.handler = old at h
    have hempty : pc.pending = [] := by
      cases h with
      | plain hpc hpc' huse => exact HandlerPc.pending_of_plain hpc'
      | stop hstate => rfl
      | empty last hsize => cases last <;> rfl
      | enter last => rfl
      | skip last i hunused => rfl
      | done last i hi => cases last <;> rfl
    exact .same rfl rfl rfl (Or.inr hempty)
  | received mqtt hmqtt answer hpc =>
    cases answer with
    | failed ret hret taken =>
      refine .same rfl rfl rfl (Or.inr ?_)
      change HandlerPc.pending (if ret = errTr50TcpTimeout then .expired else .recvFailed) = []
      split_ifs <;> rfl
    | packet data hdata now => exact .same rfl rfl rfl (Or.inr rfl)
  | broke error why pc ping hfree hpc hpc' huse =>
    refine .same (congrArg MqttQos.keys (mqttAsyncBreak_qos _ _ _)) rfl rfl (Or.inr ?_)
    rcases hpc' with hpc' | rfl
    · exact HandlerPc.pending_of_plain hpc'
    · rfl
  | sent mqtt mqtt' hmqtt hsock links h pc ping hpc hpc' huse =>
    exact .same rfl rfl rfl (Or.inr (HandlerPc.pending_of_plain hpc'))
  | signalled data hpc msgId r ret qos h =>
    rcases mqttQosSignal_cases h with ⟨r', hr, -, -, hperm, -⟩ | ⟨hr, -⟩
    · obtain rfl := Option.some.inj hr
      exact .take r rfl rfl hperm rfl
    · cases hr
  | invoked r status pc h =>
    obtain ⟨hpending, hpending', -⟩ := h.pending
    exact .invoke r status pc hpending hpending'
  | scanned now found qos pc h hpc hpc' huse =>
    exact .same (mqttQosAnyExpired_keys h).1 rfl rfl (Or.inr (HandlerPc.pending_of_plain hpc'))
  | cleared last i hpc r qos h =>
    rcases mqttQosClearStep_cases h with ⟨r', hr, hperm, -⟩ | ⟨hr, -⟩
    · obtain rfl := Option.some.inj hr
      exact .take r rfl rfl hperm rfl
    · cases hr
  | reopened total hpc hfree hstate links h => exact .same rfl rfl rfl (Or.inr rfl)
  | reconnected total hpc mqtt links h => exact .same rfl rfl rfl (Or.inr rfl)
  | unreconnected total hpc ret links h => exact .same rfl rfl rfl (Or.inr rfl)
  | _ => exact .same rfl rfl rfl (Or.inl rfl)

/-- **Only what was owed and what has been added since is called back**, in any run from any
state. -/
theorem accounts_reach (h : Reach (AsyncSystem.step params) (fun _ _ => True) s t) :
    Accounts s t := by
  induction h with
  | refl => exact .refl s
  | tail _ _ hstep ih => exact ih.trans (accounts_step (step_effect hstep))

/-! ## Requests that fail -/

/-- A call that returns nonzero has left the table as it was, and nobody is called back later who
was not owed a call before it and for whom no record is added after it. -/
def Undone (s : AsyncSystem γ κ) (env : RequestEnv) (req : AsyncRequest γ κ) : Prop :=
  ∀ ret client', req.run env (some s.client) = some (ret, some client') → ret ≠ 0 →
    client'.qos = s.client.qos
    ∧ ∀ params u, Reach (AsyncSystem.step params) (fun _ _ => True) { s with client := client' } u →
      ∃ new, u.history.added = new ++ s.history.added
        ∧ (↑u.invoked : Multiset (γ × Option κ))
          ≤ ↑s.invoked + s.owed + ↑((new.map Prod.snd).filterMap RecordKey.call)

/-- Where the table is as it was, so is what is owed. -/
theorem called_of_qos {client' : MqttAsyncClient γ κ} (hqos : client'.qos = s.client.qos)
    (h : Reach (AsyncSystem.step params) (fun _ _ => True) { s with client := client' } u) :
    ∃ new, u.history.added = new ++ s.history.added
      ∧ (↑u.invoked : Multiset (γ × Option κ))
        ≤ ↑s.invoked + s.owed + ↑((new.map Prod.snd).filterMap RecordKey.call) := by
  obtain ⟨new, hadded, hle⟩ := accounts_reach h
  have howed : owed { s with client := client' } = s.owed := by rw [owed, owed, hqos]
  rw [howed] at hle
  exact ⟨new, hadded, (Multiset.le_add_right _ _).trans hle⟩

/-- Where no record is added the table is as it was… -/
theorem qos_of_addRecord {client mid : MqttAsyncClient γ κ} {now r : ℤ}
    {record : Option (Option γ × Option κ)} (hadd : mqttAsyncAddRecord client now record = (r, mid))
    (h : record = none ∨ r ≠ 0) : mid.qos = client.qos := by
  cases record with
  | none =>
    obtain ⟨-, rfl⟩ := Prod.mk.inj hadd
    rfl
  | some record =>
    obtain ⟨⟨ret, qos⟩, hqos⟩ : ∃ x, mqttQosAdd client.qos now (UInt16.ofInt client.msgIdSeq)
      record.1 record.2 = x := ⟨_, rfl⟩
    simp only [mqttAsyncAddRecord, hqos] at hadd
    obtain ⟨rfl, rfl⟩ := Prod.mk.inj hadd
    rcases mqttQosAdd_cases hqos with ⟨hret, -⟩ | ⟨-, hsame, -⟩
    · exact absurd hret (h.resolve_left (Option.some_ne_none record))
    · exact hsame

/-- …and where one is added it has grown. -/
theorem currentSize_of_addRecord {client mid : MqttAsyncClient γ κ} {now : ℤ}
    {record : Option γ × Option κ}
    (hadd : mqttAsyncAddRecord client now (some record) = (0, mid)) :
    mid.qos.currentSize = client.qos.currentSize + 1 := by
  obtain ⟨⟨ret, qos⟩, hqos⟩ : ∃ x, mqttQosAdd client.qos now (UInt16.ofInt client.msgIdSeq)
    record.1 record.2 = x := ⟨_, rfl⟩
  simp only [mqttAsyncAddRecord, hqos] at hadd
  obtain ⟨rfl, rfl⟩ := Prod.mk.inj hadd
  rcases mqttQosAdd_cases hqos with ⟨-, -, hsize, -⟩ | ⟨hfull, -⟩
  · exact hsize
  · exact absurd hfull (by decide)

/-- **A request that fails is undone unless its packet cannot be built**: then its record stays in
the table. -/
theorem undone_iff (s : AsyncSystem γ κ) (env : RequestEnv) (req : AsyncRequest γ κ) :
    Undone s env req ↔ req.record = none ∨ mqttAsyncSameThread s.client env.caller
      ∨ mqttAsyncConnection s.client = none ∨ (∀ r ∈ s.client.qos.records, r.isUsed)
      ∨ ∀ e, packetOf ((req.request (UInt16.ofInt s.client.msgIdSeq)).build env.malloc)
          ≠ some (.error e) := by
  constructor
  · intro h
    by_contra hcon
    simp only [not_or, not_forall, not_not] at hcon
    obtain ⟨hrecord, hthread, hconn, ⟨r, hr, hfree⟩, e, herror⟩ := hcon
    obtain ⟨record, hrecord⟩ := Option.ne_none_iff_exists'.mp hrecord
    obtain ⟨mqtt, hmqtt⟩ := Option.ne_none_iff_exists'.mp hconn
    obtain ⟨⟨ret, mid⟩, hadd⟩ : ∃ x, mqttAsyncAddRecord s.client env.now req.record = x := ⟨_, rfl⟩
    obtain rfl : ret = 0 := (AsyncRequest.addRecord_cases _ _ _ hadd).2.mpr
      fun _ => ⟨r, hr, by simpa using hfree⟩
    have hsend : (req.request (UInt16.ofInt s.client.msgIdSeq)).run env.toSendEnv mqtt
        = some (e, mqtt) := by
      rw [MqttRequest.run_eq, mqttSendMsg, herror]
    have hrun : req.run env (some s.client) = some (e, some (mqttAsyncSent mid e mqtt)) := by
      simp only [AsyncRequest.run_eq, mqttAsyncRequest, Bool.eq_false_iff.mpr hthread, hmqtt, hadd,
        hsend]
      rfl
    have hfail : e ≠ 0 := by
      rw [AsyncRequest.build_error herror]
      decide
    have hqos := (h e _ hrun hfail).1
    rw [mqttAsyncSent_qos] at hqos
    rw [hrecord] at hadd
    have hsize := currentSize_of_addRecord hadd
    rw [hqos] at hsize
    omega
  · intro h ret client' hrun hret
    suffices hqos : client'.qos = s.client.qos from
      ⟨hqos, fun _ _ hreach => called_of_qos hqos hreach⟩
    rw [AsyncRequest.run_eq] at hrun
    rcases mqttAsyncRequest_cases hrun with ⟨-, -, hc⟩ | ⟨-, -, hc⟩
      | ⟨hthread, mqtt, r, mid, hconn, hadd, hcase⟩
    · rw [Option.some.inj hc]
    · rw [Option.some.inj hc]
    rcases hcase with ⟨hr, -, hc⟩ | ⟨rfl, mqtt', hsend, hc⟩
    · rw [Option.some.inj hc]
      exact qos_of_addRecord hadd (Or.inr hr)
    rw [Option.some.inj hc, mqttAsyncSent_qos]
    rw [MqttRequest.run_eq] at hsend
    rcases mqttSendMsg_cases hsend with ⟨-, -, hzero, -⟩ | ⟨herror, -⟩
    · exact absurd hzero hret
    -- the builder has failed, so there was no record to add
    rcases h with hnone | hsame | hnone | hfull | hbuild
    · exact qos_of_addRecord hadd (Or.inl hnone)
    · rw [hthread] at hsame
      cases hsame
    · rw [hconn] at hnone
      cases hnone
    · cases hrecord : req.record with
      | none => exact qos_of_addRecord hadd (Or.inl hrecord)
      | some record =>
        obtain ⟨slot, hslot, hfree⟩ :=
          (AsyncRequest.addRecord_cases _ _ _ hadd).2.mp rfl (by rw [hrecord]; rfl)
        rw [hfull slot hslot] at hfree
        cases hfree
    · exact absurd herror (hbuild ret)

/-- A thread whose request finds no memory for its packet. -/
def withoutMemory : RequestEnv := ⟨⟨false, 0⟩, some 2, 0⟩

/-- What follows a connection: the client is disconnected, and the receive thread ends. -/
def disconnected : List (AsyncAction Unit Unit) :=
  List.replicate 2 (AsyncAction.main .plain)
    ++ List.replicate 4 (AsyncAction.handler .acknowledged)

set_option synthInstance.maxSize 400 in
/-- A subscribe without memory returns an error, and its callback is invoked when the client is
disconnected. -/
theorem not_undone : ∃ s : AsyncSystem Unit Unit,
    Reach (AsyncSystem.step .anonymous) (fun _ _ => True) init s ∧ s.MuxFree
      ∧ ¬ Undone s withoutMemory (.subscribe [97] 1 (some ()) none)
      ∧ ∃ client' u,
        AsyncRequest.run withoutMemory (some s.client) (.subscribe [97] 1 (some ()) none)
          = some (errTr50Malloc, some client')
        ∧ disconnected.foldlM (AsyncSystem.step .anonymous) { s with client := client' } = some u
        ∧ s.invoked = [] ∧ s.owed = 0 ∧ u.added = [] ∧ u.invoked = [((), none)] := by
  have heval : ((session.take 4).foldlM (AsyncSystem.step .anonymous) init).bind (fun s =>
      (AsyncRequest.run withoutMemory (some s.client)
          (.subscribe [97] 1 (some ()) none)).bind fun r => r.2.bind fun client' =>
        (disconnected.foldlM (AsyncSystem.step .anonymous) { s with client := client' }).map
          fun u => (decide s.MuxFree, [r.1, s.client.qos.currentSize, client'.qos.currentSize],
            [s.handler.pending.length, s.client.qos.keys.length, s.invoked.length, u.added.length],
            u.invoked))
      = some (true, [errTr50Malloc, 0, 1], [0, 0, 0, 0], [((), none)]) := by decide +kernel
  obtain ⟨s, hs, heval⟩ := Option.bind_eq_some_iff.mp heval
  obtain ⟨⟨ret, handle⟩, hrun, heval⟩ := Option.bind_eq_some_iff.mp heval
  obtain ⟨client', rfl, heval⟩ := Option.bind_eq_some_iff.mp heval
  obtain ⟨u, hu, hview⟩ := Option.map_eq_some_iff.mp heval
  simp only [Prod.mk.injEq, List.cons.injEq, List.length_eq_zero_iff, and_true] at hview
  obtain ⟨hfree, ⟨rfl, hsize, hsize'⟩, ⟨hpending, hkeys, hinvoked, hadded⟩, hcalled⟩ := hview
  refine ⟨s, Reach.of_foldlM _ (by simp) hs, of_decide_eq_true hfree, fun h => ?_, client', u, hrun,
    hu, hinvoked, ?_, hadded, hcalled⟩
  · have hqos := (h _ _ hrun (by decide)).1
    rw [hqos, hsize] at hsize'
    cases hsize'
  · rw [owed, hpending, hkeys]
    rfl

end AsyncSystem

end Tr50
