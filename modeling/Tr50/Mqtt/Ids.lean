import Tr50.Machinery.Window
import Tr50.Mqtt.Publish
import Tr50.Mqtt.Released

/-!
# Mqtt/Ids — the ids of the records in use

A record's id is `msg_id_seq` modulo `65536`, and `msg_id_seq` grows with every request, QoS `0` or
not.  Nothing compares a new id with those in use: two records have the same id exactly when their
numbers are a multiple of `65536` apart (`msgIds_nodup`), as they are when a record stays in use
while the counter goes round (`not_msgIds_nodup_wrap`).
-/

namespace Tr50

open Machinery
open scoped List

variable {γ κ : Type}

/-! ## Signals -/

section Qos

variable {mq : MqttQos γ κ}

theorem mqttQosSignalLoop_eq_none {msgId : UInt16} {records : List (MqttQosRecord γ κ)} :
    mqttQosSignalLoop msgId records = none ↔ ∀ r ∈ records, ¬ (r.isUsed ∧ r.msgId = msgId) := by
  induction records with
  | nil => simp [mqttQosSignalLoop]
  | cons r records ih =>
    rw [mqttQosSignalLoop, List.forall_mem_cons, ← ih]
    split_ifs with hr <;> simp [hr]

/-- **A signal for an id in use releases a record.** -/
theorem mqttQosSignal_isSome (hmq : mq.Counted) {r : MqttQosRecord γ κ} (hr : r ∈ mq.used) :
    (mqttQosSignal mq r.msgId).2.2.isSome := by
  obtain ⟨hmem, hused⟩ := List.mem_filter.mp hr
  have hpos : 0 < mq.used.length := List.length_pos_of_mem hr
  have hsize : mq.currentSize ≠ 0 := by
    unfold MqttQos.Counted at hmq
    omega
  rw [mqttQosSignal, if_neg hsize]
  cases hloop : mqttQosSignalLoop r.msgId mq.records with
  | none => exact absurd ⟨hused, rfl⟩ (mqttQosSignalLoop_eq_none.mp hloop r hmem)
  | some res => rfl

/-- **Where the ids in use are distinct, it is the record with its id.** -/
theorem mqttQosSignal_of_nodup (hmq : mq.Counted) (h : (mq.used.map (·.msgId)).Nodup)
    {r : MqttQosRecord γ κ} (hr : r ∈ mq.used) : (mqttQosSignal mq r.msgId).2.2 = some r := by
  have hsome := mqttQosSignal_isSome hmq hr
  obtain ⟨⟨ret, mq', released⟩, hsignal⟩ : ∃ res, mqttQosSignal mq r.msgId = res := ⟨_, rfl⟩
  rw [hsignal] at hsome ⊢
  rcases mqttQosSignal_cases hsignal with ⟨r', rfl, -, hid, hperm, -⟩ | ⟨rfl, -, -⟩
  · have hr' : r' ∈ mq.used := hperm.mem_iff.mpr (List.mem_cons_self ..)
    rw [List.inj_on_of_nodup_map h hr' hr hid]
  · cases hsome

end Qos

/-! ## Numbers -/

theorem uint16_ofInt_eq_iff {x y : ℤ} :
    UInt16.ofInt x = UInt16.ofInt y ↔ x % 65536 = y % 65536 := by
  unfold UInt16.ofInt
  rw [← UInt16.toNat_inj, UInt16.toNat_ofNat', UInt16.toNat_ofNat']
  omega

/-- Ids are distinct where no two numbers are a multiple of `65536` apart. -/
theorem nodup_ofInt_iff (l : List ℤ) :
    (l.map UInt16.ofInt).Nodup ↔ l.Pairwise fun x y => ¬ 65536 ∣ x - y := by
  rw [← nodup_emod_iff, List.Nodup, List.Nodup, List.pairwise_map, List.pairwise_map]
  exact List.Pairwise.iff fun x y => not_congr uint16_ofInt_eq_iff

namespace AsyncSystem

variable {params : MqttConnectParams} {s t : AsyncSystem γ κ} {a : AsyncAction γ κ}

/-- The numbers of the adds grow, and their ids are what is left of them. -/
structure Numbered (s : AsyncSystem γ κ) : Prop where
  below : ∀ e ∈ s.history.added, e.1 < s.client.msgIdSeq ∧ e.2.msgId = UInt16.ofInt e.1
  decreasing : s.history.added.Pairwise fun e e' => e'.1 < e.1

theorem numbered_init : Numbered (init : AsyncSystem γ κ) :=
  ⟨fun e he => (by cases he), List.Pairwise.nil⟩

theorem Numbered.next (hs : Numbered s) (hadded : t.history.added = s.history.added)
    (hseq : s.client.msgIdSeq ≤ t.client.msgIdSeq) : Numbered t := by
  refine ⟨?_, by rw [hadded]; exact hs.decreasing⟩
  rw [hadded]
  exact fun e he => ⟨(hs.below e he).1.trans_le hseq, (hs.below e he).2⟩

theorem Numbered.step (hs : Numbered s) (h : Effect params s a t) : Numbered t := by
  cases h with
  | full call hcall => exact hs.next rfl (by simp)
  | counted call call' hcall => exact hs.next rfl (by simp)
  | added call call' hcall now record qos hqos h =>
    refine ⟨List.forall_mem_cons.mpr ⟨⟨by simp [recordKey], rfl⟩, fun e he => ?_⟩,
      List.pairwise_cons.mpr ⟨fun e he => (hs.below e he).1, hs.decreasing⟩⟩
    exact ⟨(hs.below e he).1.trans (by simp), (hs.below e he).2⟩
  | requested call hcall mqtt mqtt' hmqtt hsock ret links h =>
    refine hs.next rfl (le_of_eq ?_)
    change s.client.msgIdSeq = (mqttAsyncSent s.client ret mqtt').msgIdSeq
    unfold mqttAsyncSent
    split_ifs <;> rfl
  | received mqtt hmqtt answer hpc => cases answer <;> exact hs.next rfl le_rfl
  | broke error why pc ping hfree hpc hpc' huse =>
    refine hs.next rfl (le_of_eq ?_)
    change s.client.msgIdSeq = (mqttAsyncBreak s.client error why).msgIdSeq
    unfold mqttAsyncBreak
    split_ifs <;> rfl
  | _ => exact hs.next rfl le_rfl

theorem numbered_reach (h : Reach (AsyncSystem.step params) (fun _ _ => True) init s) :
    Numbered s :=
  h.invariant numbered_init fun _ _ _ hs _ hstep => hs.step (step_effect hstep)

/-- **The records in use, by their numbers**: distinct ones, with the ids that are left of them. -/
theorem exists_numbers (hledger : Ledger s) (hs : Numbered s) :
    ∃ live, live <+~ s.history.added ∧ live.map (·.2) = s.client.qos.keys
      ∧ (live.map (·.1)).Nodup
      ∧ s.client.qos.used.map (·.msgId) = (live.map (·.1)).map UInt16.ofInt := by
  obtain ⟨gone, live, hperm, -, hlive⟩ := exists_perm_append_of_map hledger.released
  have hsub : live <+~ s.history.added :=
    (List.sublist_append_right gone live).subperm.trans hperm.symm.subperm
  refine ⟨live, hsub, hlive, ?_, ?_⟩
  · have hadded : (s.history.added.map (·.1)).Nodup :=
      List.pairwise_map.mpr (hs.decreasing.imp fun h => (ne_of_lt h).symm)
    exact ((hperm.map _).nodup_iff.mp hadded).sublist
      ((List.sublist_append_right gone live).map _)
  · calc s.client.qos.used.map (·.msgId)
      _ = s.client.qos.keys.map (·.msgId) := by rw [MqttQos.keys, List.map_map]; rfl
      _ = live.map (·.2.msgId) := by rw [← hlive, List.map_map]; rfl
      _ = live.map (UInt16.ofInt ·.1) :=
        List.map_congr_left fun e he => (hs.below e (hsub.subset he)).2
      _ = (live.map (·.1)).map UInt16.ofInt := by rw [List.map_map]; rfl

/-- **Two ids in use are the same exactly where they were taken a multiple of `65536` apart**; so
they are distinct where each was taken among the last `65536`.  And where they are, an
acknowledgement completes the request with its id. -/
theorem msgIds_nodup (h : Reach (AsyncSystem.step params) (fun _ _ => True) init s) :
    (∃ live, live <+~ s.history.added ∧ live.map (·.2) = s.client.qos.keys
      ∧ (live.map (·.1)).Nodup
      ∧ (∀ e ∈ live, ∀ e' ∈ live, e.2.msgId = e'.2.msgId ↔ 65536 ∣ e.1 - e'.1)
      ∧ ((s.client.qos.used.map (·.msgId)).Nodup ↔
        (live.map (·.1)).Pairwise fun n n' => ¬ 65536 ∣ n - n')
      ∧ ((∀ e ∈ live, s.client.msgIdSeq ≤ e.1 + 65536) →
        (s.client.qos.used.map (·.msgId)).Nodup))
    ∧ ((s.client.qos.used.map (·.msgId)).Nodup → ∀ r ∈ s.client.qos.used,
      (mqttQosSignal s.client.qos r.msgId).2.2 = some r) := by
  have hs := numbered_reach h
  have hledger := ledger_reach h
  refine ⟨?_, fun hnodup r hr => mqttQosSignal_of_nodup hledger.counted hnodup hr⟩
  obtain ⟨live, hsub, hkeys, hlive, hids⟩ := exists_numbers hledger hs
  have hiff : (s.client.qos.used.map (·.msgId)).Nodup ↔
      (live.map (·.1)).Pairwise fun n n' => ¬ 65536 ∣ n - n' := by
    rw [hids, nodup_ofInt_iff]
  refine ⟨live, hsub, hkeys, hlive, fun e he e' he' => ?_, hiff, fun hrecent => hiff.mpr ?_⟩
  · rw [(hs.below e (hsub.subset he)).2, (hs.below e' (hsub.subset he')).2, uint16_ofInt_eq_iff]
    omega
  refine pairwise_of_window (s.client.msgIdSeq - 65536) (fun n hn => ?_) hlive
  obtain ⟨e, he, rfl⟩ := List.mem_map.mp hn
  have hlow := hrecent e he
  have hhigh := (hs.below e (hsub.subset he)).1
  omega

/-- A session with two publishes that have not been acknowledged yet. -/
def twice : List (AsyncAction Unit Unit) :=
  session.take 7
    ++ [.request ⟨⟨true, 0⟩, some 2, 0⟩ (.publishQos1 [97] [98] 0 (some ()) none), .call, .call]

theorem msgIds_nodup_session :
    ∃ s, twice.foldlM (AsyncSystem.step .anonymous) init = some s
      ∧ s.client.qos.used.map (·.msgId) = [0, 1]
      ∧ ∀ r ∈ s.client.qos.used, (mqttQosSignal s.client.qos r.msgId).2.2 = some r := by
  have heval : ((twice.foldlM (AsyncSystem.step .anonymous) init).map fun s =>
      s.client.qos.used.map (·.msgId)) = some [0, 1] := by decide +kernel
  obtain ⟨s, hs, hids⟩ := Option.map_eq_some_iff.mp heval
  exact ⟨s, hs, hids, (msgIds_nodup (Reach.of_foldlM _ (by simp) hs)).2 (by simp [hids])⟩

end AsyncSystem

/-! ## Round the counter -/

/-- What a request meets where nothing goes wrong. -/
def RequestEnv.plain : RequestEnv := ⟨⟨true, 0⟩, some 2, 0⟩

namespace AsyncSystem

variable {params : MqttConnectParams} {s t : AsyncSystem γ κ}

/-- A client that takes requests, with the next number and its table. -/
structure Ready (s : AsyncSystem γ κ) (seq : ℤ) (qos : MqttQos γ κ) : Prop where
  seq : s.client.msgIdSeq = seq
  qos : s.client.qos = qos
  state : s.client.state = .connected
  thread : s.client.checkThreadId = false
  mqtt : s.client.mqtt.isSome
  free : s.MuxFree
  noQos : s.handler.hasQos = false

/-- A request that is sent takes a number, and its record a slot. -/
theorem Ready.request {seq : ℤ} {qos qos' : MqttQos γ κ} (h : Ready s seq qos)
    (req : AsyncRequest γ κ)
    (hadd : mqttAsyncAddRecord s.client 0 req.record
      = (0, { s.client with msgIdSeq := s.client.msgIdSeq + 1, qos := qos' }))
    (hbuild : (req.request (UInt16.ofInt seq)).Builds ⟨true, 0⟩) :
    ∃ t, Reach (AsyncSystem.step params) (fun _ _ => True) s t ∧ Ready t (seq + 1) qos' := by
  obtain ⟨mqtt, hmqtt⟩ := Option.isSome_iff_exists.mp h.mqtt
  obtain ⟨packet, hpacket⟩ := hbuild
  obtain ⟨mqtt', hrun, -⟩ := mqttSendMsg_packet ⟨true, 0⟩ mqtt hpacket
  have hseq := h.seq
  subst hseq
  have hrequest : s.step params (.request .plain req)
      = some { s with call := some ⟨.plain, req, .add⟩ } := by
    change s.request .plain req = _
    rw [AsyncSystem.request, if_neg (by simp [mqttAsyncSameThread, h.thread]), if_pos h.free,
      if_neg (by simp [mqttAsyncConnection, h.state, hmqtt])]
  obtain ⟨mid, hcallAdd, hcall, hclient, hhandler⟩ : ∃ mid, AsyncSystem.step params
      { s with call := some ⟨.plain, req, .add⟩ } .call = some mid
      ∧ mid.call = some ⟨.plain, req, .send (UInt16.ofInt s.client.msgIdSeq)⟩
      ∧ mid.client = { s.client with msgIdSeq := s.client.msgIdSeq + 1, qos := qos' }
      ∧ mid.handler = s.handler := by
    have hadd' : mqttAsyncAddRecord s.client RequestEnv.plain.now req.record = _ := hadd
    refine ⟨{ s with
      client := { s.client with msgIdSeq := s.client.msgIdSeq + 1, qos := qos' }
      call := some ⟨.plain, req, .send (UInt16.ofInt s.client.msgIdSeq)⟩
      history.added := (req.record.toList.map s.recordKey) ++ s.history.added }, ?_, rfl, rfl, rfl⟩
    change AsyncSystem.callAdd { s with call := some ⟨.plain, req, .add⟩ } ⟨.plain, req, .add⟩ = _
    rw [callAdd, if_neg (by simp [h.noQos])]
    simp only [hadd', ne_eq, not_true_eq_false, if_false]
    rfl
  have hcallSend : mid.step params .call
      = some { mid.send mqtt mqtt' with
          client := mqttAsyncSent mid.client 0 mqtt', call := none } := by
    have hmid : mid.client.mqtt = some mqtt := by rw [hclient, hmqtt]
    have hrun' : (req.request (UInt16.ofInt s.client.msgIdSeq)).run RequestEnv.plain.toSendEnv mqtt
        = some (0, mqtt') := by
      rw [MqttRequest.run_eq]
      exact hrun
    change mid.call.bind mid.callStep = _
    rw [hcall]
    change mid.callSend _ _ = _
    simp only [callSend, hmid, hrun']
  refine ⟨_, ((Reach.refl.tail trivial hrequest).tail trivial hcallAdd).tail trivial hcallSend, ?_⟩
  obtain ⟨-, rfl, hstate, hthread, -, ⟨-, hmux⟩, hnoQos⟩ := h
  refine ⟨?_, ?_, ?_, ?_, rfl, ⟨rfl, ?_⟩, ?_⟩
  · exact congrArg (·.msgIdSeq) hclient
  · exact congrArg (·.qos) hclient
  · exact (congrArg (·.state) hclient).trans hstate
  · exact (congrArg (·.checkThreadId) hclient).trans hthread
  · exact (congrArg HandlerPc.hasMux hhandler).trans hmux
  · exact (congrArg HandlerPc.hasQos hhandler).trans hnoQos

/-- A publish of nothing has a packet, whatever its id. -/
theorem builds_publish (qos : ℤ) (msgId : UInt16) :
    (MqttRequest.publish qos 0 msgId [97] []).Builds ⟨true, 0⟩ := by
  have hbytes := mqttMsgBuildPublish_bytes true
    ⟨[97], if qos > 0 then some msgId else none, [], by decide⟩ 0 rfl (by simp)
    (by split_ifs <;> simp [PublishBody.length_bytes, PublishBody.idBytes])
  exact ⟨_, (congrArg packetOf hbytes).trans (packetOf_filled _)⟩

/-- **Any number of publishes can go by.** -/
theorem Ready.publishes {seq : ℤ} {qos : MqttQos γ κ} (h : Ready s seq qos) (n : ℕ) :
    ∃ t, Reach (AsyncSystem.step params) (fun _ _ => True) s t ∧ Ready t (seq + n) qos := by
  induction n with
  | zero => exact ⟨s, Reach.refl, by simpa using h⟩
  | succ n ih =>
    obtain ⟨mid, hmid, hready⟩ := ih
    have hadd : mqttAsyncAddRecord mid.client 0 (.publish [97] [] 0 : AsyncRequest γ κ).record
        = (0, { mid.client with msgIdSeq := mid.client.msgIdSeq + 1, qos := qos }) := by
      obtain rfl := hready.qos
      rfl
    obtain ⟨t, ht, hnext⟩ := hready.request _ hadd (builds_publish 0 _)
    refine ⟨t, hmid.trans ht, ?_⟩
    rwa [add_assoc] at hnext

/-- A publish with QoS `1` takes a slot. -/
theorem Ready.publishQos1 {seq : ℤ} {qos qos' : MqttQos γ κ} (h : Ready s seq qos)
    (hadd : mqttQosAdd qos 0 (UInt16.ofInt seq) none none = (0, qos')) :
    ∃ t, Reach (AsyncSystem.step params) (fun _ _ => True) s t ∧ Ready t (seq + 1) qos' := by
  refine h.request (.publishQos1 [97] [] 0 none none) ?_ (builds_publish 1 _)
  obtain rfl := h.seq
  obtain rfl := h.qos
  have htake : mqttAsyncAddRecord s.client 0 (some (none, none))
      = ((mqttQosAdd s.client.qos 0 (UInt16.ofInt s.client.msgIdSeq) none none).1,
        { s.client with
          msgIdSeq := s.client.msgIdSeq + 1
          qos := (mqttQosAdd s.client.qos 0 (UInt16.ofInt s.client.msgIdSeq) none none).2 }) := rfl
  rw [hadd] at htake
  exact htake

/-- **A record that stays in use while the counter goes round meets its own id.** -/
theorem not_msgIds_nodup_wrap :
    ¬ ∀ s : AsyncSystem Unit Unit, Reach (AsyncSystem.step .anonymous) (fun _ _ => True) init s →
      (s.client.qos.used.map (·.msgId)).Nodup := by
  intro h
  have heval : ((session.take 3).foldlM (AsyncSystem.step .anonymous) init).map (fun s =>
      (s.client.msgIdSeq, s.client.qos, s.client.state, [s.client.checkThreadId,
        s.client.mqtt.isSome, s.call.isNone, s.handler.hasMux, s.handler.hasQos]))
      = some (0, mqttQosCreate mqttQosDefaultSize mqttQosDefaultTimeout, .connected, [false, true,
        true, false, false]) := by decide +kernel
  obtain ⟨s₀, hs₀, hview⟩ := Option.map_eq_some_iff.mp heval
  obtain ⟨hseq, hqos, hstate, hthread, hmqtt, hcall, hmux, hnoQos, -⟩ :=
    by simpa only [Prod.mk.injEq, List.cons.injEq] using hview
  have hready : Ready s₀ 0 (mqttQosCreate mqttQosDefaultSize mqttQosDefaultTimeout) :=
    ⟨hseq, hqos, hstate, hthread, hmqtt, ⟨hcall, hmux⟩, hnoQos⟩
  obtain ⟨s₁, hs₁, hready₁⟩ := hready.publishQos1 rfl
  obtain ⟨s₂, hs₂, hready₂⟩ := hready₁.publishes 65535
  obtain ⟨s₃, hs₃, hready₃⟩ := hready₂.publishQos1 rfl
  have hnodup := h s₃ ((((Reach.of_foldlM _ (by simp) hs₀).trans hs₁).trans hs₂).trans hs₃)
  rw [hready₃.qos] at hnodup
  exact absurd hnodup (by decide +kernel)

end AsyncSystem

end Tr50
