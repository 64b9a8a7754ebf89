import Tr50.Mqtt.States

/-!
# Mqtt/Turns — where the receive thread finds a connection gone

Four places of the receive thread take a client from CONNECTED to BROKEN, each with its own reason
(`HandlerPc.why`).  `handler_turn` is the inversion of a step of the receive thread that tells these
places, and those in front of them, apart; the rest is `Turn.other`, which neither breaks a
connection, nor counts pings, nor gets to one of these places (`Other`).
-/

namespace Tr50

open Machinery

variable {γ κ : Type}

/-! ## Pings -/

/-- The packet of `mqtt_ping`. -/
def pingreq : List UInt8 := [mqttMsgTypePingreq, 0]

theorem mqttPing_granted {env : SendEnv} (h : env.malloc) (client : MqttClient) :
    ∃ client', mqttPing env client = some (0, client') ∧ client'.sock = client.sock
      ∧ client'.sent = client.sent ++ [pingreq] := by
  have hping : mqttPing env client = some (mqttSend env client pingreq) := by
    rw [mqttPing, h]
    rfl
  refine ⟨(mqttSend env client pingreq).2, hping, mqttSend_sock _ _ _, ?_⟩
  unfold mqttSend
  split_ifs <;> rfl

theorem mqttPing_refused {env : SendEnv} (h : ¬ env.malloc) (client : MqttClient) :
    mqttPing env client = some (errTr50Malloc, client) := by
  rw [mqttPing, Bool.eq_false_iff.mpr h]
  rfl

/-! ## Places -/

namespace HandlerPc

/-- Why the connection is given up there. -/
def why : HandlerPc γ κ → Option String
  | recvFailed => some "MQTT Receive failed."
  | ackLost => some "MQTT Ack not recevied."
  | heartbeatLost => some "MQTT Heartbeat no response."
  | pingFailed => some "MQTT Heartbeat failed."
  | _ => none

/-- Inside `_mqtt_async_handler_keepalive`, behind its first tests. -/
def beating : HandlerPc γ κ → Bool
  | heartbeatLost | ping | pingFailed => true
  | _ => false

end HandlerPc

namespace AsyncSystem

variable {params : MqttConnectParams} {s t : AsyncSystem γ κ} {input : HandlerInput}

/-- The client goes from CONNECTED to BROKEN, and says why. -/
def Breaks (s t : AsyncSystem γ κ) (why : String) : Prop :=
  ∃ error, t.client.reports = s.client.reports ++ [⟨.connected, .broken, error, why⟩]

/-- No connection is given up. -/
def Keeps (s t : AsyncSystem γ κ) : Prop :=
  ∃ reports, t.client.reports = s.client.reports ++ reports
    ∧ ∀ r ∈ reports, r.oldState = .connected → r.newState ≠ .broken

theorem Keeps.same (h : t.client.reports = s.client.reports) : Keeps s t :=
  ⟨[], by simp [h], by simp⟩

theorem Keeps.not_breaks (h : Keeps s t) (why : String) : ¬ Breaks s t why := by
  rintro ⟨error, hreports⟩
  obtain ⟨reports, heq, hold⟩ := h
  obtain rfl := List.append_cancel_left (heq.symm.trans hreports)
  exact hold _ (List.mem_singleton_self _) rfl rfl

/-! ## Turns -/

/-- What a step does with the records in use. -/
inductive Frees (s t : AsyncSystem γ κ) : Prop
  | none (hqos : t.client.qos = s.client.qos)
      (hreleased : t.history.released = s.history.released)
  | one (r : MqttQosRecord γ κ) (hused : s.client.qos.used.Perm (r :: t.client.qos.used))
      (htimeout : t.client.qos.timeoutInSec = s.client.qos.timeoutInSec)
      (hreleased : t.history.released = r.key :: s.history.released)

/-- Where a step leaves a client that is CONNECTED: it was, on the same connection, or has
reconnected. -/
inductive Stays (params : MqttConnectParams) (s : AsyncSystem γ κ) (input : HandlerInput)
    (t : AsyncSystem γ κ) : Prop
  | same (hstate : t.client.state = s.client.state)
      (hmqtt : t.client.mqtt.isSome = s.client.mqtt.isSome)
  | gone (hstate : t.client.state ≠ .connected)
      (hmqtt : t.client.mqtt.isSome → s.client.mqtt.isSome)
  | made (total : ℤ) (hpc : s.handler = .connecting total) (mqtt : MqttClient)
      (links : List LinkEvent)
      (hconnect : mqttConnect input.connect params s.nextSock s.history.links
        = some (.ok mqtt, links))
      (hmqtt : t.client.mqtt = some mqtt) (hqos : t.client.qos = s.client.qos)

/-- A step of the receive thread that gives up no connection and counts no pings. -/
structure Other (params : MqttConnectParams) (s : AsyncSystem γ κ) (input : HandlerInput)
    (t : AsyncSystem γ κ) : Prop where
  keeps : Keeps s t
  pings : t.client.outstandingPing = s.client.outstandingPing
  call : t.call = s.call
  main : t.main = s.main
  frees : Frees s t
  stays : Stays params s input t
  lead : t.handler.beating = false ∧ t.handler ≠ .ackLost

/-- A step of the receive thread. -/
inductive Turn (params : MqttConnectParams) (s : AsyncSystem γ κ) (input : HandlerInput) :
    AsyncSystem γ κ → Prop
  | recvFailed (hpc : s.handler = .recvFailed) (hfree : s.MuxFree) :
      Turn params s input ((s.broken s.ret "MQTT Receive failed.").goto .expired)
  | answered (data : List UInt8) (hpc : s.handler = .process data)
      (hcmd : mqttMsgCmdGet data = some mqttMsgTypePingresp) :
      Turn params s input { s.goto .expired with client.outstandingPing := 0 }
  | scanned (hpc : s.handler = .expired) (found : Bool) (qos : MqttQos γ κ)
      (h : mqttQosAnyExpired s.client.qos input.now = (found, qos)) :
      Turn params s input
        ({ s with client.qos := qos }.goto (if found then .ackLost else .keepalive))
  | ackLost (hpc : s.handler = .ackLost) (hfree : s.MuxFree) :
      Turn params s input ((s.broken s.ret "MQTT Ack not recevied.").goto (.clearEntry false))
  | unneeded (hpc : s.handler = .keepalive)
      (h : s.client.state ≠ .connected ∨ params.keepaliveInMs ≤ 0) :
      Turn params s input (s.goto (.reconnect 0))
  | silent (hpc : s.handler = .keepalive) (hstate : s.client.state = .connected)
      (hkeepalive : 0 < params.keepaliveInMs) (hping : 1 < s.client.outstandingPing) :
      Turn params s input (s.goto .heartbeatLost)
  | checked (hpc : s.handler = .keepalive) (hstate : s.client.state = .connected)
      (hkeepalive : 0 < params.keepaliveInMs) (hping : s.client.outstandingPing ≤ 1) :
      Turn params s input (s.goto .ping)
  | heartbeatLost (hpc : s.handler = .heartbeatLost) (hfree : s.MuxFree) :
      Turn params s input { (s.broken 0 "MQTT Heartbeat no response.").goto (.reconnect 0) with
        client.outstandingPing := 0 }
  | recent (hpc : s.handler = .ping) (mqtt : MqttClient) (hmqtt : s.client.mqtt = some mqtt)
      (h : input.now + s.client.timeoutInMs ≤ mqtt.lastRecv + params.keepaliveInMs) :
      Turn params s input (s.goto (.reconnect 0))
  | pinged (hpc : s.handler = .ping) (mqtt mqtt' : MqttClient) (hmqtt : s.client.mqtt = some mqtt)
      (h : mqtt.lastRecv + params.keepaliveInMs < input.now + s.client.timeoutInMs)
      (hsock : mqtt'.sock = mqtt.sock) :
      Turn params s input { s.goto (.reconnect 0) with
        client.mqtt := some mqtt'
        client.outstandingPing := s.client.outstandingPing + 1
        history.links := .sent mqtt.sock pingreq :: s.history.links }
  | unpinged (hpc : s.handler = .ping) :
      Turn params s input (s.goto .pingFailed)
  | pingFailed (hpc : s.handler = .pingFailed) (hfree : s.MuxFree) :
      Turn params s input ((s.broken 0 "MQTT Heartbeat failed.").goto (.reconnect 0))
  | other {t : AsyncSystem γ κ} (hother : Other params s input t)
      (hpc : s.handler.beating = false ∧ s.handler ≠ .ackLost ∧ s.handler ≠ .keepalive
        ∧ s.handler ≠ .expired)
      (hdata : ∀ data, s.handler = .process data → mqttMsgCmdGet data ≠ some mqttMsgTypePingresp) :
      Turn params s input t

/-- A step that only goes somewhere else. -/
theorem Other.goto {pc : HandlerPc γ κ}
    (hpc : (s.goto pc).handler.beating = false ∧ (s.goto pc).handler ≠ .ackLost) :
    Other params s input (s.goto pc) :=
  ⟨.same rfl, rfl, rfl, rfl, .none rfl rfl, .same rfl rfl, hpc⟩

/-- The other places. -/
theorem Turn.of_place {pc : HandlerPc γ κ} (hother : Other params s input t)
    (hpc : s.handler = pc)
    (hplain : pc.beating = false ∧ pc ≠ .ackLost ∧ pc ≠ .keepalive ∧ pc ≠ .expired)
    (hdata : ∀ data, pc = .process data → mqttMsgCmdGet data ≠ some mqttMsgTypePingresp) :
    Turn params s input t :=
  .other hother (hpc ▸ hplain) (hpc ▸ hdata)

/-- An acknowledgement takes a record out of the table at most. -/
theorem mqttAsyncHandlerAck_client {client : MqttAsyncClient γ κ} {read : Option (Except ℤ UInt16)}
    {done : Processed γ κ} (h : mqttAsyncHandlerAck client read = some done) :
    (done.released = none ∧ done.client = client)
    ∨ ∃ r qos, done.released = some r ∧ done.client = { client with qos := qos }
      ∧ client.qos.used.Perm (r :: qos.used) ∧ qos.timeoutInSec = client.qos.timeoutInSec := by
  unfold mqttAsyncHandlerAck at h
  split at h
  · cases h
  · obtain rfl := Option.some.inj h
    exact Or.inl ⟨rfl, rfl⟩
  · rename_i msgId
    obtain ⟨⟨ret, qos, released⟩, hsignal⟩ :
      ∃ res, mqttQosSignal client.qos msgId = res := ⟨_, rfl⟩
    have htimeout : qos.timeoutInSec = client.qos.timeoutInSec := by
      rw [← mqttQosSignal_timeout client.qos msgId, hsignal]
    rw [hsignal] at h
    obtain rfl := Option.some.inj h
    rcases mqttQosSignal_cases hsignal with ⟨r, rfl, -, -, hperm, -⟩ | ⟨rfl, -, rfl⟩
    · exact Or.inr ⟨r, qos, rfl, rfl, hperm, htimeout⟩
    · exact Or.inl ⟨rfl, rfl⟩

/-- A packet that is no PUBLISH and no PINGRESP does so, too. -/
theorem mqttAsyncHandlerProcess_client {env : ProcessEnv} {client : MqttAsyncClient γ κ}
    {data : List UInt8} {cmd : UInt8} {done : Processed γ κ} (hcmd : mqttMsgCmdGet data = some cmd)
    (hpublish : cmd ≠ mqttMsgTypePublish) (hping : cmd ≠ mqttMsgTypePingresp)
    (h : mqttAsyncHandlerProcess env client data = some done) :
    (done.released = none ∧ done.client = client)
    ∨ ∃ r qos, done.released = some r ∧ done.client = { client with qos := qos }
      ∧ client.qos.used.Perm (r :: qos.used) ∧ qos.timeoutInSec = client.qos.timeoutInSec := by
  unfold mqttAsyncHandlerProcess at h
  simp only [hcmd, if_neg hpublish, if_neg hping] at h
  split_ifs at h
  · exact mqttAsyncHandlerAck_client h
  · exact mqttAsyncHandlerAck_client h
  · exact mqttAsyncHandlerAck_client h
  · obtain rfl := Option.some.inj h
    exact Or.inl ⟨rfl, rfl⟩

theorem process_turn {data : List UInt8} (hpc : s.handler = .process data)
    (h : s.process input.env data = some t) : Turn params s input t := by
  unfold process at h
  split at h
  · cases h
  rename_i cmd hcmd
  by_cases hping : cmd = mqttMsgTypePingresp
  · subst hping
    have hdone : mqttAsyncHandlerProcess input.env s.client data
        = some ⟨0, { s.client with outstandingPing := 0 }, none, none⟩ := by
      simp only [mqttAsyncHandlerProcess, hcmd]
      rfl
    rw [if_neg (by decide), hdone] at h
    obtain rfl := Option.some.inj h
    exact .answered data hpc hcmd
  have hdata : ∀ data', HandlerPc.process data = (.process data' : HandlerPc γ κ) →
      mqttMsgCmdGet data' ≠ some mqttMsgTypePingresp := by
    intro data' heq hcmd'
    obtain rfl := HandlerPc.process.inj heq
    exact hping (Option.some.inj (hcmd.symm.trans hcmd'))
  have hplain : (HandlerPc.process data : HandlerPc γ κ).beating = false
      ∧ HandlerPc.process data ≠ (.ackLost : HandlerPc γ κ)
      ∧ HandlerPc.process data ≠ (.keepalive : HandlerPc γ κ)
      ∧ HandlerPc.process data ≠ (.expired : HandlerPc γ κ) := by simp [HandlerPc.beating]
  refine .of_place ?_ hpc hplain hdata
  split_ifs at h with hpublish
  · split at h
    · cases h
    · obtain rfl := Option.some.inj h
      exact .goto ⟨rfl, by simp [goto]⟩
    · obtain rfl := Option.some.inj h
      refine .goto ?_
      simp only [goto]
      split_ifs <;> exact ⟨rfl, by simp⟩
  · split at h
    · cases h
    rename_i done hdone
    rcases mqttAsyncHandlerProcess_client hcmd hpublish hping hdone with
      ⟨hreleased, hclient⟩ | ⟨r, qos, hreleased, hclient, hused, htimeout⟩
    · simp only [hreleased, hclient] at h
      obtain rfl := Option.some.inj h
      exact .goto ⟨rfl, by simp [goto]⟩
    · simp only [hreleased, hclient] at h
      obtain rfl := Option.some.inj h
      exact ⟨.same rfl, rfl, rfl, rfl, .one r hused htimeout rfl, .same rfl rfl,
        ⟨rfl, by simp [goto]⟩⟩

theorem ping_turn (hpc : s.handler = .ping)
    (h : s.ping params input.env.toSendEnv input.now = some t) : Turn params s input t := by
  unfold ping at h
  split at h
  · cases h
  rename_i mqtt hmqtt
  split_ifs at h with hdue
  · by_cases hmalloc : input.env.malloc
    · obtain ⟨mqtt', hping, hsock, hsent⟩ := mqttPing_granted hmalloc mqtt
      rw [hping] at h
      obtain rfl := Option.some.inj h
      have hturn : Turn params s input _ := .pinged hpc mqtt mqtt' hmqtt hdue hsock
      simpa [send, goto, hsent] using hturn
    · rw [mqttPing_refused hmalloc] at h
      obtain rfl := Option.some.inj h
      have hturn : Turn params s input (s.goto .pingFailed) := .unpinged hpc
      simpa [send, goto, ← hmqtt] using hturn
  · obtain rfl := Option.some.inj h
    exact .recent hpc mqtt hmqtt (not_lt.mp hdue)

/-- `mqtt_recv` returns. -/
theorem recv_other {mqtt : MqttClient} (hmqtt : s.client.mqtt = some mqtt) (answer : RecvAnswer) :
    Other params s input (s.recv mqtt answer) := by
  cases answer with
  | failed ret hret taken =>
    refine ⟨.same rfl, rfl, rfl, rfl, .none rfl rfl, .same rfl (by simp [recv, hmqtt]), ?_⟩
    simp only [recv, goto]
    split_ifs <;> exact ⟨rfl, by simp⟩
  | packet data hdata now =>
    exact ⟨.same rfl, rfl, rfl, rfl, .none rfl rfl, .same rfl (by simp [recv, hmqtt]),
      ⟨rfl, by simp [recv, goto]⟩⟩

theorem puback_other {env : SendEnv} {msg : PublishMsg} (h : s.puback env msg = some t) :
    Other params s input t := by
  unfold puback at h
  split at h
  · cases h
  rename_i mqtt hmqtt
  split at h
  · cases h
  obtain rfl := Option.some.inj h
  exact ⟨.same rfl, rfl, rfl, rfl, .none rfl rfl, .same rfl (by simp [send, goto, hmqtt]),
    ⟨rfl, by simp [goto]⟩⟩

theorem clearSlot_other (last : Bool) (i : ℕ) : Other params s input (s.clearSlot last i) := by
  unfold clearSlot
  split_ifs
  · split
    · exact .goto ⟨rfl, by simp [AsyncSystem.goto]⟩
    · rename_i qos r hclear
      have htimeout : qos.timeoutInSec = s.client.qos.timeoutInSec := by
        rw [← mqttQosClearStep_timeout s.client.qos i, hclear]
      rcases mqttQosClearStep_cases hclear with ⟨r', hr, hused, -, -⟩ | ⟨hr, -⟩
      · obtain rfl := Option.some.inj hr
        exact ⟨.same rfl, rfl, rfl, rfl, .one r hused htimeout rfl, .same rfl rfl,
          ⟨rfl, by simp [AsyncSystem.goto]⟩⟩
      · cases hr
  · refine .goto ?_
    cases last <;> exact ⟨rfl, by simp [AsyncSystem.goto, HandlerPc.afterClear]⟩

theorem reopen_other {env : SendEnv} {total : ℤ} (h : s.reopen env total = some t) :
    Other params s input t := by
  unfold reopen at h
  split at h
  · obtain rfl := Option.some.inj h
    exact ⟨⟨_, rfl, by simp⟩, rfl, rfl, rfl, .none rfl rfl,
      .gone (by simp [AsyncSystem.goto, report, mqttAsyncStateChange]) id,
      ⟨rfl, by simp [AsyncSystem.goto]⟩⟩
  · split at h
    · cases h
    obtain rfl := Option.some.inj h
    exact ⟨⟨_, rfl, by simp⟩, rfl, rfl, rfl, .none rfl rfl,
      .gone (by simp [AsyncSystem.goto, report, mqttAsyncStateChange]) (fun h => by cases h),
      ⟨rfl, by simp [AsyncSystem.goto]⟩⟩

theorem reconnect_other {total : ℤ} (hpc : s.handler = .connecting total)
    (h : s.reconnect params input.connect total = some t) : Other params s input t := by
  unfold reconnect at h
  split at h
  · cases h
  · rename_i mqtt links hconnect
    obtain rfl := Option.some.inj h
    exact ⟨⟨_, rfl, by simp⟩, rfl, rfl, rfl, .none rfl rfl,
      .made total hpc mqtt links hconnect rfl rfl, ⟨rfl, by simp [AsyncSystem.goto]⟩⟩
  · obtain rfl := Option.some.inj h
    exact ⟨⟨_, rfl, by simp⟩, rfl, rfl, rfl, .none rfl rfl,
      .gone (by simp [AsyncSystem.goto, report, mqttAsyncStateChange]) id,
      ⟨rfl, by simp [AsyncSystem.goto]⟩⟩

/-- **A step of the receive thread is one of the turns.** -/
theorem handler_turn (h : s.handlerStep params input s.handler = some t) :
    Turn params s input t := by
  generalize hpc : s.handler = pc at h
  cases pc with
  | absent => simp [handlerStep] at h
  | ended => simp [handlerStep] at h
  | recvFailed =>
    simp only [handlerStep] at h
    split_ifs at h with hfree
    obtain rfl := Option.some.inj h
    exact .recvFailed hpc hfree
  | process data =>
    exact process_turn hpc h
  | expired =>
    obtain rfl := Option.some.inj h
    exact .scanned hpc _ _ rfl
  | ackLost =>
    simp only [handlerStep] at h
    split_ifs at h with hfree
    obtain rfl := Option.some.inj h
    exact .ackLost hpc hfree
  | keepalive =>
    obtain rfl := Option.some.inj h
    split_ifs with hstate hping
    · exact .unneeded hpc hstate
    · exact .silent hpc (by tauto) (by omega) hping
    · exact .checked hpc (by tauto) (by omega) (by omega)
  | heartbeatLost =>
    simp only [handlerStep] at h
    split_ifs at h with hfree
    obtain rfl := Option.some.inj h
    exact .heartbeatLost hpc hfree
  | ping =>
    exact ping_turn hpc h
  | pingFailed =>
    simp only [handlerStep] at h
    split_ifs at h with hfree
    obtain rfl := Option.some.inj h
    exact .pingFailed hpc hfree
  | recv =>
    obtain ⟨mqtt, hmqtt, rfl⟩ := Option.map_eq_some_iff.mp h
    exact .of_place (recv_other hmqtt input.answer) hpc ⟨rfl, by simp⟩ (by simp)
  | puback msg =>
    simp only [handlerStep] at h
    split_ifs at h with hfree
    exact .of_place (puback_other h) hpc ⟨rfl, by simp⟩ (by simp)
  | clear last i =>
    obtain rfl := Option.some.inj h
    exact .of_place (clearSlot_other last i) hpc ⟨rfl, by simp⟩ (by simp)
  | reconnectLock total =>
    simp only [handlerStep] at h
    refine .of_place ?_ hpc ⟨rfl, by simp⟩ (by simp)
    split_ifs at h with hfree hstate
    · obtain rfl := Option.some.inj h
      exact .goto ⟨rfl, by simp [AsyncSystem.goto]⟩
    · exact reopen_other h
  | connecting total =>
    exact .of_place (reconnect_other hpc h) hpc ⟨rfl, by simp⟩ (by simp)
  | starting | signalCallback | clearCallback =>
    obtain rfl := Option.some.inj h
    refine .of_place ?_ hpc ⟨rfl, by simp⟩ (by simp)
    exact ⟨.same rfl, rfl, rfl, rfl, .none rfl rfl, .same rfl rfl,
      ⟨rfl, by simp [AsyncSystem.goto]⟩⟩
  | publishCallback =>
    obtain rfl := Option.some.inj h
    exact .of_place (.goto ⟨rfl, by simp [AsyncSystem.goto]⟩) hpc ⟨rfl, by simp⟩ (by simp)
  | loop | test | reconnect | waiting =>
    obtain rfl := Option.some.inj h
    refine .of_place (.goto ?_) hpc ⟨rfl, by simp⟩ (by simp)
    simp only [AsyncSystem.goto]
    split_ifs <;> exact ⟨rfl, by simp⟩
  | clearEntry last =>
    obtain rfl := Option.some.inj h
    refine .of_place (.goto ?_) hpc ⟨rfl, by simp⟩ (by simp)
    simp only [AsyncSystem.goto]
    split_ifs
    · cases last <;> exact ⟨rfl, by simp [HandlerPc.afterClear]⟩
    · exact ⟨rfl, by simp⟩

/-! ## Who breaks a connection -/

/-- What `mqttAsyncBreak` reports. -/
theorem breaks_broken {error : ℤ} {why why' : String}
    (hreports : t.client.reports = (mqttAsyncBreak s.client error why').reports)
    (h : Breaks s t why) : why' = why ∧ s.client.state = .connected := by
  obtain ⟨error', h⟩ := h
  rw [hreports] at h
  unfold mqttAsyncBreak at h
  split_ifs at h with hstate
  · have heq := List.append_cancel_left h
    simp only [List.cons.injEq, StateReport.mk.injEq, true_and, and_true] at heq
    exact ⟨heq.2, hstate⟩
  · simp at h

theorem Turn.breaks {why : String} (h : Turn params s input t) (hbreaks : Breaks s t why) :
    s.handler.why = some why ∧ s.client.state = .connected ∧ s.MuxFree := by
  cases h with
  | recvFailed hpc hfree | ackLost hpc hfree | heartbeatLost hpc hfree | pingFailed hpc hfree =>
    obtain ⟨rfl, hstate⟩ := breaks_broken rfl hbreaks
    exact ⟨by rw [hpc]; rfl, hstate, hfree⟩
  | other hother => exact absurd hbreaks (hother.keeps.not_breaks why)
  | _ => exact absurd hbreaks (Keeps.same rfl |>.not_breaks why)

/-- The application gives up no connection as if it were gone, and counts no pings. -/
theorem main_turn {input : MainInput} (h : s.mainStep params input s.main = some t) :
    Keeps s t ∧ t.client.outstandingPing = s.client.outstandingPing
      ∧ (t.handler = s.handler ∨ s.main = .starting ∧ t.handler = .starting) := by
  unfold mainStep at h
  split at h
  · obtain rfl := Option.some.inj h
    exact ⟨⟨_, rfl, by simp⟩, rfl, Or.inl rfl⟩
  · unfold connect at h
    split at h
    · cases h
    · obtain rfl := Option.some.inj h
      exact ⟨⟨_, rfl, by simp⟩, rfl, Or.inl rfl⟩
    · obtain rfl := Option.some.inj h
      exact ⟨⟨_, rfl, by simp⟩, rfl, Or.inl rfl⟩
  · rename_i hmain
    split_ifs at h <;> obtain rfl := Option.some.inj h
    · exact ⟨.same rfl, rfl, Or.inl rfl⟩
    · exact ⟨.same rfl, rfl, Or.inr ⟨hmain, rfl⟩⟩
  · obtain rfl := Option.some.inj h
    exact ⟨.same rfl, rfl, Or.inl rfl⟩
  · split_ifs at h
    obtain rfl := Option.some.inj h
    exact ⟨⟨_, rfl, by simp⟩, rfl, Or.inl rfl⟩
  · split_ifs at h
    obtain rfl := Option.some.inj h
    exact ⟨.same rfl, rfl, Or.inl rfl⟩
  · unfold close at h
    split at h
    · obtain rfl := Option.some.inj h
      exact ⟨.same rfl, rfl, Or.inl rfl⟩
    · split at h
      · cases h
      · obtain rfl := Option.some.inj h
        exact ⟨.same rfl, rfl, Or.inl rfl⟩
  · obtain rfl := Option.some.inj h
    exact ⟨⟨_, rfl, by simp⟩, rfl, Or.inl rfl⟩
  · cases h

/-- A request is turned away, or gets the lock. -/
theorem request_cases {env : RequestEnv} {req : AsyncRequest γ κ}
    (h : s.request env req = some t) : t = s ∨ t = { s with call := some ⟨env, req, .add⟩ } := by
  unfold request at h
  split_ifs at h <;> obtain rfl := Option.some.inj h
  · exact Or.inl rfl
  · exact Or.inl rfl
  · exact Or.inr rfl

/-- …at its id and its record… -/
theorem callAdd_turn {call : AsyncCall γ κ} (h : s.callAdd call = some t) :
    t.client.reports = s.client.reports ∧ t.client.outstandingPing = s.client.outstandingPing
      ∧ t.handler = s.handler := by
  unfold callAdd at h
  split_ifs at h
  split at h
  rename_i ret client hadd
  have hclient : client.reports = s.client.reports
      ∧ client.outstandingPing = s.client.outstandingPing := by
    obtain rfl : (mqttAsyncAddRecord s.client call.env.now call.request.record).2 = client :=
      congrArg Prod.snd hadd
    unfold mqttAsyncAddRecord
    split <;> exact ⟨rfl, rfl⟩
  split_ifs at h <;> obtain rfl := Option.some.inj h <;> exact ⟨hclient.1, hclient.2, rfl⟩

/-- …and at its send. -/
theorem callSend_turn {call : AsyncCall γ κ} {msgId : UInt16}
    (h : s.callSend call msgId = some t) :
    (∀ why, Breaks s t why → why = "MQTT Publish failed.")
      ∧ t.client.outstandingPing = s.client.outstandingPing ∧ t.handler = s.handler := by
  unfold callSend at h
  split at h
  · cases h
  split at h
  · cases h
  rename_i ret mqtt' hrun
  obtain rfl := Option.some.inj h
  unfold mqttAsyncSent
  split_ifs
  · refine ⟨?_, rfl, rfl⟩
    rintro why ⟨error, hbreaks⟩
    have heq := List.append_cancel_left hbreaks
    simp only [List.cons.injEq, StateReport.mk.injEq, true_and, and_true] at heq
    exact heq.2.symm
  · exact ⟨fun why hbreaks => absurd hbreaks (Keeps.same rfl |>.not_breaks why), rfl, rfl⟩

theorem call_turn {call : AsyncCall γ κ} (h : s.callStep call = some t) :
    (∀ why, Breaks s t why → why = "MQTT Publish failed.")
      ∧ t.client.outstandingPing = s.client.outstandingPing ∧ t.handler = s.handler := by
  unfold callStep at h
  split at h
  · obtain ⟨hreports, hpings, hpc⟩ := callAdd_turn h
    exact ⟨fun why hbreaks => absurd hbreaks (Keeps.same hreports |>.not_breaks why), hpings, hpc⟩
  · exact callSend_turn h

/-- **A connection is given up by the receive thread**, at the place that the reason names, while
the client is CONNECTED and nobody has its lock — or by a request that cannot be sent. -/
theorem breaks_place {a : AsyncAction γ κ} {why : String} (h : s.step params a = some t)
    (hbreaks : Breaks s t why) :
    (∃ input, a = .handler input ∧ s.handlerStep params input s.handler = some t
      ∧ s.handler.why = some why ∧ s.client.state = .connected ∧ s.MuxFree)
    ∨ a = .call ∧ why = "MQTT Publish failed." := by
  cases a with
  | main input => exact absurd hbreaks ((main_turn h).1.not_breaks why)
  | handler input =>
    exact Or.inl ⟨input, rfl, h, (handler_turn h).breaks hbreaks⟩
  | request env req =>
    refine absurd hbreaks (Keeps.same ?_ |>.not_breaks why)
    rcases request_cases h with rfl | ⟨call, rfl⟩ <;> rfl
  | call =>
    obtain ⟨call, -, hstep⟩ := Option.bind_eq_some_iff.mp h
    exact Or.inr ⟨rfl, (call_turn hstep).1 why hbreaks⟩

end AsyncSystem

end Tr50
