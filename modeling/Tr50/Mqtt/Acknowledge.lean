import Tr50.Mqtt.Async
import Tr50.Mqtt.Publish

/-!
# Mqtt/Acknowledge — the acknowledgement of an inbound PUBLISH

`mqtt_puback` hands the QoS to the builder where the builder takes the message id, so every QoS 1
publish is acknowledged with the id `1`.
-/

namespace Tr50

open Machinery

variable {γ κ : Type}

/-- The receive thread answers `packet` with exactly one packet, from which `m` is read back. -/
def Acknowledges (env : ProcessEnv) (client : MqttAsyncClient γ κ) (packet : List UInt8)
    (m : UInt16) : Prop :=
  ∃ done, mqttAsyncHandlerProcess env client packet = some done
    ∧ ∃ ack, done.client.sent = client.sent ++ [ack] ∧ mqttMsgProcessPuback ack = some (.ok m)

/-- **Whatever id it is given, `mqtt_puback` sends the QoS as the id.** -/
theorem mqttPuback_qos1 {env : SendEnv} (h : env.malloc) (client : MqttClient)
    (messageId : UInt16) :
    mqttPuback env client messageId 1 = some (mqttSend env client [0x40, 0x02, 0x00, 0x01]) := by
  rw [mqttPuback, h]
  rfl

theorem mqttPuback_refused {env : SendEnv} (h : ¬ env.malloc) (client : MqttClient)
    (messageId : UInt16) (qos : ℤ) :
    mqttPuback env client messageId qos = some (errTr50Malloc, client) := by
  rw [mqttPuback, Bool.eq_false_iff.mpr h]
  rfl

theorem mqttMsgCmdGet_publish {b0 : UInt8} (hb : b0 &&& mqttGetMsgType = mqttMsgTypePublish)
    (rest : List UInt8) : mqttMsgCmdGet (b0 :: rest) = some mqttMsgTypePublish := by
  rw [mqttMsgCmdGet, List.getElem?_cons_zero]
  simp only [Option.bind_eq_bind, Option.bind_some, hb]
  rfl

/-- A well-formed QoS 1 publish goes to `mqtt_puback` with its id. -/
theorem mqttAsyncHandlerProcess_qos1 (env : ProcessEnv) {client : MqttAsyncClient γ κ}
    {mqtt : MqttClient} (hmqtt : client.mqtt = some mqtt) {b0 : UInt8} {f body : List UInt8}
    (hb : b0 &&& mqttGetMsgType = mqttMsgTypePublish) (hf : IsLengthField f body.length)
    (h4 : f.length ≤ 4) (hwf : PublishWellFormed b0 body) (hqos : b0 &&& 0x06 = 0x02) :
    ∃ msg, mqttAsyncHandlerProcess env client (b0 :: (f ++ body))
      = (mqttPuback env.toSendEnv mqtt ((publishMsgId b0 body).getD 0) 1).map fun r =>
          ⟨0, { client with mqtt := some r.2 }, some msg, none⟩ := by
  have hq : mqttPublishQos b0 = 1 := by
    have h : ∀ n : Fin 256, UInt8.ofFin n &&& 0x06 = 0x02 → mqttPublishQos (UInt8.ofFin n) = 1 := by
      decide +kernel
    exact h b0.toFin hqos
  obtain ⟨msg, hread, hmsgqos, hmsgid⟩ : ∃ msg, mqttMsgProcessPublish env.mallocCopy
      (b0 :: (f ++ body)) = some (.ok msg) ∧ msg.qos = 1 ∧ msg.msgId = publishMsgId b0 body :=
    ⟨_, mqttMsgProcessPublish_wellFormed env.mallocCopy hb hf h4 hwf, hq, rfl⟩
  refine ⟨msg, ?_⟩
  rw [mqttAsyncHandlerProcess, mqttMsgCmdGet_publish hb]
  simp only [if_true, mqttAsyncHandlerPublish, hread, hmsgqos, hmsgid,
    if_pos (show (1 : ℤ) > mqttPayloadQos0 by decide), hmqtt]
  cases mqttPuback env.toSendEnv mqtt ((publishMsgId b0 body).getD 0) 1 <;> rfl

/-- **A QoS 1 publish is acknowledged with its id exactly when that id is `1`**, and there is memory
for the acknowledgement. -/
theorem acknowledges_iff (env : ProcessEnv) {client : MqttAsyncClient γ κ} {mqtt : MqttClient}
    (hmqtt : client.mqtt = some mqtt) {b0 : UInt8} {f body : List UInt8} {m : UInt16}
    (hb : b0 &&& mqttGetMsgType = mqttMsgTypePublish) (hf : IsLengthField f body.length)
    (h4 : f.length ≤ 4) (hwf : PublishWellFormed b0 body) (hqos : b0 &&& 0x06 = 0x02) :
    Acknowledges env client (b0 :: (f ++ body)) m ↔ m = 1 ∧ env.malloc := by
  obtain ⟨msg, hprocess⟩ := mqttAsyncHandlerProcess_qos1 env hmqtt hb hf h4 hwf hqos
  by_cases hmalloc : env.malloc
  · have hsent : MqttAsyncClient.sent { client with
          mqtt := some (mqttSend env.toSendEnv mqtt [0x40, 0x02, 0x00, 0x01]).2 }
        = client.sent ++ [[0x40, 0x02, 0x00, 0x01]] := by
      simp only [MqttAsyncClient.sent, hmqtt, mqttSend]
      split_ifs <;> rfl
    have hread : mqttMsgProcessPuback [0x40, 0x02, 0x00, 0x01] = some (.ok 1) := by decide +kernel
    rw [mqttPuback_qos1 hmalloc, Option.map_some] at hprocess
    constructor
    · rintro ⟨done, hdone, ack, hack, hm⟩
      rw [hprocess] at hdone
      obtain rfl := Option.some.inj hdone
      rw [hsent] at hack
      obtain rfl : [0x40, 0x02, 0x00, 0x01] = ack := by simpa using hack
      rw [hread] at hm
      exact ⟨(Except.ok.inj (Option.some.inj hm)).symm, hmalloc⟩
    · rintro ⟨rfl, -⟩
      exact ⟨_, hprocess, _, hsent, hread⟩
  · refine iff_of_false ?_ fun h => hmalloc h.2
    rintro ⟨done, hdone, ack, hack, -⟩
    rw [hprocess, mqttPuback_refused hmalloc, Option.map_some] at hdone
    obtain rfl := Option.some.inj hdone
    simp [MqttAsyncClient.sent, hmqtt] at hack

/-- The one id that survives. -/
theorem acknowledges_iff_one :
    Acknowledges (γ := ℕ) (κ := ℕ) { malloc := true, tcpSend := 0, mallocCopy := fun _ => true }
        ⟨5000, 0, .connected, 0, false, some ⟨0, 0, 0, 0, []⟩, ⟨0, [], 30⟩, 0, []⟩
        (0x32 :: ([5] ++ [0, 1, 97, 0, 1])) 1
      ↔ (1 : UInt16) = 1 ∧ true :=
  acknowledges_iff { malloc := true, tcpSend := 0, mallocCopy := fun _ => true } rfl
    (by decide) (.last (by decide)) (by decide) (by decide) (by decide)

/-- A publish with the id `7` is acknowledged with another one. -/
theorem not_acknowledges_seven :
    PublishWellFormed 0x32 [0, 1, 97, 0, 7] ∧ publishMsgId 0x32 [0, 1, 97, 0, 7] = some 7
      ∧ ¬ Acknowledges (γ := ℕ) (κ := ℕ)
        { malloc := true, tcpSend := 0, mallocCopy := fun _ => true }
        ⟨5000, 0, .connected, 0, false, some ⟨0, 0, 0, 0, []⟩, ⟨0, [], 30⟩, 0, []⟩
        (0x32 :: ([5] ++ [0, 1, 97, 0, 7])) 7 := by
  refine ⟨by decide, by decide, ?_⟩
  rintro ⟨done, hdone, ack, hack, hread⟩
  have hsent : (mqttAsyncHandlerProcess (γ := ℕ) (κ := ℕ)
      { malloc := true, tcpSend := 0, mallocCopy := fun _ => true }
      ⟨5000, 0, .connected, 0, false, some ⟨0, 0, 0, 0, []⟩, ⟨0, [], 30⟩, 0, []⟩
      (0x32 :: ([5] ++ [0, 1, 97, 0, 7]))).map (·.client.sent)
      = some [[0x40, 0x02, 0x00, 0x01]] := by
    decide +kernel
  rw [hdone, Option.map_some, hack] at hsent
  obtain rfl : ack = [0x40, 0x02, 0x00, 0x01] := by
    simpa [MqttAsyncClient.sent] using Option.some.inj hsent
  exact absurd hread (by decide +kernel)

end Tr50
