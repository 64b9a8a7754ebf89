import Tr50.Mqtt.Msg
import Tr50.Util.Tcp

/-!
# Mqtt/Client — sending packets on a connection

`mqtt_send` of `src/mqtt/mqtt.recv.c` and the senders of `src/mqtt/mqtt.c`.  A sender builds a
packet and gives it to `mqtt_send`; the connection keeps, besides the counters of `_MQTT_CLIENT`,
the packets given to `_tcp_send` so far (`sent`), which no code looks at.
-/

namespace Tr50

open Machinery

/-- `_MQTT_CLIENT`. -/
structure MqttClient where
  sock : ℕ
  lastRecv : ℤ
  byteSent : ℤ
  byteRecv : ℤ
  sent : List (List UInt8)
deriving DecidableEq, Repr

/-- What one send meets: the allocator's answer to the builder, and the code of `_tcp_send`,
`0` where it has handed over every byte. -/
structure SendEnv where
  malloc : Bool
  tcpSend : ℤ
deriving DecidableEq, Repr

/-! ## Sending -/

/-- `mqtt_send`. -/
def mqttSend (env : SendEnv) (client : MqttClient) (buf : List UInt8) : ℤ × MqttClient :=
  let client := { client with sent := client.sent ++ [buf] }
  let client :=
    if env.tcpSend = 0 then { client with byteSent := client.byteSent + buf.length } else client
  (0, client)

/-- The bytes a builder hands over; a block with an unwritten cell is nothing to send. -/
def packetOf : Option (Except ℤ Buffer) → Option (Except ℤ (List UInt8))
  | none => none
  | some (.error e) => some (.error e)
  | some (.ok msg) => (msg.mapM id).map .ok

/-- What every sender does with its builder's result. -/
def mqttSendMsg (env : SendEnv) (client : MqttClient) (req : Option (Except ℤ Buffer)) :
    Option (ℤ × MqttClient) :=
  match packetOf req with
  | none => none
  | some (.error ret) => some (ret, client)
  | some (.ok req) => some (mqttSend env client req)

/-- `mqtt_publish`. -/
def mqttPublish (env : SendEnv) (client : MqttClient) (qos retain : ℤ) (messageId : UInt16)
    (topic data : List UInt8) : Option (ℤ × MqttClient) :=
  mqttSendMsg env client (mqttMsgBuildPublish env.malloc topic qos retain messageId data)

/-- `mqtt_puback`.  The builder's two integers are passed in the other order than it declares
them. -/
def mqttPuback (env : SendEnv) (client : MqttClient) (messageId : UInt16) (qos : ℤ) :
    Option (ℤ × MqttClient) :=
  mqttSendMsg env client (mqttMsgBuildPuback env.malloc (UInt16.ofInt qos) messageId.toNat)

/-- `mqtt_ping`. -/
def mqttPing (env : SendEnv) (client : MqttClient) : Option (ℤ × MqttClient) :=
  mqttSendMsg env client (mqttMsgBuildPing env.malloc)

/-- `mqtt_subscribe`. -/
def mqttSubscribe (env : SendEnv) (client : MqttClient) (msgId : UInt16) (topic : List UInt8)
    (qos : ℤ) : Option (ℤ × MqttClient) :=
  mqttSendMsg env client (mqttMsgBuildSubscribe env.malloc topic qos msgId)

/-- `mqtt_unsubscribe`. -/
def mqttUnsubscribe (env : SendEnv) (client : MqttClient) (msgId : UInt16) (topic : List UInt8) :
    Option (ℤ × MqttClient) :=
  mqttSendMsg env client (mqttMsgBuildUnsubscribe env.malloc topic msgId)

/-! ## What a send does -/

/-- **A sender reports its builder's error, or success** — whatever became of the packet. -/
theorem mqttSendMsg_cases {env : SendEnv} {client : MqttClient} {req : Option (Except ℤ Buffer)}
    {ret : ℤ} {client' : MqttClient} (h : mqttSendMsg env client req = some (ret, client')) :
    (∃ packet, packetOf req = some (.ok packet) ∧ ret = 0
      ∧ client'.sent = client.sent ++ [packet])
    ∨ (packetOf req = some (.error ret) ∧ client' = client) := by
  unfold mqttSendMsg at h
  match hreq : packetOf req with
  | none => simp [hreq] at h
  | some (.error e) =>
    simp only [hreq] at h
    obtain ⟨rfl, rfl⟩ := Prod.mk.inj (Option.some.inj h)
    exact Or.inr ⟨rfl, rfl⟩
  | some (.ok packet) =>
    simp only [hreq] at h
    obtain ⟨rfl, rfl⟩ := Prod.mk.inj (Option.some.inj h)
    refine Or.inl ⟨packet, rfl, rfl, ?_⟩
    split_ifs <;> rfl

theorem mqttSendMsg_packet (env : SendEnv) (client : MqttClient) {req : Option (Except ℤ Buffer)}
    {packet : List UInt8} (h : packetOf req = some (.ok packet)) :
    ∃ client', mqttSendMsg env client req = some (0, client')
      ∧ client'.sent = client.sent ++ [packet] := by
  refine ⟨(mqttSend env client packet).2, ?_, ?_⟩
  · simp only [mqttSendMsg, h]
    rfl
  · unfold mqttSend
    split_ifs <;> rfl

/-- An error is the builder's. -/
theorem packetOf_eq_error {req : Option (Except ℤ Buffer)} {e : ℤ}
    (h : packetOf req = some (.error e)) : req = some (.error e) := by
  unfold packetOf at h
  split at h
  · cases h
  · rename_i hreq
    obtain rfl := Except.error.inj (Option.some.inj h)
    rfl
  · obtain ⟨packet, -, heq⟩ := Option.map_eq_some_iff.mp h
    cases heq

/-- …and a block that has been written to its end is a packet. -/
theorem packetOf_filled (packet : List UInt8) :
    packetOf (some (.ok (packet.map some))) = some (.ok packet) := by
  have h : (packet.map some).mapM (id : Option UInt8 → Option UInt8) = some packet := by
    induction packet with
    | nil => rfl
    | cons b packet ih => simp [ih]
  simp [packetOf, h]

end Tr50
