import Tr50.Mqtt.Client
import Tr50.Mqtt.Qos

/-!
# Mqtt/Async — the asynchronous client

`src/mqtt/mqtt.async.c`: the client's record, the entry points of the application, and the parts of
the receive thread, each as one run of its code with nothing else going on.  `reports` keeps the
calls of `_mqtt_async_state_change`, oldest first.
-/

namespace Tr50

open Machinery

/-! ## The client -/

/-- `MQTT_ASYNC_CLIENT_STATE_…`. -/
inductive MqttAsyncState
  | created | connecting | connected | broken | reconnecting | disabled | deleting | deleted
deriving DecidableEq, Repr

/-- One call of `_mqtt_async_state_change`. -/
structure StateReport where
  oldState : MqttAsyncState
  newState : MqttAsyncState
  error : ℤ
  why : String
deriving DecidableEq, Repr

/-- `_MQTT_ASYNC_CLIENT`. -/
structure MqttAsyncClient (γ κ : Type) where
  timeoutInMs : ℤ
  msgIdSeq : ℤ
  state : MqttAsyncState
  threadId : ℤ
  checkThreadId : Bool
  mqtt : Option MqttClient
  qos : MqttQos γ κ
  outstandingPing : ℤ
  reports : List StateReport
deriving DecidableEq, Repr

variable {γ κ : Type}

namespace MqttAsyncClient

/-- The packets sent on the current connection. -/
def sent (client : MqttAsyncClient γ κ) : List (List UInt8) :=
  match client.mqtt with
  | none => []
  | some mqtt => mqtt.sent

end MqttAsyncClient

/-- `_mqtt_async_state_change`. -/
def mqttAsyncStateChange (client : MqttAsyncClient γ κ) (oldState newState : MqttAsyncState)
    (error : ℤ) (why : String) : MqttAsyncClient γ κ :=
  { client with
    state := newState
    checkThreadId := false
    reports := client.reports ++ [⟨oldState, newState, error, why⟩] }

/-- The receive thread finds the connection gone: under the lock, CONNECTED becomes BROKEN. -/
def mqttAsyncBreak (client : MqttAsyncClient γ κ) (error : ℤ) (why : String) :
    MqttAsyncClient γ κ :=
  if client.state = .connected then mqttAsyncStateChange client .connected .broken error why
  else client

/-! ## The entry points -/

/-- What a request meets: the calling thread (`none` when `_thread_id` fails), the clock, and its
send. -/
structure RequestEnv extends SendEnv where
  caller : Option ℤ
  now : ℤ

/-- The calling thread is the receive thread inside a callback. -/
def mqttAsyncSameThread (client : MqttAsyncClient γ κ) (caller : Option ℤ) : Bool :=
  client.checkThreadId ∧ caller = some client.threadId

/-- The connection a request may use. -/
def mqttAsyncConnection (client : MqttAsyncClient γ κ) : Option MqttClient :=
  if client.state = .connected then client.mqtt else none

/-- A request takes its id, and its record a slot: `record` is the callback and custom pointer of a
request that waits for an acknowledgement. -/
def mqttAsyncAddRecord (client : MqttAsyncClient γ κ) (now : ℤ)
    (record : Option (Option γ × Option κ)) : ℤ × MqttAsyncClient γ κ :=
  let msgId := UInt16.ofInt client.msgIdSeq
  let client := { client with msgIdSeq := client.msgIdSeq + 1 }
  match record with
  | none => (0, client)
  | some (callback, custom) =>
    let (ret, qos) := mqttQosAdd client.qos now msgId callback custom
    (ret, { client with qos := qos })

/-- A request has been sent, or its sender has failed. -/
def mqttAsyncSent (client : MqttAsyncClient γ κ) (ret : ℤ) (mqtt : MqttClient) :
    MqttAsyncClient γ κ :=
  let client := { client with mqtt := some mqtt }
  if ret ≠ 0 then mqttAsyncStateChange client .connected .broken ret "MQTT Publish failed."
  else client

/-- What `_mqtt_async_publish_base`, `mqtt_async_subscribe` and `mqtt_async_unsubscribe` share. -/
def mqttAsyncRequest (env : RequestEnv) (handle : Option (MqttAsyncClient γ κ))
    (record : Option (Option γ × Option κ))
    (send : MqttClient → UInt16 → Option (ℤ × MqttClient)) :
    Option (ℤ × Option (MqttAsyncClient γ κ)) :=
  match handle with
  | none => some (errTr50AsyncClientNotConnected, none)
  | some client =>
    if mqttAsyncSameThread client env.caller then some (errTr50AsyncClientSameThread, client)
    else
      match mqttAsyncConnection client with
      | none => some (errTr50AsyncClientNotConnected, client)
      | some mqtt =>
        match mqttAsyncAddRecord client env.now record with
        | (ret, client') =>
          if ret ≠ 0 then some (ret, client')
          else
            match send mqtt (UInt16.ofInt client.msgIdSeq) with
            | none => none
            | some (ret, mqtt) => some (ret, mqttAsyncSent client' ret mqtt)

/-- `_mqtt_async_publish_base`. -/
def mqttAsyncPublishBase (env : RequestEnv) (handle : Option (MqttAsyncClient γ κ))
    (topic data : List UInt8) (retain qos : ℤ) (callback : Option γ) (callbackCustom : Option κ) :
    Option (ℤ × Option (MqttAsyncClient γ κ)) :=
  mqttAsyncRequest env handle (if qos = 1 then some (callback, callbackCustom) else none)
    fun mqtt msgId => mqttPublish env.toSendEnv mqtt qos retain msgId topic data

/-- `mqtt_async_publish`. -/
def mqttAsyncPublish (env : RequestEnv) (handle : Option (MqttAsyncClient γ κ))
    (topic data : List UInt8) (retain : ℤ) : Option (ℤ × Option (MqttAsyncClient γ κ)) :=
  mqttAsyncPublishBase env handle topic data retain mqttPayloadQos0 none none

/-- `mqtt_async_publish_qos1`. -/
def mqttAsyncPublishQos1 (env : RequestEnv) (handle : Option (MqttAsyncClient γ κ))
    (topic data : List UInt8) (retain : ℤ) (callback : Option γ) (callbackCustom : Option κ) :
    Option (ℤ × Option (MqttAsyncClient γ κ)) :=
  mqttAsyncPublishBase env handle topic data retain mqttPayloadQos1 callback callbackCustom

/-- `mqtt_async_subscribe`. -/
def mqttAsyncSubscribe (env : RequestEnv) (handle : Option (MqttAsyncClient γ κ))
    (topic : List UInt8) (qos : ℤ) (callback : Option γ) (callbackCustom : Option κ) :
    Option (ℤ × Option (MqttAsyncClient γ κ)) :=
  mqttAsyncRequest env handle (some (callback, callbackCustom))
    fun mqtt msgId => mqttSubscribe env.toSendEnv mqtt msgId topic qos

/-- `mqtt_async_unsubscribe`. -/
def mqttAsyncUnsubscribe (env : RequestEnv) (handle : Option (MqttAsyncClient γ κ))
    (topic : List UInt8) (callback : Option γ) (callbackCustom : Option κ) :
    Option (ℤ × Option (MqttAsyncClient γ κ)) :=
  mqttAsyncRequest env handle (some (callback, callbackCustom))
    fun mqtt msgId => mqttUnsubscribe env.toSendEnv mqtt msgId topic

/-- **What a request does**: it is turned away with the client untouched, it finds the table full,
or its send decides. -/
theorem mqttAsyncRequest_cases {env : RequestEnv} {client : MqttAsyncClient γ κ}
    {handle : Option (MqttAsyncClient γ κ)} {record : Option (Option γ × Option κ)}
    {send : MqttClient → UInt16 → Option (ℤ × MqttClient)} {ret : ℤ}
    (h : mqttAsyncRequest env (some client) record send = some (ret, handle)) :
    (mqttAsyncSameThread client env.caller ∧ ret = errTr50AsyncClientSameThread
      ∧ handle = some client)
    ∨ (mqttAsyncConnection client = none ∧ ret = errTr50AsyncClientNotConnected
      ∧ handle = some client)
    ∨ mqttAsyncSameThread client env.caller = false ∧ ∃ mqtt r mid,
        mqttAsyncConnection client = some mqtt
        ∧ mqttAsyncAddRecord client env.now record = (r, mid)
        ∧ ((r ≠ 0 ∧ ret = r ∧ handle = some mid)
          ∨ r = 0 ∧ ∃ mqtt', send mqtt (UInt16.ofInt client.msgIdSeq) = some (ret, mqtt')
            ∧ handle = some (mqttAsyncSent mid ret mqtt')) := by
  unfold mqttAsyncRequest at h
  by_cases hthread : mqttAsyncSameThread client env.caller
  · simp only [hthread, if_true] at h
    obtain ⟨rfl, rfl⟩ := Prod.mk.inj (Option.some.inj h)
    exact Or.inl ⟨hthread, rfl, rfl⟩
  cases hconn : mqttAsyncConnection client with
  | none =>
    simp only [hthread, hconn] at h
    obtain ⟨rfl, rfl⟩ := Prod.mk.inj (Option.some.inj h)
    exact Or.inr (Or.inl ⟨rfl, rfl, rfl⟩)
  | some mqtt =>
    obtain ⟨⟨r, mid⟩, hadd⟩ : ∃ x, mqttAsyncAddRecord client env.now record = x := ⟨_, rfl⟩
    refine Or.inr (Or.inr ⟨by simpa using hthread, mqtt, r, mid, rfl, hadd, ?_⟩)
    simp only [hthread, hconn, hadd] at h
    by_cases hr : r = 0
    · rw [hr] at h
      cases hsend : send mqtt (UInt16.ofInt client.msgIdSeq) with
      | none => simp [hsend] at h
      | some res =>
        simp only [hsend] at h
        obtain ⟨rfl, rfl⟩ := Prod.mk.inj (Option.some.inj h)
        exact Or.inr ⟨hr, res.2, rfl, rfl⟩
    · simp only [hr, ne_eq, not_false_eq_true, if_true] at h
      obtain ⟨rfl, rfl⟩ := Prod.mk.inj (Option.some.inj h)
      exact Or.inl ⟨hr, rfl, rfl⟩

/-! ## The receive thread -/

/-- What one `_mqtt_async_handler_process` meets: the allocator's answers to the two copies of a
PUBLISH, and the send of its acknowledgement. -/
structure ProcessEnv extends SendEnv where
  mallocCopy : ℕ → Bool

/-- What `_mqtt_async_handler_process` leaves behind: the message given to `publish_callback`, and
the record whose callback `mqtt_qos_signal` has invoked. -/
structure Processed (γ κ : Type) where
  ret : ℤ
  client : MqttAsyncClient γ κ
  published : Option PublishMsg
  released : Option (MqttQosRecord γ κ)

/-- An acknowledgement's reader, and the signal for the id it reads. -/
def mqttAsyncHandlerAck (client : MqttAsyncClient γ κ) (read : Option (Except ℤ UInt16)) :
    Option (Processed γ κ) :=
  match read with
  | none => none
  | some (.error ret) => some ⟨ret, client, none, none⟩
  | some (.ok msgId) =>
    let (_, qos, released) := mqttQosSignal client.qos msgId
    some ⟨0, { client with qos := qos }, none, released⟩

/-- The PUBLISH case: a QoS above `0` is acknowledged under the lock, before the callback. -/
def mqttAsyncHandlerPublish (env : ProcessEnv) (client : MqttAsyncClient γ κ) (data : List UInt8) :
    Option (Processed γ κ) :=
  match mqttMsgProcessPublish env.mallocCopy data with
  | none => none
  | some (.error ret) => some ⟨ret, client, none, none⟩
  | some (.ok msg) =>
    if msg.qos > mqttPayloadQos0 then
      match client.mqtt with
      | none => none
      | some mqtt =>
        match mqttPuback env.toSendEnv mqtt (msg.msgId.getD 0) msg.qos with
        | none => none
        | some (_, mqtt) => some ⟨0, { client with mqtt := some mqtt }, some msg, none⟩
    else some ⟨0, client, some msg, none⟩

/-- `_mqtt_async_handler_process`. -/
def mqttAsyncHandlerProcess (env : ProcessEnv) (client : MqttAsyncClient γ κ) (data : List UInt8) :
    Option (Processed γ κ) :=
  match mqttMsgCmdGet data with
  | none => none
  | some cmd =>
    if cmd = mqttMsgTypePublish then mqttAsyncHandlerPublish env client data
    else if cmd = mqttMsgTypePingresp then
      some ⟨0, { client with outstandingPing := 0 }, none, none⟩
    else if cmd = mqttMsgTypePuback then mqttAsyncHandlerAck client (mqttMsgProcessPuback data)
    else if cmd = mqttMsgTypeSuback then
      mqttAsyncHandlerAck client ((mqttMsgProcessSuback data).map fun r => r.map Prod.fst)
    else if cmd = mqttMsgTypeUnsuback then
      mqttAsyncHandlerAck client (mqttMsgProcessUnsuback data)
    else some ⟨0, client, none, none⟩

/-- `_mqtt_async_handler_keepalive` at time `now`; `none` is a NULL connection looked into. -/
def mqttAsyncHandlerKeepalive (env : SendEnv) (now : ℤ) (keepaliveInSec : UInt16)
    (client : MqttAsyncClient γ κ) : Option (MqttAsyncClient γ κ) :=
  let keepaliveInMs : ℤ := keepaliveInSec.toNat * 1000
  if client.state ≠ .connected then some client
  else if keepaliveInMs ≤ 0 then some client
  else if client.outstandingPing > 1 then
    -- if both two pings dont come back yet, something is wrong
    some { mqttAsyncBreak client 0 "MQTT Heartbeat no response." with outstandingPing := 0 }
  else
    match client.mqtt with
    | none => none
    | some mqtt =>
      if mqtt.lastRecv + keepaliveInMs < now + client.timeoutInMs then
        match mqttPing env mqtt with
        | none => none
        | some (ret, mqtt) =>
          let client := { client with mqtt := some mqtt }
          if ret ≠ 0 then some (mqttAsyncBreak client 0 "MQTT Heartbeat failed.")
          else some { client with outstandingPing := client.outstandingPing + 1 }
      else some client

end Tr50
