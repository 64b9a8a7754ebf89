import Tr50.Machinery.Runs
import Tr50.Mqtt.Connect
import Tr50.Mqtt.SendFailure

/-!
# Mqtt/Handler — the asynchronous client and the threads around it

`mqtt_async_connect` and `mqtt_async_disconnect` (`MainPc`), the receive thread
`_mqtt_async_handler` (`HandlerPc`) and the requests of any other thread (`AsyncCall`), cut where
the code takes or gives up a lock, calls a callback, or looks without the lock at what another
thread may change.  A section under `client->mux` which only its own thread could look into is one
step: the receive thread is the one that looks without the lock, so its own sections are, and so is
the report that ends a request.  `reconnect` keeps the lock over its connect
(`HandlerPc.connecting`).

The lock of the QoS table is held from slot to slot of `mqtt_qos_clear` (`HandlerPc.clear`), and
given up around each callback.

`AsyncHistory` records what has happened; no step reads it.
-/

namespace Tr50

open Machinery

variable {γ κ : Type}

/-! ## Places -/

/-- Where `mqtt_async_connect` stands, and later `mqtt_async_disconnect`. -/
inductive MainPc
  /-- The client is set up, and not yet reported. -/
  | created
  /-- At `mqtt_connect`. -/
  | connecting
  /-- At `_thread_create`. -/
  | starting
  /-- `mqtt_async_connect` has returned `0`. -/
  | running
  /-- `mqtt_async_disconnect`, at its lock… -/
  | disconnect
  /-- …at `_thread_join`… -/
  | join
  /-- …at `mqtt_disconnect`… -/
  | close
  /-- …and at its last report. -/
  | delete
  | deleted
deriving DecidableEq, Repr

/-- Where `_mqtt_async_handler` stands. -/
inductive HandlerPc (γ κ : Type)
  /-- There is no thread. -/
  | absent
  | starting
  /-- At the test of the loop. -/
  | loop
  /-- At the test for CONNECTED, and inside `mqtt_recv`. -/
  | test
  | recv
  /-- `mqtt_recv` has failed; the lock comes next. -/
  | recvFailed
  /-- `_mqtt_async_handler_process`… -/
  | process (data : List UInt8)
  /-- …at the lock for its PUBACK, and in `publish_callback`… -/
  | puback (msg : PublishMsg)
  | publishCallback (msg : PublishMsg)
  /-- …or at the callback of `mqtt_qos_signal`. -/
  | signalCallback (record : MqttQosRecord γ κ)
  /-- At `mqtt_qos_any_expired`. -/
  | expired
  /-- Some record has; the lock comes next. -/
  | ackLost
  /-- `mqtt_qos_clear`, of the expired table or — `last` — of the stopping client… -/
  | clearEntry (last : Bool)
  /-- …with the lock of the table at its slot `i`… -/
  | clear (last : Bool) (i : ℕ)
  /-- …and without it at the callback of the record it has released there. -/
  | clearCallback (last : Bool) (record : MqttQosRecord γ κ) (i : ℕ)
  /-- `_mqtt_async_handler_keepalive`… -/
  | keepalive
  /-- …with both pings outstanding; the lock comes next… -/
  | heartbeatLost
  /-- …at the test for a ping… -/
  | ping
  /-- …that has failed; the lock comes next. -/
  | pingFailed
  /-- `_mqtt_async_handler_reconnect` at the test of its loop, `total` being
  `total_disconnected_in_ms`… -/
  | reconnect (total : ℤ)
  /-- …at its lock… -/
  | reconnectLock (total : ℤ)
  /-- …under it, at `mqtt_connect`… -/
  | connecting (total : ℤ)
  /-- …and at the test of its inner loop. -/
  | waiting (total counter : ℤ)
  | ended
deriving DecidableEq

namespace HandlerPc

/-- The place has `client->mux`. -/
def hasMux : HandlerPc γ κ → Bool
  | connecting _ => true
  | _ => false

/-- The place has the lock of the QoS table. -/
def hasQos : HandlerPc γ κ → Bool
  | clear _ _ => true
  | _ => false

/-- Where the thread goes on behind `mqtt_qos_clear`. -/
def afterClear (last : Bool) : HandlerPc γ κ := if last then ended else keepalive

/-- The thread is there, and has not returned. -/
def alive : HandlerPc γ κ → Bool
  | absent => false
  | ended => false
  | _ => true

end HandlerPc

/-- The status that `mqtt_qos_clear` hands to the callbacks. -/
def clearStatus (last : Bool) : ℤ := if last then errMqttQosStopping else errMqttQosFailure

/-- Where a request stands that has `client->mux`. -/
inductive CallPc
  /-- Behind the tests, at its id and its record. -/
  | add
  /-- At its send. -/
  | send (msgId : UInt16)
deriving DecidableEq, Repr

/-- A request that has `client->mux`. -/
structure AsyncCall (γ κ : Type) where
  env : RequestEnv
  request : AsyncRequest γ κ
  pc : CallPc

/-! ## States -/

/-- What a record is for: its id, and whom it calls. -/
structure RecordKey (γ κ : Type) where
  msgId : UInt16
  callback : Option γ
  custom : Option κ
deriving DecidableEq, Repr

/-- The key of a record. -/
def MqttQosRecord.key (r : MqttQosRecord γ κ) : RecordKey γ κ := ⟨r.msgId, r.callback, r.custom⟩

/-- One call of a QoS callback. -/
structure QosInvocation (γ κ : Type) where
  callback : γ
  custom : Option κ
  status : ℤ
deriving DecidableEq, Repr

/-- What has happened, the latest first: what was done with the connections, each successful
`mqtt_qos_add` with the value of `msg_id_seq` its id was taken from, the records released, and the
callbacks. -/
structure AsyncHistory (γ κ : Type) where
  links : List LinkEvent
  added : List (ℤ × RecordKey γ κ)
  released : List (RecordKey γ κ)
  invoked : List (QosInvocation γ κ)

structure AsyncSystem (γ κ : Type) where
  client : MqttAsyncClient γ κ
  main : MainPc
  handler : HandlerPc γ κ
  /-- `ret` of `_mqtt_async_handler`: the code of the last `mqtt_recv`. -/
  ret : ℤ
  call : Option (AsyncCall γ κ)
  /-- The next socket. -/
  nextSock : ℕ
  history : AsyncHistory γ κ

def mqttQosDefaultSize : UInt8 := 32
def mqttQosDefaultTimeout : ℤ := 30

namespace AsyncSystem

/-- The client as `mqtt_async_connect` hands it out: memory and locks are there. -/
def init : AsyncSystem γ κ where
  client :=
    { timeoutInMs := 5000
      msgIdSeq := 0
      state := .connected
      threadId := 0
      checkThreadId := false
      mqtt := none
      qos := mqttQosCreate mqttQosDefaultSize mqttQosDefaultTimeout
      outstandingPing := 0
      reports := [] }
  main := .created
  handler := .absent
  ret := 0
  call := none
  nextSock := 0
  history := ⟨[], [], [], []⟩

/-- Nobody has `client->mux`. -/
def MuxFree (s : AsyncSystem γ κ) : Prop := s.call.isNone ∧ s.handler.hasMux = false

instance (s : AsyncSystem γ κ) : Decidable s.MuxFree :=
  inferInstanceAs (Decidable (_ ∧ _))

/-- `_mqtt_async_state_change`. -/
def report (s : AsyncSystem γ κ) (oldState newState : MqttAsyncState) (error : ℤ) (why : String) :
    AsyncSystem γ κ :=
  { s with client := mqttAsyncStateChange s.client oldState newState error why }

/-- The receive thread goes on at `pc`. -/
def goto (s : AsyncSystem γ κ) (pc : HandlerPc γ κ) : AsyncSystem γ κ := { s with handler := pc }

/-- Something is done with a connection. -/
def link (s : AsyncSystem γ κ) (e : LinkEvent) : AsyncSystem γ κ :=
  { s with history.links := e :: s.history.links }

/-- A record is released. -/
def release (s : AsyncSystem γ κ) (r : MqttQosRecord γ κ) : AsyncSystem γ κ :=
  { s with history.released := r.key :: s.history.released }

/-- The callback of a released record, if it has one. -/
def invoke (s : AsyncSystem γ κ) (r : MqttQosRecord γ κ) (status : ℤ) : AsyncSystem γ κ :=
  { s with
    history.invoked := (r.callback.toList.map fun k => ⟨k, r.custom, status⟩) ++ s.history.invoked }

/-- The client after a send: its connection, and the packet if there was one to send. -/
def send (s : AsyncSystem γ κ) (mqtt mqtt' : MqttClient) : AsyncSystem γ κ :=
  { s with
    client.mqtt := some mqtt'
    history.links := ((mqtt'.sent.drop mqtt.sent.length).map (.sent mqtt.sock)) ++ s.history.links }

/-- The receive thread finds the connection gone. -/
def broken (s : AsyncSystem γ κ) (error : ℤ) (why : String) : AsyncSystem γ κ :=
  { s with client := mqttAsyncBreak s.client error why }

end AsyncSystem

/-! ## The receive thread -/

/-- What a step of the receive thread meets, as far as the code does not decide it: its
`_thread_id`, `mqtt_recv`, the allocator and the socket, the clock, `mqtt_connect`, and the
`should_reconnect_callback`. -/
structure HandlerInput where
  threadId : Option ℤ
  answer : RecvAnswer
  env : ProcessEnv
  now : ℤ
  connect : ConnectEnv
  shouldReconnect : Bool

/-- `keepalive_in_ms` -/
def MqttConnectParams.keepaliveInMs (params : MqttConnectParams) : ℤ :=
  params.keepaliveInSec.toNat * 1000

namespace AsyncSystem

variable (params : MqttConnectParams) (s : AsyncSystem γ κ)

/-- `mqtt_recv` returns. -/
def recv (mqtt : MqttClient) : RecvAnswer → AsyncSystem γ κ
  | .failed ret _ taken =>
      { (s.link (.received mqtt.sock none)).goto
          (if ret = errTr50TcpTimeout then .expired else .recvFailed) with
        ret := ret
        client.mqtt := some { mqtt with byteRecv := mqtt.byteRecv + taken } }
  | .packet data _ now =>
      { (s.link (.received mqtt.sock (some data))).goto (.process data) with
        ret := 0
        client.mqtt :=
          some { mqtt with lastRecv := now, byteRecv := mqtt.byteRecv + data.length } }

/-- `_mqtt_async_handler_process`, up to the lock for a PUBACK and up to the callback. -/
def process (env : ProcessEnv) (data : List UInt8) : Option (AsyncSystem γ κ) :=
  match mqttMsgCmdGet data with
  | none => none
  | some cmd =>
    if cmd = mqttMsgTypePublish then
      match mqttMsgProcessPublish env.mallocCopy data with
      | none => none
      | some (.error _) => some (s.goto .expired)
      | some (.ok msg) =>
        some (s.goto (if msg.qos > mqttPayloadQos0 then .puback msg else .publishCallback msg))
    else
      match mqttAsyncHandlerProcess env s.client data with
      | none => none
      | some done =>
        let s := { s with client := done.client }
        match done.released with
        | none => some (s.goto .expired)
        | some r => some ((s.release r).goto (.signalCallback r))

/-- `mqtt_puback`, and its unlock. -/
def puback (env : SendEnv) (msg : PublishMsg) : Option (AsyncSystem γ κ) :=
  match s.client.mqtt with
  | none => none
  | some mqtt =>
    match mqttPuback env mqtt (msg.msgId.getD 0) msg.qos with
    | none => none
    | some (_, mqtt') => some ((s.send mqtt mqtt').goto (.publishCallback msg))

/-- One slot of `mqtt_qos_clear`. -/
def clearSlot (last : Bool) (i : ℕ) : AsyncSystem γ κ :=
  if i < s.client.qos.records.length then
    match mqttQosClearStep s.client.qos i with
    | (_, none) => s.goto (.clear last (i + 1))
    | (qos, some r) => ({ s with client.qos := qos }.release r).goto (.clearCallback last r i)
  else s.goto (.afterClear last)

/-- The test for a ping, and the ping. -/
def ping (env : SendEnv) (now : ℤ) : Option (AsyncSystem γ κ) :=
  match s.client.mqtt with
  | none => none
  | some mqtt =>
    if mqtt.lastRecv + params.keepaliveInMs < now + s.client.timeoutInMs then
      match mqttPing env mqtt with
      | none => none
      | some (ret, mqtt') =>
        let s := s.send mqtt mqtt'
        if ret ≠ 0 then some (s.goto .pingFailed)
        else some
          { s.goto (.reconnect 0) with client.outstandingPing := s.client.outstandingPing + 1 }
    else some (s.goto (.reconnect 0))

/-- Under the lock the old connection is given up. -/
def reopen (env : SendEnv) (total : ℤ) : Option (AsyncSystem γ κ) :=
  match s.client.mqtt with
  | none =>
      some ((s.report .broken .reconnecting 0 "MQTT Reconnecting...").goto (.connecting total))
  | some mqtt =>
    match mqttDisconnect env mqtt s.history.links with
    | none => none
    | some (_, links) =>
      let s := { s with client.mqtt := none, history.links := links }
      some ((s.report .broken .reconnecting 0 "MQTT Reconnecting...").goto (.connecting total))

/-- …and a new one tried. -/
def reconnect (env : ConnectEnv) (total : ℤ) : Option (AsyncSystem γ κ) :=
  match mqttConnect env params s.nextSock s.history.links with
  | none => none
  | some (.ok mqtt, links) =>
      let s := { s with
        client.mqtt := some mqtt
        nextSock := s.nextSock + 1
        history.links := links }
      some ((s.report .reconnecting .connected 0 "MQTT Reconnected.").goto .loop)
  | some (.error ret, links) =>
      let s := { s with nextSock := s.nextSock + 1, history.links := links }
      some ((s.report .reconnecting .broken ret "MQTT Client broken.  Reconnect failed.").goto
        (.waiting total 0))

/-- `_mqtt_async_handler`, from one place to the next. -/
def handlerStep (input : HandlerInput) : HandlerPc γ κ → Option (AsyncSystem γ κ)
  | .absent => none
  | .starting =>
      some { s.goto .loop with client.threadId := input.threadId.getD s.client.threadId }
  | .loop =>
      some (s.goto (if s.client.state = .deleting ∨ s.client.state = .disabled then .clearEntry true
        else .test))
  | .test => some (s.goto (if s.client.state = .connected then .recv else .expired))
  | .recv => s.client.mqtt.map fun mqtt => s.recv mqtt input.answer
  | .recvFailed =>
      if s.MuxFree then some ((s.broken s.ret "MQTT Receive failed.").goto .expired) else none
  | .process data => s.process input.env data
  | .puback msg => if s.MuxFree then s.puback input.env.toSendEnv msg else none
  | .publishCallback _ => some (s.goto .expired)
  | .signalCallback r => some ((s.invoke r 0).goto .expired)
  | .expired =>
      let (found, qos) := mqttQosAnyExpired s.client.qos input.now
      some ({ s with client.qos := qos }.goto (if found then .ackLost else .keepalive))
  | .ackLost =>
      if s.MuxFree then
        some ((s.broken s.ret "MQTT Ack not recevied.").goto (.clearEntry false))
      else none
  | .clearEntry last =>
      some (s.goto (if s.client.qos.currentSize = 0 then .afterClear last else .clear last 0))
  | .clear last i => some (s.clearSlot last i)
  | .clearCallback last r i => some ((s.invoke r (clearStatus last)).goto (.clear last (i + 1)))
  | .keepalive =>
      some (s.goto (if s.client.state ≠ .connected ∨ params.keepaliveInMs ≤ 0 then .reconnect 0
        -- if both two pings dont come back yet, something is wrong
        else if s.client.outstandingPing > 1 then .heartbeatLost
        else .ping))
  | .heartbeatLost =>
      if s.MuxFree then
        some { (s.broken 0 "MQTT Heartbeat no response.").goto (.reconnect 0) with
          client.outstandingPing := 0 }
      else none
  | .ping => s.ping params input.env.toSendEnv input.now
  | .pingFailed =>
      if s.MuxFree then some ((s.broken 0 "MQTT Heartbeat failed.").goto (.reconnect 0)) else none
  | .reconnect total =>
      some (s.goto (if s.client.state = .broken then .reconnectLock total else .loop))
  | .reconnectLock total =>
      if s.MuxFree then
        if s.client.state ≠ .broken then some (s.goto .loop)
        else s.reopen input.env.toSendEnv total
      else none
  | .connecting total => s.reconnect params input.connect total
  | .waiting total counter =>
      some (s.goto (if s.client.state = .broken ∧ ¬ input.shouldReconnect then
          .waiting (toInt64 (total + s.client.timeoutInMs))
            (toInt32 (counter + s.client.timeoutInMs))
        else .reconnect total))
  | .ended => none

end AsyncSystem

/-! ## The application -/

/-- What `mqtt_async_connect` and `mqtt_async_disconnect` meet: `mqtt_connect`, `_thread_create`,
and the send of the last DISCONNECT. -/
structure MainInput where
  connect : ConnectEnv
  threadCreate : ℤ
  env : SendEnv

namespace AsyncSystem

variable (params : MqttConnectParams) (s : AsyncSystem γ κ)

/-- The first `mqtt_connect`, with the report of what has come of it.  The code has no lock here,
nor needs one: nobody else has the handle before `mqtt_async_connect` returns. -/
def connect (env : ConnectEnv) : Option (AsyncSystem γ κ) :=
  match mqttConnect env params s.nextSock s.history.links with
  | none => none
  | some (.error ret, links) =>
      let s := { s with main := .starting, nextSock := s.nextSock + 1, history.links := links }
      some (s.report .connecting .broken ret "MQTT Client broken.")
  | some (.ok mqtt, links) =>
      let s := { s with
        client.mqtt := some mqtt
        main := .starting
        nextSock := s.nextSock + 1
        history.links := links }
      some (s.report .connecting .connected 0 "MQTT Client connected.")

/-- The last `mqtt_disconnect`. -/
def close (env : SendEnv) : Option (AsyncSystem γ κ) :=
  match s.client.mqtt with
  | none => some { s with main := .delete }
  | some mqtt =>
    match mqttDisconnect env mqtt s.history.links with
    | none => none
    | some (_, links) => some { s with main := .delete, history.links := links }

/-- `mqtt_async_connect` and, once it has returned, one `mqtt_async_disconnect`; a thread that
cannot be created ends in the same one. -/
def mainStep (input : MainInput) : MainPc → Option (AsyncSystem γ κ)
  | .created =>
      some { s.report .created .connecting 0 "MQTT Client created." with main := .connecting }
  | .connecting => s.connect params input.connect
  | .starting =>
      if input.threadCreate ≠ 0 then some { s with main := .disconnect }
      else some { s with main := .running, handler := .starting }
  | .running => some { s with main := .disconnect }
  | .disconnect =>
      if s.MuxFree then
        some { s.report s.client.state .deleting 0 "MQTT Client disconnecting..." with
          main := .join }
      else none
  | .join => if s.handler.alive then none else some { s with main := .close }
  | .close => s.close input.env
  | .delete =>
      some { s.report s.client.state .deleted 0 "MQTT Client disconnected." with main := .deleted }
  | .deleted => none

/-! ## Requests -/

/-- A request up to its tests under the lock: it is turned away, or has the lock. -/
def request (env : RequestEnv) (req : AsyncRequest γ κ) : Option (AsyncSystem γ κ) :=
  if mqttAsyncSameThread s.client env.caller then some s
  else if s.MuxFree then
    if (mqttAsyncConnection s.client).isNone then some s
    else some { s with call := some ⟨env, req, .add⟩ }
  else none

/-- The key of the record that a request asks for. -/
def recordKey (s : AsyncSystem γ κ) (record : Option γ × Option κ) : ℤ × RecordKey γ κ :=
  (s.client.msgIdSeq, ⟨UInt16.ofInt s.client.msgIdSeq, record.1, record.2⟩)

/-- The request at its id and its record… -/
def callAdd (call : AsyncCall γ κ) : Option (AsyncSystem γ κ) :=
  if call.request.record.isSome ∧ s.handler.hasQos then none
  else
    match mqttAsyncAddRecord s.client call.env.now call.request.record with
    | (ret, client) =>
      if ret ≠ 0 then some { s with client, call := none }
      else some { s with
        client
        call := some { call with pc := .send (UInt16.ofInt s.client.msgIdSeq) }
        history.added := (call.request.record.toList.map s.recordKey) ++ s.history.added }

/-- …and at its send, and its report if that fails. -/
def callSend (call : AsyncCall γ κ) (msgId : UInt16) : Option (AsyncSystem γ κ) :=
  match s.client.mqtt with
  | none => none
  | some mqtt =>
    match (call.request.request msgId).run call.env.toSendEnv mqtt with
    | none => none
    | some (ret, mqtt') =>
      some { s.send mqtt mqtt' with client := mqttAsyncSent s.client ret mqtt', call := none }

def callStep (call : AsyncCall γ κ) : Option (AsyncSystem γ κ) :=
  match call.pc with
  | .add => s.callAdd call
  | .send msgId => s.callSend call msgId

end AsyncSystem

/-! ## Steps -/

/-- Who takes the next step. -/
inductive AsyncAction (γ κ : Type)
  | main (input : MainInput)
  | handler (input : HandlerInput)
  /-- A thread makes a request… -/
  | request (env : RequestEnv) (req : AsyncRequest γ κ)
  /-- …and the one that has the lock goes on. -/
  | call

namespace AsyncSystem

def step (params : MqttConnectParams) (s : AsyncSystem γ κ) :
    AsyncAction γ κ → Option (AsyncSystem γ κ)
  | .main input => s.mainStep params input s.main
  | .handler input => s.handlerStep params input s.handler
  | .request env req => s.request env req
  | .call => s.call.bind s.callStep

end AsyncSystem

end Tr50
