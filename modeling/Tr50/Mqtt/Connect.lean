import Tr50.Machinery.Log
import Tr50.Mqtt.Client
import Tr50.Mqtt.Packet

/-!
# Mqtt/Connect — the two ends of a connection

`mqtt_connect` and `mqtt_disconnect` of `src/mqtt/mqtt.c`.  A connection goes by its socket, and
what is done with the sockets is written into a log of `LinkEvent`s, which no code looks at.  The
codes of the socket's connect and of the HTTPS handshake are given from outside; so is what
`mqtt_recv` comes back with.
-/

namespace Tr50

open Machinery

/-! ## Receiving a packet -/

/-- What `mqtt_recv` comes back with: a code, the bytes of the stream it has cost, or a packet at
its time. -/
inductive RecvAnswer
  | failed (ret : ℤ) (hret : ret ≠ 0) (taken : ℕ)
  | packet (data : List UInt8) (hdata : IsPacket data) (now : ℤ)

/-! ## Connecting -/

/-- What is done with a connection. -/
inductive LinkEvent
  /-- `_tcp_connect` or `_tcp_connect_proxy` has returned `0`. -/
  | opened (sock : ℕ)
  /-- A packet is given to `_tcp_send`. -/
  | sent (sock : ℕ) (packet : List UInt8)
  /-- `mqtt_recv` has returned, with a packet or without one. -/
  | received (sock : ℕ) (packet : Option (List UInt8))
  /-- `mqtt_connect` has returned `0`. -/
  | connected (sock : ℕ)
  /-- `_tcp_disconnect` -/
  | closed (sock : ℕ)
  /-- `mqtt_disconnect` has returned. -/
  | disconnected (sock : ℕ)
deriving DecidableEq, Repr

/-- `_MQTT_COONNECT_PARAMS`, as far as the packets depend on it.  `client_id` is an array of 24
characters, and the length of the user name is an `int`. -/
structure MqttConnectParams where
  clientId : List UInt8
  username : Option (List UInt8)
  password : Option (List UInt8)
  keepaliveInSec : UInt16
  useHttpsProxy : Bool
  clientId_lt : clientId.length < 24
  username_lt : (username.getD []).length < 2 ^ 31

/-- The CONNECT of a client. -/
def MqttConnectParams.connect (params : MqttConnectParams) (malloc : Bool) :
    Option (Except ℤ Buffer) :=
  mqttMsgBuildConnect malloc params.clientId params.username params.password params.keepaliveInSec

/-- What one `mqtt_connect` meets: the allocator's answer to the client, the codes of the socket's
connect and of `_mqtt_https_connect`, the send of the CONNECT, and its answer. -/
structure ConnectEnv where
  mallocClient : Bool
  tcpConnect : ℤ
  httpsConnect : ℤ
  send : SendEnv
  answer : RecvAnswer

/-- `mqtt_connect` on the socket `sock`, behind the send of its CONNECT. -/
def mqttConnectAnswer (answer : RecvAnswer) (client : MqttClient) (log : List LinkEvent) :
    Option (Except ℤ MqttClient × List LinkEvent) :=
  match answer with
  | .failed ret _ _ =>
      some (.error ret, .closed client.sock :: .received client.sock none :: log)
  | .packet rsp _ now =>
      let client := { client with lastRecv := now, byteRecv := client.byteRecv + rsp.length }
      let log := .received client.sock (some rsp) :: log
      match mqttMsgProcessConnack rsp with
      | none => none
      | some ret =>
        if ret ≠ 0 then some (.error ret, .closed client.sock :: log)
        else some (.ok client, .connected client.sock :: log)

/-- `mqtt_connect`; its socket, if it gets one, is `sock`. -/
def mqttConnect (env : ConnectEnv) (params : MqttConnectParams) (sock : ℕ) (log : List LinkEvent) :
    Option (Except ℤ MqttClient × List LinkEvent) :=
  if env.mallocClient = false then some (.error errTr50Malloc, log)
  else if env.tcpConnect ≠ 0 then some (.error env.tcpConnect, log)
  else
    let log := .opened sock :: log
    if params.useHttpsProxy ∧ env.httpsConnect ≠ 0 then
      some (.error env.httpsConnect, .closed sock :: log)
    else
      match packetOf (params.connect env.send.malloc) with
      | none => none
      | some (.error ret) => some (.error ret, .closed sock :: log)
      | some (.ok req) =>
        let (ret, client) := mqttSend env.send ⟨sock, 0, 0, 0, []⟩ req
        let log := .sent sock req :: log
        if ret ≠ 0 then some (.error ret, .closed sock :: log)
        else mqttConnectAnswer env.answer client log

/-- `mqtt_disconnect`.  Without memory for its packet it leaves the socket open. -/
def mqttDisconnect (env : SendEnv) (client : MqttClient) (log : List LinkEvent) :
    Option (ℤ × List LinkEvent) :=
  match packetOf (mqttMsgBuildDisconnect env.malloc) with
  | none => none
  | some (.error ret) => some (ret, .disconnected client.sock :: log)
  | some (.ok msg) =>
    let (ret, client) := mqttSend env client msg
    some (ret, .disconnected client.sock :: .closed client.sock :: .sent client.sock msg :: log)

/-! ## What they do -/

theorem mapM_id_eq_some {msg : Buffer} {packet : List UInt8} (h : msg.mapM id = some packet) :
    msg = packet.map some := by
  induction msg generalizing packet with
  | nil =>
    obtain rfl : [] = packet := by simpa using h
    rfl
  | cons c msg ih =>
    rw [List.mapM_cons] at h
    obtain ⟨b, hb, h⟩ := Option.bind_eq_some_iff.mp h
    obtain ⟨rest, hrest, heq⟩ := Option.bind_eq_some_iff.mp h
    obtain rfl := Option.some.inj heq
    rw [ih hrest, List.map_cons, ← hb]
    rfl

/-- A packet is a block that has been written to its end. -/
theorem packetOf_eq_ok {req : Option (Except ℤ Buffer)} {packet : List UInt8}
    (h : packetOf req = some (.ok packet)) : req = some (.ok (packet.map some)) := by
  unfold packetOf at h
  split at h
  · cases h
  · cases h
  · rename_i msg
    obtain ⟨packet', hmap, heq⟩ := Option.map_eq_some_iff.mp h
    obtain rfl := Except.ok.inj heq
    rw [mapM_id_eq_some hmap]

theorem mqttEncodeFixedHeaderLen_pos {l : ℕ} {b b' : Buffer} {i : ℤ} (hi : 0 < i)
    (h : mqttEncodeFixedHeaderLen l b i = some b') : b'[0]? = b[0]? := by
  induction l using Nat.strong_induction_on generalizing b i with
  | _ l ih =>
    rw [mqttEncodeFixedHeaderLen] at h
    split_ifs at h with hl
    · obtain ⟨mid, hmid, hrest⟩ := Option.bind_eq_some_iff.mp h
      rw [ih (l / 128) (by omega) (by omega) hrest, Buffer.store_pos hi hmid]
    · exact Buffer.store_pos hi h

theorem mqttEncodeString_pos {b b' : Buffer} {i : ℤ} {data : List UInt8} {len : UInt16} (hi : 0 < i)
    (h : mqttEncodeString b i data len = some b') : b'[0]? = b[0]? := by
  obtain ⟨mid, hmid, hrest⟩ := Option.bind_eq_some_iff.mp h
  obtain ⟨bytes, -, hrest⟩ := Option.bind_eq_some_iff.mp hrest
  rw [Buffer.memcpy_pos (by omega) hrest, Buffer.memcpy_pos hi hmid]

theorem mqttEncodeOptional_pos {b b' : Buffer} {i : ℤ} {data : Option (List UInt8)} {len : ℤ}
    (hi : 0 < i) (h : mqttEncodeOptional b i data len = some b') : b'[0]? = b[0]? := by
  cases data with
  | none =>
    obtain rfl := Option.some.inj h
    rfl
  | some data => exact mqttEncodeString_pos hi h

/-- A copy into a block begins inside it. -/
theorem mqttEncodeString_nonneg {b b' : Buffer} {i : ℤ} {data : List UInt8} {len : UInt16}
    (h : mqttEncodeString b i data len = some b') : 0 ≤ i := by
  obtain ⟨mid, hmid, -⟩ := Option.bind_eq_some_iff.mp h
  obtain ⟨b₁, hb₁, -⟩ := Option.bind_eq_some_iff.mp hmid
  unfold Buffer.store at hb₁
  split_ifs at hb₁ with hin
  exact hin.1

theorem mqttCalcFheaderLength_cases (n : ℤ) :
    mqttCalcFheaderLength n = -1 ∨ 2 ≤ mqttCalcFheaderLength n := by
  unfold mqttCalcFheaderLength
  split_ifs <;> omega

theorem intStrlen_nonneg {s : List UInt8} (h : s.length < 2 ^ 31) : 0 ≤ intStrlen s := by
  have hle : strlen s ≤ s.length := (List.takeWhile_sublist _).length_le
  rw [intStrlen, toInt32_of_lt (by omega)]
  omega

theorem optionalLen_nonneg {data : Option (List UInt8)} (h : (data.getD []).length < 2 ^ 31) :
    0 ≤ optionalLen data (intStrlen (data.getD [])) := by
  have := intStrlen_nonneg h
  unfold optionalLen
  split_ifs <;> omega

/-- **A CONNECT begins with its type.** -/
theorem MqttConnectParams.connect_head {params : MqttConnectParams} {malloc : Bool}
    {req : List UInt8} (h : packetOf (params.connect malloc) = some (.ok req)) :
    req.head? = some mqttMsgTypeConnect := by
  have hbuild := packetOf_eq_ok h
  have hclient := intStrlen_nonneg (s := params.clientId) (by have := params.clientId_lt; omega)
  have huser := optionalLen_nonneg params.username_lt
  simp only [connect, mqttMsgBuildConnect, Option.bind_eq_bind, Option.bind_eq_some_iff] at hbuild
  obtain ⟨r, -, t, -, hbuild⟩ := hbuild
  split at hbuild
  · simp at hbuild
  obtain ⟨m₁, h₁, hbuild⟩ := Option.bind_eq_some_iff.mp hbuild
  obtain ⟨m₂, h₂, hbuild⟩ := Option.bind_eq_some_iff.mp hbuild
  obtain ⟨m₃, h₃, hbuild⟩ := Option.bind_eq_some_iff.mp hbuild
  obtain ⟨m₄, h₄, hbuild⟩ := Option.bind_eq_some_iff.mp hbuild
  obtain ⟨m₅, h₅, hbuild⟩ := Option.bind_eq_some_iff.mp hbuild
  obtain ⟨m₆, h₆, hbuild⟩ := Option.bind_eq_some_iff.mp hbuild
  obtain ⟨m₇, h₇, hbuild⟩ := Option.bind_eq_some_iff.mp hbuild
  obtain ⟨m₈, h₈, hbuild⟩ := Option.bind_eq_some_iff.mp hbuild
  obtain ⟨m₉, h₉, hbuild⟩ := Option.bind_eq_some_iff.mp hbuild
  have heq := Except.ok.inj (Option.some.inj hbuild)
  -- the copies all lie behind the fixed header
  have hfixed : 2 ≤ mqttCalcFheaderLength r :=
    (mqttCalcFheaderLength_cases r).resolve_left fun h => by
      have := mqttEncodeString_nonneg h₃
      omega
  have hname : (mqttConnProtocolNameLen.toNat : ℤ) = 6 := by decide
  have hzero : (req.map some)[0]? = some (some mqttMsgTypeConnect) := by
    rw [← heq, mqttEncodeOptional_pos (by omega) h₉, mqttEncodeOptional_pos (by omega) h₈,
      mqttEncodeString_pos (by omega) h₇, Buffer.memcpy_pos (by omega) h₆,
      Buffer.store_pos (by omega) h₅, Buffer.store_pos (by omega) h₄,
      mqttEncodeString_pos (by omega) h₃, mqttEncodeFixedHeaderLen_pos (by omega) h₂,
      Buffer.store_zero h₁]
    rfl
  cases req with
  | nil => cases hzero
  | cons b req => exact Option.some.inj hzero

/-- What a call of `mqtt_connect` does. -/
inductive ConnectOutcome (answer : RecvAnswer) (sock : ℕ) (log : List LinkEvent) :
    Except ℤ MqttClient → List LinkEvent → Prop
  | unopened (ret : ℤ) : ConnectOutcome answer sock log (.error ret) log
  | unsent (ret : ℤ) :
      ConnectOutcome answer sock log (.error ret) (.closed sock :: .opened sock :: log)
  | refused (ret : ℤ) {req : List UInt8} (hreq : req.head? = some mqttMsgTypeConnect)
      (rsp : Option (List UInt8)) :
      ConnectOutcome answer sock log (.error ret)
        (.closed sock :: .received sock rsp :: .sent sock req :: .opened sock :: log)
  | accepted (client : MqttClient) (hsock : client.sock = sock) {req rsp : List UInt8}
      (hreq : req.head? = some mqttMsgTypeConnect) {hrsp : IsPacket rsp} {now : ℤ}
      (hanswer : answer = .packet rsp hrsp now) (hconnack : mqttMsgProcessConnack rsp = some 0) :
      ConnectOutcome answer sock log (.ok client)
        (.connected sock :: .received sock (some rsp) :: .sent sock req :: .opened sock :: log)

/-- Behind the send of its CONNECT a connection is accepted or closed. -/
theorem mqttConnectAnswer_outcome {answer : RecvAnswer} {client : MqttClient}
    {log log' : List LinkEvent} {req : List UInt8} {result : Except ℤ MqttClient}
    (hreq : req.head? = some mqttMsgTypeConnect)
    (h : mqttConnectAnswer answer client (.sent client.sock req :: .opened client.sock :: log)
      = some (result, log')) :
    ConnectOutcome answer client.sock log result log' := by
  unfold mqttConnectAnswer at h
  cases answer with
  | failed ret hret taken =>
    obtain ⟨rfl, rfl⟩ := Prod.mk.inj (Option.some.inj h)
    exact .refused ret hreq none
  | packet rsp hrsp now =>
    cases hconnack : mqttMsgProcessConnack rsp with
    | none => simp [hconnack] at h
    | some ret =>
      simp only [hconnack] at h
      split_ifs at h with hret
      · obtain ⟨rfl, rfl⟩ := Prod.mk.inj (Option.some.inj h)
        exact .refused ret hreq (some rsp)
      · obtain ⟨rfl, rfl⟩ := Prod.mk.inj (Option.some.inj h)
        exact .accepted _ (by rfl) hreq rfl (by rw [hconnack, not_not.mp hret])

/-- A send keeps its socket. -/
theorem mqttSend_sock (env : SendEnv) (client : MqttClient) (buf : List UInt8) :
    (mqttSend env client buf).2.sock = client.sock := by
  unfold mqttSend
  split_ifs <;> rfl

/-- **A connection is made once its CONNACK has been accepted**, and closed if it is not. -/
theorem mqttConnect_outcome {env : ConnectEnv} {params : MqttConnectParams} {sock : ℕ}
    {log log' : List LinkEvent} {result : Except ℤ MqttClient}
    (h : mqttConnect env params sock log = some (result, log')) :
    ConnectOutcome env.answer sock log result log' := by
  unfold mqttConnect at h
  generalize hbuild : packetOf (params.connect env.send.malloc) = built at h
  split_ifs at h with hmalloc htcp hproxy
  · obtain ⟨rfl, rfl⟩ := Prod.mk.inj (Option.some.inj h)
    exact .unopened _
  · obtain ⟨rfl, rfl⟩ := Prod.mk.inj (Option.some.inj h)
    exact .unopened _
  · obtain ⟨rfl, rfl⟩ := Prod.mk.inj (Option.some.inj h)
    exact .unsent _
  split at h
  · cases h
  · obtain ⟨rfl, rfl⟩ := Prod.mk.inj (Option.some.inj h)
    exact .unsent _
  · rename_i req
    have hsock := mqttSend_sock env.send ⟨sock, 0, 0, 0, []⟩ req
    change mqttConnectAnswer env.answer (mqttSend env.send ⟨sock, 0, 0, 0, []⟩ req).2
      (.sent sock req :: .opened sock :: log) = some (result, log') at h
    generalize (mqttSend env.send ⟨sock, 0, 0, 0, []⟩ req).2 = client at h hsock
    subst hsock
    exact mqttConnectAnswer_outcome (MqttConnectParams.connect_head hbuild) h

/-- **A connection that is given up is closed**, where there is memory for its DISCONNECT. -/
theorem mqttDisconnect_granted {env : SendEnv} (hmalloc : env.malloc) (client : MqttClient)
    (log : List LinkEvent) :
    mqttDisconnect env client log = some (0, .disconnected client.sock :: .closed client.sock
      :: .sent client.sock [mqttMsgTypeDisconnect, 0] :: log) := by
  have hbuild : packetOf (mqttMsgBuildDisconnect true) = some (.ok [mqttMsgTypeDisconnect, 0]) := by
    decide +kernel
  unfold mqttDisconnect
  rw [hmalloc, hbuild]
  simp only [mqttSend]
  split_ifs <;> rfl

theorem mqttDisconnect_refused {env : SendEnv} (hmalloc : env.malloc = false) (client : MqttClient)
    (log : List LinkEvent) :
    mqttDisconnect env client log = some (errTr50Malloc, .disconnected client.sock :: log) := by
  have hbuild : packetOf (mqttMsgBuildDisconnect false) = some (.error errTr50Malloc) := by
    decide +kernel
  unfold mqttDisconnect
  rw [hmalloc, hbuild]

end Tr50
