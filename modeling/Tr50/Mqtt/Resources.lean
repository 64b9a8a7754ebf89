import Tr50.Machinery.Chunked
import Tr50.Mqtt.Build
import Tr50.Mqtt.Connect
import Tr50.Mqtt.Traced
import Tr50.Util.Json

/-!
# Mqtt/Resources — what `mqtt_connect` holds, and what it gives back

`mqtt_connect` acquires up to four things — the client, its socket, the CONNECT and the buffer of
the answer — and all its failures meet at one label.  `mqttConnectTraced` is the call with the log
of what it acquires and releases, down to the bytes of the HTTPS handshake and of the answer; what
it returns is what `mqttConnect` returns (`mqttConnectTraced_mqttConnect`).

Everything acquired is released, with one exception: a `realloc` inside `mqtt_recv` that is refused
(`GrowthRefused`) loses the buffer it was to move.
-/

namespace Tr50

open Machinery

/-! ## The buffer of a receive call -/

/-- The header, or the body behind it, does not fit into the buffer, and there is no memory for a
larger one. -/
inductive GrowthRefused (env : RecvEnv) (script : List TcpRecv) (stream : List UInt8) : Prop
  | header {k : ℕ} {vs : List UInt8} {script' : List TcpRecv} {rest : List UInt8}
      (reached : HeaderReached env script stream k vs script' rest) (sofar : HeaderSoFar vs)
      (time : 0 ≤ env.slack k) (room : ¬ env.Grants vs.length (headerReadLen vs))
  | body {k : ℕ} {b0 : UInt8} {f : List UInt8} {v : ℕ} {script' : List TcpRecv}
      {rest : List UInt8} (reached : HeaderReached env script stream k (b0 :: f) script' rest)
      (field : IsLengthField f v) (digits : f.length ≤ 4)
      (room : ¬ env.Grants (b0 :: f).length v)

section Recv

variable {env : RecvEnv} {script₀ script : List TcpRecv} {stream₀ rest vs : List UInt8} {k : ℕ}
  {byteRecv : ℤ} {α : Type} [DecidableEq α] {f : ℕ → α}

/-- The events before a place leave the current block, and so does whatever leaves it there. -/
theorem HeaderPrefix.leaves {events : List RecvEvent} (hf : Function.Injective f)
    (hfront : HeaderPrefix env script₀ stream₀ byteRecv k vs script rest events) :
    Own.Leaves (f (headerAllocs vs.length))
      ((RecvEvent.alloc 1 :: events).filterMap (RecvEvent.own f)) :=
  (hfront.moves f).leaves hf

/-- …also where room has been made there. -/
theorem HeaderPrefix.leaves_growth {events : List RecvEvent} (hf : Function.Injective f)
    (hfront : HeaderPrefix env script₀ stream₀ byteRecv k vs script rest events) (len : ℕ) :
    Own.Leaves (f (grownAllocs vs.length len))
      ((RecvEvent.alloc 1 :: (events ++ growth vs.length len)).filterMap (RecvEvent.own f)) := by
  have hmoved := (relay_growth (hfront.moves f) len).leaves hf
  rw [← List.filterMap_append] at hmoved
  exact hmoved

/-- **A resize that is refused loses the block.** -/
theorem GrowthRefused.leaves (hf : Function.Injective f) (h : GrowthRefused env script₀ stream₀)
    (byteRecv : ℤ) :
    ∃ r events a, mqttRecvTraced env script₀ stream₀ byteRecv = ⟨.returned r, events, none⟩
      ∧ r.ret ≠ 0 ∧ Own.Leaves (f a) (events.filterMap (RecvEvent.own f)) := by
  cases h with
  | @header k vs script' rest reached sofar time room =>
    obtain ⟨events, hfront⟩ := reached.traced byteRecv
    have hcall := hfront.call_sofar reached sofar
    rw [reached.traced_refused byteRecv time room, LoopTrace.after, List.append_nil] at hcall
    exact ⟨_, _, headerAllocs vs.length, hcall, (by decide : errTr50Malloc ≠ 0), hfront.leaves hf⟩
  | @body k b0 digits v script' rest reached field h4 room =>
    obtain ⟨events, hfront⟩ := reached.traced byteRecv
    have hcall := hfront.call_complete reached field
    simp only [callTrace, rest_refused field h4 room, List.append_nil] at hcall
    exact ⟨_, _, headerAllocs (b0 :: digits).length, hcall, (by decide : errTr50Malloc ≠ 0),
      hfront.leaves hf⟩

/-- What a call that returns has done with its block: freed it, or handed it out. -/
inductive RecvOwned (f : ℕ → α) (r : RecvReturn) (events : List RecvEvent) : Option ℕ → Prop
  | failed (hret : r.ret ≠ 0) (clean : Own.Clean (events.filterMap (RecvEvent.own f))) :
      RecvOwned f r events none
  | packet {a : ℕ} (hret : r.ret = 0)
      (leaves : Own.Leaves (f a) (events.filterMap (RecvEvent.own f))) :
      RecvOwned f r events (some a)

/-- A block that is freed last is settled with all the others. -/
theorem clean_of_leaves {a : ℕ} {events : List RecvEvent}
    (h : Own.Leaves (f a) (events.filterMap (RecvEvent.own f))) :
    Own.Clean ((events ++ [RecvEvent.free a]).filterMap (RecvEvent.own f)) := by
  rw [List.filterMap_append]
  exact h.release

/-- What the body does to the block. -/
theorem bodyTrace_owned {b0 : UInt8} {digits : List UInt8} {v : ℕ} {events : List RecvEvent}
    (hf : Function.Injective f)
    (hfront : HeaderPrefix env script₀ stream₀ byteRecv k (b0 :: digits) script rest events)
    {r : RecvReturn} {waitTime : ℤ} {trace : RecvTrace}
    (htrace : trace = bodyTrace env (growth (b0 :: digits).length v) (mqttRecvBodyTraced waitTime
      script (bodyAt env k (b0 :: digits) rest byteRecv v) v))
    (hret : trace.result = .returned r) :
    RecvOwned f r (.alloc 1 :: events ++ trace.events) trace.block := by
  have hleaves := hfront.leaves_growth hf v
  obtain ⟨hexit, hdone⟩ := @own_mqttRecvBodyTraced α f waitTime script
    (bodyAt env k (b0 :: digits) rest byteRecv v) v
  generalize mqttRecvBodyTraced waitTime script (bodyAt env k (b0 :: digits) rest byteRecv v) v
    = body at htrace hexit hdone
  obtain ⟨loop, bodyEvents⟩ := body
  subst htrace
  have hlog : (RecvEvent.alloc 1 :: events
      ++ (growth (b0 :: digits).length v ++ bodyEvents)).filterMap (RecvEvent.own f)
      = (RecvEvent.alloc 1 :: (events ++ growth (b0 :: digits).length v)).filterMap
          (RecvEvent.own f) ++ bodyEvents.filterMap (RecvEvent.own f) := by
    rw [← List.filterMap_append, List.cons_append, List.cons_append, List.append_assoc]
  cases loop with
  | exit r' =>
    obtain rfl : r' = .returned r := hret
    obtain ⟨hneg, hfree⟩ := hexit r rfl
    refine .failed hneg.ne ?_
    have hclean := hleaves.release
    rwa [show f (grownAllocs (b0 :: digits).length v)
      = f (bodyAt env k (b0 :: digits) rest byteRecv v).allocs from rfl, ← hfree, ← hlog] at hclean
  | done st script' =>
    obtain rfl := RecvResult.returned.inj hret
    obtain ⟨hallocs, hfree⟩ := hdone st script' rfl
    refine .packet rfl ?_
    rw [show (bodyTrace env (growth (b0 :: digits).length v) ⟨.done st script', bodyEvents⟩).events
      = growth (b0 :: digits).length v ++ bodyEvents from rfl, hlog, hfree, List.append_nil,
      hallocs]
    exact hleaves

/-- **A call that returns has freed every block, or hands out the last**, unless a resize has been
refused. -/
theorem mqttRecvTraced_owned (hf : Function.Injective f)
    (hgrowth : ¬ GrowthRefused env script₀ stream₀) {r : RecvReturn}
    (hret : (mqttRecvTraced env script₀ stream₀ byteRecv).result = .returned r) :
    RecvOwned f r (mqttRecvTraced env script₀ stream₀ byteRecv).events
      (mqttRecvTraced env script₀ stream₀ byteRecv).block := by
  by_cases hmalloc : env.malloc 0
  swap
  · rw [mqttRecvTraced_refused hmalloc] at hret ⊢
    obtain rfl := RecvResult.returned.inj hret
    exact .failed (by decide : errTr50Malloc ≠ 0) Own.clean_nil
  obtain ⟨k, vs, script, rest, h, hend⟩ :=
    (@HeaderReached.start env script₀ stream₀ hmalloc).exists_end
  obtain ⟨events, hfront⟩ := h.traced byteRecv
  cases hend with
  | late sofar time =>
    rw [hfront.call_sofar h sofar, h.traced_late byteRecv time] at hret ⊢
    obtain rfl := RecvResult.returned.inj hret
    exact .failed (by decide : errTr50Timeout ≠ 0) (clean_of_leaves (hfront.leaves hf))
  | refused sofar time room => exact absurd (.header h sofar time room) hgrowth
  | waiting sofar time room none =>
    rw [hfront.call_sofar h sofar, h.traced_waiting byteRecv time room none] at hret
    cases hret
  | @failed sofar time room e he script' hscript =>
    subst hscript
    rw [hfront.call_sofar h sofar, h.traced_failed byteRecv time room] at hret ⊢
    obtain rfl := RecvResult.returned.inj hret
    refine .failed he.ne ?_
    have hclean := clean_of_leaves (hfront.leaves_growth hf (headerReadLen vs))
    have hlog : (RecvEvent.alloc 1 :: (events ++ (roundEvents env k vs
        ++ [.free (grownAllocs vs.length (headerReadLen vs))]))).filterMap (RecvEvent.own f)
        = (RecvEvent.alloc 1 :: (events ++ growth vs.length (headerReadLen vs))
          ++ [RecvEvent.free (grownAllocs vs.length (headerReadLen vs))]).filterMap
            (RecvEvent.own f) := by
      simp only [List.filterMap_cons, List.filterMap_append, List.cons_append,
        filterMap_roundEvents, List.append_assoc]
    exact hlog ▸ hclean
  | @complete b0 digits v hvs field =>
    subst hvs
    rw [hfront.call_complete h field] at hret ⊢
    by_cases h4 : digits.length ≤ 4
    swap
    · simp only [callTrace, rest_malformed field (by omega : 4 < digits.length)] at hret ⊢
      obtain rfl := RecvResult.returned.inj hret
      exact .failed (by decide : errTr50MqttRecvDecodeHdrLen ≠ 0)
        (clean_of_leaves (hfront.leaves hf))
    by_cases room : env.Grants (b0 :: digits).length v
    swap
    · exact absurd (.body h field h4 room) hgrowth
    exact bodyTrace_owned hf hfront (h.rest_granted field h4 room byteRecv) hret

end Recv

/-! ## The call -/

/-- What `mqtt_connect` acquires. -/
inductive ConnectResource
  | client
  | socket
  | request
  /-- A buffer of `mqtt_recv`, the last of which is the answer. -/
  | reply (block : ℕ)
deriving DecidableEq, Repr

/-- What one `mqtt_connect` meets: the allocator's answer to the client, the code of
`_tcp_connect`, the code of the send of the HTTPS request, the send of the CONNECT, and what
`mqtt_recv` meets.  The handshake reads from the same socket. -/
structure ConnectCall where
  mallocClient : Bool
  tcpConnect : ℤ
  httpsSend : ℤ
  send : SendEnv
  malloc : ℕ → Bool
  clock : ℕ → ℤ
  script : List TcpRecv
  stream : List UInt8

/-- `mqtt_connect` gives `mqtt_recv` five seconds. -/
def ConnectCall.recvEnv (call : ConnectCall) : RecvEnv := ⟨call.malloc, call.clock, 5000⟩

/-- The handshake is over, with what is left of the outcomes and of the stream. -/
inductive HttpsResult
  | passed (script : List TcpRecv) (stream : List UInt8)
  | failed (ret : ℤ)
  /-- Inside `_tcp_recv`. -/
  | waiting
deriving DecidableEq

/-- What `_mqtt_https_connect` wants to read, as far as the first NUL. -/
def httpsAccepted (reply : List UInt8) : Bool :=
  let reply := reply.takeWhile (· ≠ 0)
  hasPrefix "HTTP/1.1 200 OK".toList reply && reply.drop (reply.length - 4) = crlf ++ crlf

/-- The reply loop of `_mqtt_https_connect`: one byte a read, up to four line ends in a row or 255
bytes. -/
def mqttHttpsReply : List TcpRecv → List UInt8 → List UInt8 → ℕ → HttpsResult
  | script, stream, reply, termChar =>
    if reply.length < 255 then
      match script with
      | [] => .waiting
      | .failed e _ :: _ => .failed e
      | .piece _ :: script =>
        match stream with
        | [] => .waiting
        | buf :: stream =>
          let termChar := if isLineEnd buf then termChar + 1 else 0
          if termChar ≥ 4 then
            if httpsAccepted (reply ++ [buf]) then .passed script stream
            else .failed errTr50HttpProxyFailed
          else mqttHttpsReply script stream (reply ++ [buf]) termChar
    else if httpsAccepted reply then .passed script stream
    else .failed errTr50HttpProxyFailed

/-- `_mqtt_https_connect`, where it is called. -/
def ConnectCall.https (call : ConnectCall) (params : MqttConnectParams) : HttpsResult :=
  if params.useHttpsProxy then
    if call.httpsSend ≠ 0 then .failed call.httpsSend
    else mqttHttpsReply call.script call.stream [] 0
  else .passed call.script call.stream

/-- `mqtt_connect` returns with a code, with what `*mqtt_handle` then is, and with its log. -/
inductive ConnectResult
  | returned (ret : ℤ) (handle : Option MqttClient) (log : List (Own ConnectResource))
  | waiting
  | fault

/-- What the locals of `mqtt_connect` point at. -/
structure ConnectLocals where
  sock : Bool
  req : Bool
  rsp : Option ℕ

/-- `end_error` -/
def mqttConnectError (ret : ℤ) (locals : ConnectLocals) (handle : Option MqttClient)
    (log : List (Own ConnectResource)) : ConnectResult :=
  let log := if locals.req then log ++ [.release .request] else log
  let log := log ++ (locals.rsp.toList.map fun block => .release (.reply block))
  let log := if ret ≠ 0 ∧ locals.sock then log ++ [.release .socket] else log
  .returned ret handle (log ++ [.release .client])

/-- `mqtt_connect` behind its `mqtt_recv`. -/
def mqttConnectReply (client : MqttClient) (recv : RecvTrace) (handle : Option MqttClient)
    (log : List (Own ConnectResource)) : ConnectResult :=
  let log := log ++ recv.events.filterMap (RecvEvent.own .reply)
  match recv.result with
  | .waiting => .waiting
  | .fault => .fault
  | .returned r =>
    let client := { client with
      byteRecv := r.byteRecv, lastRecv := r.lastRecv.getD client.lastRecv }
    if r.ret ≠ 0 then mqttConnectError r.ret ⟨true, true, none⟩ handle log
    else
      match (r.data.take r.len).mapM id with
      | none => .fault
      | some rsp =>
        match mqttMsgProcessConnack rsp with
        | none => .fault
        | some ret =>
          if ret ≠ 0 then mqttConnectError ret ⟨true, true, recv.block⟩ handle log
          else
            let log := log ++ [.release .request]
            let log := log ++ (recv.block.toList.map fun block => .release (.reply block))
            .returned 0 (some client) log

/-- `mqtt_connect` behind its handshake, with what `_mqtt_msg_build_connect` comes to. -/
def mqttConnectRequest (call : ConnectCall) (sock : ℕ) (handle : Option MqttClient)
    (script : List TcpRecv) (stream : List UInt8) (built : Option (Except ℤ (List UInt8)))
    (log : List (Own ConnectResource)) : ConnectResult :=
  match built with
  | none => .fault
  | some (.error ret) => mqttConnectError ret ⟨true, false, none⟩ handle log
  | some (.ok req) =>
    let log := log ++ [.acquire .request]
    let (ret, client) := mqttSend call.send ⟨sock, 0, 0, 0, []⟩ req
    if ret ≠ 0 then mqttConnectError ret ⟨true, true, none⟩ handle log
    else
      let recv := mqttRecvTraced call.recvEnv script stream client.byteRecv
      mqttConnectReply client recv handle log

/-- `mqtt_connect`, without a proxy; its socket, if it gets one, is `sock`. -/
def mqttConnectTraced (call : ConnectCall) (params : MqttConnectParams) (sock : ℕ)
    (handle : Option MqttClient) : ConnectResult :=
  if call.mallocClient = false then .returned errTr50Malloc handle []
  else
    let log := [.acquire .client]
    if call.tcpConnect ≠ 0 then mqttConnectError call.tcpConnect ⟨false, false, none⟩ handle log
    else
      let log := log ++ [.acquire .socket]
      match call.https params with
      | .waiting => .waiting
      | .failed ret => mqttConnectError ret ⟨true, false, none⟩ handle log
      | .passed script stream =>
        let built := packetOf (params.connect call.send.malloc)
        mqttConnectRequest call sock handle script stream built log

/-! ## What it gives back -/

/-- `mqtt_recv` is reached, with this much of the outcomes and of the stream before it. -/
structure ConnectCall.Receives (call : ConnectCall) (params : MqttConnectParams)
    (script : List TcpRecv) (stream : List UInt8) : Prop where
  client : call.mallocClient = true
  socket : call.tcpConnect = 0
  handshake : call.https params = .passed script stream
  request : ∃ req, packetOf (params.connect call.send.malloc) = some (.ok req)

/-- `mqtt_recv` is reached, and there a resize of its buffer is refused. -/
def ConnectCall.GrowthRefused (call : ConnectCall) (params : MqttConnectParams) : Prop :=
  ∃ script stream, call.Receives params script stream
    ∧ Tr50.GrowthRefused call.recvEnv script stream

/-- The connection is made: the handle is a client whose socket is open, its CONNACK has been
accepted, and everything else is settled. -/
structure ConnectMade (call : ConnectCall) (params : MqttConnectParams) (sock : ℕ)
    (handle : Option MqttClient) (log : List (Own ConnectResource)) : Prop where
  handle : ∃ client, handle = some client ∧ client.sock = sock
  client : Own.Held .client log
  socket : Own.Held .socket log
  accepted : ∃ script stream r data, call.Receives params script stream
    ∧ mqttRecv call.recvEnv script stream 0 = .returned r ∧ r.ret = 0
    ∧ r.data.take r.len = data.map some ∧ mqttMsgProcessConnack data = some 0
  others : ∀ r, r ≠ .client → r ≠ .socket → Own.history r log = [] ∨ Own.Settled r log

/-- What is asked of an outcome of `mqtt_connect`, called with `*mqtt_handle` at `handle`. -/
structure ConnectKept (call : ConnectCall) (params : MqttConnectParams) (sock : ℕ)
    (handle : Option MqttClient) (ret : ℤ) (handle' : Option MqttClient)
    (log : List (Own ConnectResource)) : Prop where
  made : ret = 0 → ConnectMade call params sock handle' log
  released : ret ≠ 0 → handle' = handle ∧ Own.Clean log

/-- A buffer of `mqtt_recv` is nothing else. -/
theorem history_recv {events : List RecvEvent} {r : ConnectResource} (hr : ∀ b, .reply b ≠ r) :
    Own.history r (events.filterMap (RecvEvent.own .reply)) = [] := by
  rw [Own.history, List.filter_eq_nil_iff]
  intro e he
  obtain ⟨ev, -, hev⟩ := List.mem_filterMap.mp he
  cases ev with
  | alloc b =>
    obtain rfl := Option.some.inj hev
    exact fun h => hr b (of_decide_eq_true h)
  | free b =>
    obtain rfl := Option.some.inj hev
    exact fun h => hr b (of_decide_eq_true h)
  | recv t => cases hev

/-- What `mqtt_connect` has done before its `mqtt_recv`. -/
def connectOpening : List (Own ConnectResource) :=
  [.acquire .client, .acquire .socket, .acquire .request]

section Outcome

variable {call : ConnectCall} {params : MqttConnectParams} {sock : ℕ}
  {handle handle' : Option MqttClient} {ret : ℤ} {log : List (Own ConnectResource)}

/-- **The outcomes of `mqtt_connect`**: it fails before its `mqtt_recv` and has released what it
has, or it is where that is. -/
inductive ConnectPath (call : ConnectCall) (params : MqttConnectParams) (sock : ℕ)
    (handle : Option MqttClient) (ret : ℤ) (handle' : Option MqttClient)
    (log : List (Own ConnectResource)) : Prop
  | early (hret : ret ≠ 0) (hhandle : handle' = handle) (clean : Own.Clean log)
      (hno : ∀ script stream, ¬ call.Receives params script stream)
  | replied {script : List TcpRecv} {stream : List UInt8} {client : MqttClient}
      (receives : call.Receives params script stream) (hsock : client.sock = sock)
      (hreply : mqttConnectReply client (mqttRecvTraced call.recvEnv script stream 0) handle
        connectOpening = .returned ret handle' log)

/-- What `end_error` releases. -/
def ConnectLocals.releases (locals : ConnectLocals) : List (Own ConnectResource) :=
  (if locals.req then [.release .request] else [])
    ++ (locals.rsp.toList.map fun block => .release (.reply block))
    ++ (if locals.sock then [.release .socket] else []) ++ [.release .client]

theorem mqttConnectError_returned (hret : ret ≠ 0) (locals : ConnectLocals) :
    mqttConnectError ret locals handle log = .returned ret handle (log ++ locals.releases) := by
  obtain ⟨sock, req, rsp⟩ := locals
  cases sock <;> cases req <;> simp [mqttConnectError, ConnectLocals.releases, hret]

/-- A handshake that fails has a code. -/
theorem mqttHttpsReply_failed {script : List TcpRecv} {e : ℤ} :
    ∀ {stream reply : List UInt8} {termChar : ℕ},
      mqttHttpsReply script stream reply termChar = .failed e → e ≠ 0 := by
  have hrefused : errTr50HttpProxyFailed ≠ 0 := by decide
  induction script with
  | nil =>
    intro stream reply termChar h
    rw [mqttHttpsReply] at h
    split_ifs at h
    obtain rfl := HttpsResult.failed.inj h
    exact hrefused
  | cons ev script ih =>
    intro stream reply termChar h
    rw [mqttHttpsReply.eq_def] at h
    dsimp only at h
    by_cases hlen : reply.length < 255
    swap
    · rw [if_neg hlen] at h
      split_ifs at h
      obtain rfl := HttpsResult.failed.inj h
      exact hrefused
    rw [if_pos hlen] at h
    cases ev with
    | failed e' he =>
      obtain rfl := HttpsResult.failed.inj h
      exact he.ne
    | piece n =>
      cases stream with
      | nil => cases h
      | cons buf stream =>
        dsimp only at h
        by_cases hterm : (if isLineEnd buf then termChar + 1 else 0) ≥ 4
        · rw [if_pos hterm] at h
          split_ifs at h
          obtain rfl := HttpsResult.failed.inj h
          exact hrefused
        · rw [if_neg hterm] at h
          exact ih h

theorem ConnectCall.https_failed (h : call.https params = .failed ret) : ret ≠ 0 := by
  unfold ConnectCall.https at h
  split_ifs at h with hproxy hsend
  · obtain rfl := HttpsResult.failed.inj h
    exact hsend
  · exact mqttHttpsReply_failed h

/-- …and so does a builder. -/
theorem MqttConnectParams.connect_error {malloc : Bool} {e : ℤ}
    (h : packetOf (params.connect malloc) = some (.error e)) : e ≠ 0 := by
  obtain ⟨n, t, -, -, -, rfl⟩ := mqttMsgBuildConnect_error_iff.mp (packetOf_eq_error h)
  decide

/-- **The outcomes of `mqtt_connect`** behind its handshake… -/
theorem mqttConnectRequest_path {script : List TcpRecv} {stream : List UInt8}
    {built : Option (Except ℤ (List UInt8))}
    (hclient : call.mallocClient = true) (htcp : call.tcpConnect = 0)
    (hhttps : call.https params = .passed script stream)
    (hbuild : packetOf (params.connect call.send.malloc) = built)
    (h : mqttConnectRequest call sock handle script stream built
      [.acquire .client, .acquire .socket] = .returned ret handle' log) :
    ConnectPath call params sock handle ret handle' log := by
  unfold mqttConnectRequest at h
  cases built with
  | none => cases h
  | some built =>
    cases built with
    | error e =>
      have he : e ≠ 0 := MqttConnectParams.connect_error hbuild
      simp only [mqttConnectError_returned he] at h
      obtain ⟨rfl, rfl, rfl⟩ := ConnectResult.returned.inj h
      refine .early he rfl (fun r => ?_) fun _ _ hr => ?_
      · cases r <;> simp [Own.Settled, ConnectLocals.releases]
      · obtain ⟨req, hreq⟩ := hr.request
        cases hbuild.symm.trans hreq
    | ok req =>
      obtain ⟨client, hsend, hsock, hbytes⟩ : ∃ client,
          mqttSend call.send ⟨sock, 0, 0, 0, []⟩ req = (0, client) ∧ client.sock = sock
          ∧ client.byteRecv = 0 := by
        refine ⟨_, rfl, mqttSend_sock call.send ⟨sock, 0, 0, 0, []⟩ req, ?_⟩
        split_ifs <;> rfl
      simp only [hsend, ne_eq, not_true_eq_false, if_false, hbytes] at h
      exact .replied ⟨hclient, htcp, hhttps, req, hbuild⟩ hsock h

/-- …and from its start. -/
theorem mqttConnectTraced_path
    (h : mqttConnectTraced call params sock handle = .returned ret handle' log) :
    ConnectPath call params sock handle ret handle' log := by
  unfold mqttConnectTraced at h
  by_cases hclient : call.mallocClient = false
  · rw [if_pos hclient] at h
    obtain ⟨rfl, rfl, rfl⟩ := ConnectResult.returned.inj h
    exact .early (by decide) rfl Own.clean_nil fun _ _ hr => by simp [hr.client] at hclient
  rw [if_neg hclient] at h
  by_cases htcp : call.tcpConnect ≠ 0
  · simp only [if_pos htcp, mqttConnectError_returned htcp] at h
    obtain ⟨rfl, rfl, rfl⟩ := ConnectResult.returned.inj h
    refine .early htcp rfl (fun r => ?_) fun _ _ hr => htcp hr.socket
    cases r <;> simp [Own.Settled, ConnectLocals.releases]
  simp only [if_neg htcp] at h
  cases hhttps : call.https params with
  | waiting => simp [hhttps] at h
  | failed e =>
    have he := call.https_failed hhttps
    simp only [hhttps, mqttConnectError_returned he] at h
    obtain ⟨rfl, rfl, rfl⟩ := ConnectResult.returned.inj h
    refine .early he rfl (fun r => ?_) fun _ _ hr => by simp [hr.handshake] at hhttps
    cases r <;> simp [Own.Settled, ConnectLocals.releases]
  | passed script stream =>
    simp only [hhttps] at h
    exact mqttConnectRequest_path (by simpa using hclient) (not_not.mp htcp) hhttps rfl h

/-- **What `mqtt_connect` has acquired it releases**, if nothing is left of the receive. -/
theorem clean_connect {recvLog : List (Own ConnectResource)} {rsp : Option ℕ}
    (hrecv : ∀ r, (∀ b, .reply b ≠ r) → Own.history r recvLog = [])
    (hclean : Own.Clean (recvLog ++ rsp.toList.map fun block => .release (.reply block))) :
    Own.Clean (connectOpening ++ recvLog ++ ConnectLocals.releases ⟨true, true, rsp⟩) := by
  intro r
  have hreply := hclean r
  cases r with
  | client =>
    have hnil := hrecv .client (by simp)
    cases rsp <;> simp [Own.Settled, connectOpening, ConnectLocals.releases, hnil]
  | socket =>
    have hnil := hrecv .socket (by simp)
    cases rsp <;> simp [Own.Settled, connectOpening, ConnectLocals.releases, hnil]
  | request =>
    have hnil := hrecv .request (by simp)
    cases rsp <;> simp [Own.Settled, connectOpening, ConnectLocals.releases, hnil]
  | reply b =>
    cases rsp <;> simpa [Own.Settled, connectOpening, ConnectLocals.releases] using hreply

/-- A buffer that is left is left. -/
theorem not_clean_connect {recvLog : List (Own ConnectResource)} {a : ℕ}
    (hleaves : Own.Leaves (.reply a) recvLog) :
    ¬ Own.Clean (connectOpening ++ recvLog ++ ConnectLocals.releases ⟨true, true, none⟩) := by
  intro hclean
  have hheld : Own.history (.reply a) recvLog = [.acquire (.reply a)] := hleaves.1
  have ha := hclean (.reply a)
  simp [Own.Settled, connectOpening, ConnectLocals.releases, hheld] at ha

theorem reply_injective : Function.Injective ConnectResource.reply := fun _ _ h =>
  ConnectResource.reply.inj h

/-- Behind its receive `mqtt_connect` releases what it has, or hands out the client. -/
theorem mqttConnectReply_kept {script : List TcpRecv} {stream : List UInt8} {client : MqttClient}
    (receives : call.Receives params script stream) (hsock : client.sock = sock)
    (hgrowth : ¬ GrowthRefused call.recvEnv script stream)
    (h : mqttConnectReply client (mqttRecvTraced call.recvEnv script stream 0) handle
      connectOpening = .returned ret handle' log) :
    ConnectKept call params sock handle ret handle' log := by
  have hresult := mqttRecvTraced_result call.recvEnv script stream 0
  have howned : ∀ r, (mqttRecvTraced call.recvEnv script stream 0).result = .returned r →
      RecvOwned ConnectResource.reply r (mqttRecvTraced call.recvEnv script stream 0).events
        (mqttRecvTraced call.recvEnv script stream 0).block := fun r =>
    mqttRecvTraced_owned reply_injective hgrowth
  generalize mqttRecvTraced call.recvEnv script stream 0 = trace at h hresult howned
  obtain ⟨result, events, block⟩ := trace
  have hrecv : ∀ r : ConnectResource, (∀ b, .reply b ≠ r) →
      Own.history r (events.filterMap (RecvEvent.own .reply)) = [] := fun r => history_recv
  unfold mqttConnectReply at h
  cases result with
  | waiting => cases h
  | fault => cases h
  | returned r =>
    dsimp only at h howned
    cases howned r rfl with
    | failed hret clean =>
      rw [if_pos hret, mqttConnectError_returned hret] at h
      obtain ⟨rfl, rfl, rfl⟩ := ConnectResult.returned.inj h
      refine ⟨fun hzero => absurd hzero hret, fun _ => ⟨rfl, clean_connect hrecv ?_⟩⟩
      simpa using clean
    | @packet a hret leaves =>
      rw [if_neg (not_not.mpr hret)] at h
      cases hdata : (r.data.take r.len).mapM id with
      | none => simp [hdata] at h
      | some rsp =>
        rw [hdata] at h
        cases hconnack : mqttMsgProcessConnack rsp with
        | none => simp [hconnack] at h
        | some code =>
          simp only [hconnack] at h
          have hclean := @clean_connect _ (some a) hrecv leaves.release
          by_cases hcode : code ≠ 0
          · rw [if_pos hcode, mqttConnectError_returned hcode] at h
            obtain ⟨rfl, rfl, rfl⟩ := ConnectResult.returned.inj h
            exact ⟨fun hzero => absurd hzero hcode, fun _ => ⟨rfl, hclean⟩⟩
          · rw [if_neg hcode] at h
            obtain ⟨rfl, rfl, rfl⟩ := ConnectResult.returned.inj h
            refine ⟨fun _ => ?_, fun hne => absurd rfl hne⟩
            refine ⟨⟨_, rfl, hsock⟩, ?_, ?_, ?_, fun r' hclient hsocket => ?_⟩
            · simp [Own.Held, connectOpening, hrecv]
            · simp [Own.Held, connectOpening, hrecv]
            · exact ⟨script, stream, r, rsp, receives, hresult.symm, hret,
                mapM_id_eq_some hdata, by rw [hconnack, not_not.mp hcode]⟩
            · have hr' := hclean r'
              simpa [Own.Settled, connectOpening, ConnectLocals.releases, Ne.symm hclient,
                Ne.symm hsocket] using hr'

/-- **`mqtt_connect` keeps its word exactly where no resize of its answer's buffer is refused.** -/
theorem mqttConnect_kept_iff
    (h : mqttConnectTraced call params sock handle = .returned ret handle' log) :
    ConnectKept call params sock handle ret handle' log ↔ ¬ call.GrowthRefused params := by
  cases mqttConnectTraced_path h with
  | early hret hhandle clean hno =>
    refine iff_of_true ⟨fun hzero => absurd hzero hret, fun _ => ⟨hhandle, clean⟩⟩ ?_
    rintro ⟨script, stream, receives, -⟩
    exact hno script stream receives
  | @replied script stream client receives hsock hreply =>
    constructor
    · rintro hkept ⟨script', stream', receives', hgrowth⟩
      obtain ⟨rfl, rfl⟩ := HttpsResult.passed.inj (receives.handshake.symm.trans
        receives'.handshake)
      obtain ⟨r, events, a, htrace, hret, hleaves⟩ := hgrowth.leaves reply_injective 0
      rw [htrace] at hreply
      unfold mqttConnectReply at hreply
      dsimp only at hreply
      rw [if_pos hret, mqttConnectError_returned hret] at hreply
      obtain ⟨rfl, rfl, rfl⟩ := ConnectResult.returned.inj hreply
      exact not_clean_connect hleaves (hkept.released hret).2
    · intro hgrowth
      exact mqttConnectReply_kept receives hsock
        (fun h => hgrowth ⟨script, stream, receives, h⟩) hreply

end Outcome

/-- Where `mqtt_recv` is reached, the call is what is behind it. -/
theorem mqttConnectTraced_receives {call : ConnectCall} {params : MqttConnectParams}
    {script : List TcpRecv} {stream : List UInt8} (receives : call.Receives params script stream)
    (sock : ℕ) (handle : Option MqttClient) :
    ∃ client, mqttConnectTraced call params sock handle = mqttConnectReply client
      (mqttRecvTraced call.recvEnv script stream 0) handle connectOpening := by
  obtain ⟨hclient, htcp, hhttps, req, hbuild⟩ := receives
  obtain ⟨client, hsend, hbytes⟩ : ∃ client,
      mqttSend call.send ⟨sock, 0, 0, 0, []⟩ req = (0, client) ∧ client.byteRecv = 0 := by
    refine ⟨_, rfl, ?_⟩
    split_ifs <;> rfl
  refine ⟨client, ?_⟩
  unfold mqttConnectTraced
  rw [if_neg (by rw [hclient]; decide), if_neg (not_not.mpr htcp), hhttps]
  dsimp only
  rw [hbuild]
  unfold mqttConnectRequest
  simp only [hsend, ne_eq, not_true_eq_false, if_false, hbytes]
  rfl

/-- A client without a user, on a connection on which `stream` comes in pieces of two bytes. -/
def plainParams : MqttConnectParams :=
  ⟨[0x61], none, none, 30, false, by decide, Nat.two_pow_pos 31⟩

def plainCall (malloc : ℕ → Bool) (stream : List UInt8) : ConnectCall :=
  ⟨true, 0, 0, ⟨true, 0⟩, malloc, fun _ => 0, [.piece 2, .piece 2], stream⟩

theorem plainCall_receives (malloc : ℕ → Bool) (stream : List UInt8) :
    (plainCall malloc stream).Receives plainParams [.piece 2, .piece 2] stream := by
  have hbuild := mqttMsgBuildConnect_bytes true ⟨[0x61], by decide, by decide⟩ none 30
  rw [if_pos rfl] at hbuild
  exact ⟨rfl, rfl, rfl, _, (congrArg packetOf hbuild).trans (packetOf_filled _)⟩

/-- A connection that the broker refuses. -/
theorem mqttConnect_kept_iff_refused :
    ConnectKept (plainCall (fun _ => true) [0x20, 0x02, 0x00, 0x05]) plainParams 3 none
        errMqttMsgConnackNotAuthorized none [.acquire .client, .acquire .socket, .acquire .request,
          .acquire (.reply 1), .release .request, .release (.reply 1), .release .socket,
          .release .client]
      ↔ ¬ (plainCall (fun _ => true) [0x20, 0x02, 0x00, 0x05]).GrowthRefused plainParams := by
  have htrace : mqttRecvTraced ⟨fun _ => true, fun _ => 0, 5000⟩ [.piece 2, .piece 2]
      [0x20, 0x02, 0x00, 0x05] 0 = ⟨.returned ⟨0, [some 0x20, some 0x02, some 0x00, some 0x05]
        ++ List.replicate 124 none, 4, [], [], 4, some 0⟩, [.alloc 1, .recv 5000, .recv 5000],
        some 1⟩ := by decide +kernel
  obtain ⟨client, hcall⟩ := mqttConnectTraced_receives
    (plainCall_receives (fun _ => true) [0x20, 0x02, 0x00, 0x05]) 3 none
  exact mqttConnect_kept_iff (hcall.trans (by rw [ConnectCall.recvEnv, plainCall, htrace]; rfl))

/-- The first packet does not fit into 128 bytes, and there is no memory for more: the buffer is
neither handed out nor freed. -/
theorem mqttConnect_leaks :
    mqttConnectTraced (plainCall (· = 0) [0x20, 0x80, 0x01]) plainParams 3 none
        = .returned errTr50Malloc none [.acquire .client, .acquire .socket, .acquire .request,
          .acquire (.reply 1), .release .request, .release .socket, .release .client]
      ∧ ¬ ConnectKept (plainCall (· = 0) [0x20, 0x80, 0x01]) plainParams 3 none errTr50Malloc none
          [.acquire .client, .acquire .socket, .acquire .request, .acquire (.reply 1),
            .release .request, .release .socket, .release .client] := by
  have htrace : mqttRecvTraced ⟨(· = 0), fun _ => 0, 5000⟩ [.piece 2, .piece 2]
      [0x20, 0x80, 0x01] 0 = ⟨.returned ⟨errTr50Malloc, [], 0, [], [], 3, none⟩,
        [.alloc 1, .recv 5000, .recv 5000], none⟩ := by decide +kernel
  obtain ⟨client, hcall⟩ := mqttConnectTraced_receives
    (plainCall_receives (· = 0) [0x20, 0x80, 0x01]) 3 none
  refine ⟨hcall.trans (by rw [ConnectCall.recvEnv, plainCall, htrace]; rfl), fun hkept => ?_⟩
  have hreply := (hkept.released (by decide)).2 (.reply 1)
  simp [Own.Settled] at hreply

/-! ## …and what it returns -/

/-- The code of `_mqtt_https_connect`. -/
def ConnectCall.httpsCode (call : ConnectCall) (params : MqttConnectParams) : ℤ :=
  match call.https params with
  | .failed ret => ret
  | _ => 0

/-- A code and a handle are the result of a connect. -/
inductive ConnectAgrees (ret : ℤ) (handle : Option MqttClient) : Except ℤ MqttClient → Prop
  | ok {client : MqttClient} (hret : ret = 0) (hhandle : handle = some client) :
      ConnectAgrees ret handle (.ok client)
  | error (hret : ret ≠ 0) : ConnectAgrees ret handle (.error ret)

section Agrees

variable {call : ConnectCall} {params : MqttConnectParams} {sock : ℕ}
  {handle handle' : Option MqttClient} {ret : ℤ} {log : List (Own ConnectResource)}

/-- Behind its receive `mqtt_connect` does what it does with the answer. -/
theorem mqttConnectReply_answer {env : RecvEnv} {script : List TcpRecv} {stream : List UInt8}
    {client : MqttClient} {log₀ : List (Own ConnectResource)} (hbytes : client.byteRecv = 0)
    (hlast : client.lastRecv = 0)
    (h : mqttConnectReply client (mqttRecvTraced env script stream 0) handle log₀
      = .returned ret handle' log) (links : List LinkEvent) :
    ∃ answer result links', mqttConnectAnswer answer client links = some (result, links')
      ∧ ConnectAgrees ret handle' result := by
  have hresult := mqttRecvTraced_result env script stream 0
  generalize mqttRecvTraced env script stream 0 = trace at h hresult
  obtain ⟨result, events, block⟩ := trace
  unfold mqttConnectReply at h
  cases result with
  | waiting => cases h
  | fault => cases h
  | returned r =>
    have hout := mqttRecv_outcome env script stream 0
    rw [← hresult] at hout
    dsimp only at h hout
    by_cases hret : r.ret ≠ 0
    · rw [if_pos hret, mqttConnectError_returned hret] at h
      obtain ⟨rfl, rfl, rfl⟩ := ConnectResult.returned.inj h
      exact ⟨.failed r.ret hret 0, _, _, rfl, .error hret⟩
    rw [if_neg hret] at h
    obtain ⟨p, hp, hdata, -⟩ := mqttRecv_eq_zero hresult.symm (not_not.mp hret)
    have hlength : r.byteRecv = p.length := by
      cases hout with
      | exit hexit =>
        cases hexit with
        | gaveUp used hscript took hbytes why =>
          rcases why with ⟨hcode, -⟩ | ⟨hcode, -⟩ <;> exact absurd (hcode ▸ by decide) hret
        | socket used he hscript took hbytes hcode => exact absurd (hcode ▸ he.ne) hret
      | malformed hscript took hbytes hcode hno => exact absurd (hcode ▸ by decide) hret
      | packet q used hscript took hbytes hcode hq hlen hdata' =>
        have hsame : p.map some = q.map some := hdata.symm.trans hdata'
        rw [hbytes, ← List.length_map (f := some), ← hsame, List.length_map, zero_add]
    have hmap : (r.data.take r.len).mapM id = some p := by
      have hfilled := packetOf_filled p
      rw [hdata]
      obtain ⟨q, hq, heq⟩ := Option.map_eq_some_iff.mp hfilled
      rw [hq, Except.ok.inj heq]
    rw [hmap] at h
    cases hconnack : mqttMsgProcessConnack p with
    | none => simp [hconnack] at h
    | some code =>
      simp only [hconnack] at h
      refine ⟨.packet p hp (r.lastRecv.getD 0), ?_⟩
      unfold mqttConnectAnswer
      simp only [hconnack]
      by_cases hcode : code ≠ 0
      · rw [if_pos hcode, mqttConnectError_returned hcode] at h
        obtain ⟨rfl, rfl, rfl⟩ := ConnectResult.returned.inj h
        rw [if_pos hcode]
        exact ⟨_, _, rfl, .error hcode⟩
      · rw [if_neg hcode] at h
        obtain ⟨rfl, rfl, rfl⟩ := ConnectResult.returned.inj h
        rw [if_neg hcode]
        refine ⟨_, _, rfl, .ok rfl ?_⟩
        rw [hbytes, hlast, hlength, zero_add]

section Env

variable (env : ConnectEnv) {links : List LinkEvent}

theorem mqttConnect_https (hclient : ¬ env.mallocClient = false) (htcp : ¬ env.tcpConnect ≠ 0)
    (hproxy : params.useHttpsProxy) (hhttps : env.httpsConnect ≠ 0) :
    mqttConnect env params sock links
      = some (.error env.httpsConnect, .closed sock :: .opened sock :: links) := by
  unfold mqttConnect
  rw [if_neg hclient, if_neg htcp]
  exact if_pos ⟨hproxy, hhttps⟩

theorem mqttConnect_error (hclient : ¬ env.mallocClient = false) (htcp : ¬ env.tcpConnect ≠ 0)
    (hhttps : env.httpsConnect = 0) {e : ℤ}
    (hbuild : packetOf (params.connect env.send.malloc) = some (.error e)) :
    mqttConnect env params sock links
      = some (.error e, .closed sock :: .opened sock :: links) := by
  unfold mqttConnect
  generalize packetOf (params.connect env.send.malloc) = built at hbuild ⊢
  subst hbuild
  rw [if_neg hclient, if_neg htcp]
  exact if_neg fun h => h.2 hhttps

theorem mqttConnect_ok (hclient : ¬ env.mallocClient = false) (htcp : ¬ env.tcpConnect ≠ 0)
    (hhttps : env.httpsConnect = 0) {req : List UInt8}
    (hbuild : packetOf (params.connect env.send.malloc) = some (.ok req)) :
    mqttConnect env params sock links = mqttConnectAnswer env.answer
      (mqttSend env.send ⟨sock, 0, 0, 0, []⟩ req).2 (.sent sock req :: .opened sock :: links) := by
  unfold mqttConnect
  generalize packetOf (params.connect env.send.malloc) = built at hbuild ⊢
  subst hbuild
  rw [if_neg hclient, if_neg htcp]
  exact if_neg fun h => h.2 hhttps

end Env

/-- What `mqttConnect` meets. -/
def ConnectCall.env (call : ConnectCall) (params : MqttConnectParams) (answer : RecvAnswer) :
    ConnectEnv :=
  ⟨call.mallocClient, call.tcpConnect, call.httpsCode params, call.send, answer⟩

theorem ConnectCall.env_send (call : ConnectCall) (params : MqttConnectParams)
    (answer : RecvAnswer) : (call.env params answer).send = call.send := rfl

/-- Behind its handshake the call returns what `mqttConnect` returns… -/
theorem mqttConnectRequest_mqttConnect {script : List TcpRecv} {stream : List UInt8}
    {built : Option (Except ℤ (List UInt8))} {log₀ : List (Own ConnectResource)}
    (hclient : ¬ call.mallocClient = false) (htcp : ¬ call.tcpConnect ≠ 0)
    (hcode : call.httpsCode params = 0)
    (hbuild : packetOf (params.connect call.send.malloc) = built)
    (h : mqttConnectRequest call sock handle script stream built log₀
      = .returned ret handle' log) (links : List LinkEvent) :
    ∃ answer result links', mqttConnect (call.env params answer) params sock links
        = some (result, links') ∧ ConnectAgrees ret handle' result := by
  unfold mqttConnectRequest at h
  cases built with
  | none => cases h
  | some built =>
    cases built with
    | error e =>
      have he : e ≠ 0 := MqttConnectParams.connect_error hbuild
      simp only [mqttConnectError_returned he] at h
      obtain ⟨rfl, rfl, rfl⟩ := ConnectResult.returned.inj h
      rw [← call.env_send params (.failed 1 one_ne_zero 0)] at hbuild
      exact ⟨.failed 1 one_ne_zero 0, _, _,
        mqttConnect_error (call.env params _) hclient htcp hcode hbuild, .error he⟩
    | ok req =>
      obtain ⟨client, hsend, hlast, hbytes⟩ : ∃ client,
          mqttSend call.send ⟨sock, 0, 0, 0, []⟩ req = (0, client) ∧ client.lastRecv = 0
          ∧ client.byteRecv = 0 := by
        refine ⟨_, rfl, ?_, ?_⟩ <;> split_ifs <;> rfl
      simp only [hsend, ne_eq, not_true_eq_false, if_false, hbytes] at h
      obtain ⟨answer, result, links', hanswer, hagrees⟩ := mqttConnectReply_answer hbytes hlast h
        (.sent sock req :: .opened sock :: links)
      rw [← call.env_send params answer] at hbuild hsend
      refine ⟨answer, result, links', ?_, hagrees⟩
      rw [mqttConnect_ok (call.env params answer) hclient htcp hcode hbuild, hsend]
      exact hanswer

/-- **What the call returns is what `mqttConnect` returns** for the codes and the answer that come
of it. -/
theorem mqttConnectTraced_mqttConnect
    (h : mqttConnectTraced call params sock handle = .returned ret handle' log)
    (links : List LinkEvent) :
    ∃ answer result links', mqttConnect (call.env params answer) params sock links
        = some (result, links') ∧ ConnectAgrees ret handle' result := by
  unfold mqttConnectTraced at h
  have none : RecvAnswer := .failed 1 one_ne_zero 0
  by_cases hclient : call.mallocClient = false
  · rw [if_pos hclient] at h
    obtain ⟨rfl, rfl, rfl⟩ := ConnectResult.returned.inj h
    exact ⟨none, _, _, if_pos hclient, .error (by decide)⟩
  rw [if_neg hclient] at h
  by_cases htcp : call.tcpConnect ≠ 0
  · simp only [if_pos htcp, mqttConnectError_returned htcp] at h
    obtain ⟨rfl, rfl, rfl⟩ := ConnectResult.returned.inj h
    exact ⟨none, _, _, (if_neg hclient).trans (if_pos htcp), .error htcp⟩
  simp only [if_neg htcp] at h
  cases hhttps : call.https params with
  | waiting => simp [hhttps] at h
  | failed e =>
    have he := call.https_failed hhttps
    have hproxy : params.useHttpsProxy := by
      by_contra hno
      simp [ConnectCall.https, hno] at hhttps
    have hcode : call.httpsCode params = e := by simp [ConnectCall.httpsCode, hhttps]
    simp only [hhttps, mqttConnectError_returned he] at h
    obtain ⟨rfl, rfl, rfl⟩ := ConnectResult.returned.inj h
    subst hcode
    exact ⟨none, _, _, mqttConnect_https (call.env params none) hclient htcp hproxy he, .error he⟩
  | passed script stream =>
    have hcode : call.httpsCode params = 0 := by simp [ConnectCall.httpsCode, hhttps]
    simp only [hhttps] at h
    exact mqttConnectRequest_mqttConnect hclient htcp hcode rfl h links

end Agrees

end Tr50
