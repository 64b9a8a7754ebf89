import Tr50.Mqtt.Async
import Tr50.Mqtt.Build

/-!
# Mqtt/SendFailure — who hears of a send that fails

`mqtt_send` returns `0` whatever `_tcp_send` returns, so no sender, no entry point and no keepalive
step can tell a send that failed from one that did not.  A failing send is reported exactly where
there is nothing to report: the send succeeds, or the call does not get to it.
-/

namespace Tr50

open Machinery

variable {γ κ : Type}

/-! ## The senders -/

/-- A call of one of the five senders. -/
inductive MqttRequest
  | publish (qos retain : ℤ) (messageId : UInt16) (topic data : List UInt8)
  | puback (messageId : UInt16) (qos : ℤ)
  | ping
  | subscribe (msgId : UInt16) (topic : List UInt8) (qos : ℤ)
  | unsubscribe (msgId : UInt16) (topic : List UInt8)

namespace MqttRequest

/-- The call. -/
def run (env : SendEnv) (client : MqttClient) : MqttRequest → Option (ℤ × MqttClient)
  | publish qos retain messageId topic data =>
      mqttPublish env client qos retain messageId topic data
  | puback messageId qos => mqttPuback env client messageId qos
  | ping => mqttPing env client
  | subscribe msgId topic qos => mqttSubscribe env client msgId topic qos
  | unsubscribe msgId topic => mqttUnsubscribe env client msgId topic

/-- The packet the call asks its builder for. -/
def build (malloc : Bool) : MqttRequest → Option (Except ℤ Buffer)
  | publish qos retain messageId topic data =>
      mqttMsgBuildPublish malloc topic qos retain messageId data
  | puback messageId qos => mqttMsgBuildPuback malloc (UInt16.ofInt qos) messageId.toNat
  | ping => mqttMsgBuildPing malloc
  | subscribe msgId topic qos => mqttMsgBuildSubscribe malloc topic qos msgId
  | unsubscribe msgId topic => mqttMsgBuildUnsubscribe malloc topic msgId

theorem run_eq (env : SendEnv) (client : MqttClient) (req : MqttRequest) :
    req.run env client = mqttSendMsg env client (req.build env.malloc) := by cases req <;> rfl

/-- A packet whose `_tcp_send` fails makes the call return nonzero. -/
def Reports (env : SendEnv) (client : MqttClient) (req : MqttRequest) : Prop :=
  ∀ ret client', req.run env client = some (ret, client') → client'.sent ≠ client.sent →
    env.tcpSend ≠ 0 → ret ≠ 0

/-- There is a packet to send. -/
def Builds (env : SendEnv) (req : MqttRequest) : Prop :=
  ∃ packet, packetOf (req.build env.malloc) = some (.ok packet)

theorem reports_iff (env : SendEnv) (client : MqttClient) (req : MqttRequest) :
    req.Reports env client ↔ env.tcpSend = 0 ∨ ¬ req.Builds env := by
  constructor
  · intro h
    by_contra hcon
    rw [not_or, not_not] at hcon
    obtain ⟨htcp, packet, hpacket⟩ := hcon
    obtain ⟨client', hrun, hsent⟩ := mqttSendMsg_packet env client hpacket
    exact h 0 client' (by rw [run_eq, hrun]) (by simp [hsent]) htcp rfl
  · rintro (htcp | hbuild) ret client' hrun hsent hfail
    · exact absurd htcp hfail
    · rw [run_eq] at hrun
      rcases mqttSendMsg_cases hrun with ⟨packet, hpacket, -, -⟩ | ⟨-, rfl⟩
      · exact absurd ⟨packet, hpacket⟩ hbuild
      · exact absurd rfl hsent

end MqttRequest

/-! ## The entry points -/

/-- A call of one of the four entry points. -/
inductive AsyncRequest (γ κ : Type)
  | publish (topic data : List UInt8) (retain : ℤ)
  | publishQos1 (topic data : List UInt8) (retain : ℤ) (callback : Option γ) (custom : Option κ)
  | subscribe (topic : List UInt8) (qos : ℤ) (callback : Option γ) (custom : Option κ)
  | unsubscribe (topic : List UInt8) (callback : Option γ) (custom : Option κ)

namespace AsyncRequest

/-- The call. -/
def run (env : RequestEnv) (handle : Option (MqttAsyncClient γ κ)) :
    AsyncRequest γ κ → Option (ℤ × Option (MqttAsyncClient γ κ))
  | publish topic data retain => mqttAsyncPublish env handle topic data retain
  | publishQos1 topic data retain callback custom =>
      mqttAsyncPublishQos1 env handle topic data retain callback custom
  | subscribe topic qos callback custom => mqttAsyncSubscribe env handle topic qos callback custom
  | unsubscribe topic callback custom => mqttAsyncUnsubscribe env handle topic callback custom

/-- The record of a call that waits for an acknowledgement. -/
def record : AsyncRequest γ κ → Option (Option γ × Option κ)
  | publish _ _ _ => none
  | publishQos1 _ _ _ callback custom => some (callback, custom)
  | subscribe _ _ callback custom => some (callback, custom)
  | unsubscribe _ callback custom => some (callback, custom)

/-- The sender the call uses. -/
def request (msgId : UInt16) : AsyncRequest γ κ → MqttRequest
  | publish topic data retain => .publish mqttPayloadQos0 retain msgId topic data
  | publishQos1 topic data retain _ _ => .publish mqttPayloadQos1 retain msgId topic data
  | subscribe topic qos _ _ => .subscribe msgId topic qos
  | unsubscribe topic _ _ => .unsubscribe msgId topic

theorem run_eq (env : RequestEnv) (handle : Option (MqttAsyncClient γ κ))
    (req : AsyncRequest γ κ) :
    req.run env handle = mqttAsyncRequest env handle req.record
      fun mqtt msgId => (req.request msgId).run env.toSendEnv mqtt := by cases req <;> rfl

theorem build_error {malloc : Bool} {msgId : UInt16} {req : AsyncRequest γ κ} {e : ℤ}
    (h : packetOf ((req.request msgId).build malloc) = some (.error e)) : e = errTr50Malloc := by
  have hbuild := packetOf_eq_error h
  cases req with
  | publish =>
    obtain ⟨-, -, -, -, -, he⟩ := mqttMsgBuildPublish_error_iff.mp hbuild
    exact he
  | publishQos1 =>
    obtain ⟨-, -, -, -, -, he⟩ := mqttMsgBuildPublish_error_iff.mp hbuild
    exact he
  | subscribe =>
    obtain ⟨-, -, -, -, -, he⟩ := mqttMsgBuildSubscribe_error_iff.mp hbuild
    exact he
  | unsubscribe =>
    obtain ⟨-, -, -, -, -, he⟩ := mqttMsgBuildUnsubscribe_error_iff.mp hbuild
    exact he

/-- The call gets to its send: it comes from another thread, finds the client CONNECTED, a free
slot for its record, and a packet to send. -/
def Sends (env : RequestEnv) (client : MqttAsyncClient γ κ) (req : AsyncRequest γ κ) : Prop :=
  mqttAsyncSameThread client env.caller = false
    ∧ client.state = .connected ∧ client.mqtt.isSome
    ∧ (req.record.isSome → ∃ r ∈ client.qos.records, r.isUsed = false)
    ∧ (req.request (UInt16.ofInt client.msgIdSeq)).Builds env.toSendEnv

/-- A packet whose `_tcp_send` fails makes the call return nonzero and leaves the client BROKEN,
and a call that returns `0` has handed its packet over. -/
def Reports (env : RequestEnv) (client : MqttAsyncClient γ κ) (req : AsyncRequest γ κ) : Prop :=
  ∀ ret client', req.run env (some client) = some (ret, some client') →
    (client'.sent ≠ client.sent → env.tcpSend ≠ 0 → ret ≠ 0 ∧ client'.state = .broken)
      ∧ (ret = 0 → client'.sent ≠ client.sent ∧ env.tcpSend = 0)

/-- Taking an id and a slot leaves the connection alone, and fails only on a full table. -/
theorem addRecord_cases (client : MqttAsyncClient γ κ) (now : ℤ)
    (record : Option (Option γ × Option κ)) {ret : ℤ} {client' : MqttAsyncClient γ κ}
    (h : mqttAsyncAddRecord client now record = (ret, client')) :
    client'.mqtt = client.mqtt
      ∧ (ret = 0 ↔ (record.isSome → ∃ r ∈ client.qos.records, r.isUsed = false)) := by
  unfold mqttAsyncAddRecord at h
  cases record with
  | none =>
    obtain ⟨rfl, rfl⟩ := Prod.mk.inj h
    simp
  | some record =>
    obtain ⟨rfl, rfl⟩ := Prod.mk.inj h
    refine ⟨rfl, ?_⟩
    change (mqttQosAdd _ _ _ _ _).1 = 0 ↔ _
    unfold mqttQosAdd
    split
    · rename_i records hloop
      obtain ⟨pre, r, post, hpre, hr, -⟩ := mqttQosAddLoop_some hloop
      have hmem : r ∈ pre ++ r :: post := by simp
      rw [← hpre] at hmem
      exact iff_of_true rfl fun _ => ⟨r, hmem, hr⟩
    · rename_i hloop
      refine iff_of_false (by change ¬ errMqttQosFull = 0; decide) fun h => ?_
      obtain ⟨r, hr, hu⟩ := h rfl
      simp [mqttQosAddLoop_eq_none.mp hloop r hr] at hu

/-- A call that does not get to its send returns an error and sends nothing. -/
theorem run_of_not_sends {env : RequestEnv} {client client' : MqttAsyncClient γ κ}
    {req : AsyncRequest γ κ} {ret : ℤ} (h : ¬ req.Sends env client)
    (hrun : req.run env (some client) = some (ret, some client')) :
    ret ≠ 0 ∧ client'.sent = client.sent := by
  rw [run_eq] at hrun
  rcases mqttAsyncRequest_cases hrun with ⟨-, rfl, hc⟩ | ⟨-, rfl, hc⟩
    | ⟨hthread, mqtt, r, mid, hconn, hadd, hcase⟩
  · exact ⟨by decide, by rw [Option.some.inj hc]⟩
  · exact ⟨by decide, by rw [Option.some.inj hc]⟩
  obtain ⟨hmqtt, hslot⟩ := addRecord_cases client env.now req.record hadd
  rcases hcase with ⟨hr, rfl, hc⟩ | ⟨hr, mqtt', hsend, hc⟩
  · obtain rfl := Option.some.inj hc
    exact ⟨hr, by simp only [MqttAsyncClient.sent, hmqtt]⟩
  -- the table has room, so it is the builder that fails
  unfold mqttAsyncConnection at hconn
  split_ifs at hconn with hstate
  rw [MqttRequest.run_eq] at hsend
  rcases mqttSendMsg_cases hsend with ⟨packet, hpacket, -, -⟩ | ⟨herr, rfl⟩
  · exact absurd ⟨hthread, hstate, by simp [hconn], hslot.mp hr, packet, hpacket⟩ h
  · obtain rfl := build_error herr
    obtain rfl := Option.some.inj hc
    refine ⟨by decide, ?_⟩
    rw [mqttAsyncSent, if_pos (by decide)]
    simp only [MqttAsyncClient.sent, mqttAsyncStateChange, hconn]

/-- A call that gets to its send returns `0` with one packet more. -/
theorem run_of_sends {env : RequestEnv} {client : MqttAsyncClient γ κ} {req : AsyncRequest γ κ}
    (h : req.Sends env client) :
    ∃ client' packet, req.run env (some client) = some (0, some client')
      ∧ client'.sent = client.sent ++ [packet] := by
  obtain ⟨hthread, hstate, hmqtt, hslot, packet, hpacket⟩ := h
  obtain ⟨mqtt, hm⟩ := Option.isSome_iff_exists.mp hmqtt
  obtain ⟨mqtt', hsend, hsent⟩ := mqttSendMsg_packet env.toSendEnv mqtt hpacket
  rw [← MqttRequest.run_eq] at hsend
  have hconn : mqttAsyncConnection client = some mqtt := by
    rw [mqttAsyncConnection, if_pos hstate, hm]
  have hadd : (mqttAsyncAddRecord client env.now req.record).1 = 0 :=
    (addRecord_cases client env.now req.record rfl).2.mpr hslot
  refine ⟨mqttAsyncSent (mqttAsyncAddRecord client env.now req.record).2 0 mqtt', packet, ?_, ?_⟩
  · simp only [run_eq, mqttAsyncRequest, hthread, hconn, hadd, hsend]
    rfl
  · simp only [MqttAsyncClient.sent, hm]
    exact hsent

theorem reports_iff (env : RequestEnv) (client : MqttAsyncClient γ κ) (req : AsyncRequest γ κ) :
    req.Reports env client ↔ env.tcpSend = 0 ∨ ¬ req.Sends env client := by
  by_cases hsends : req.Sends env client
  · obtain ⟨sent', packet, hrun, hsent⟩ := run_of_sends hsends
    have hne : sent'.sent ≠ client.sent := by simp [hsent]
    constructor
    · intro h
      by_contra hcon
      rw [not_or] at hcon
      exact ((h 0 sent' hrun).1 hne hcon.1).1 rfl
    · rintro (htcp | h) ret client' hrun'
      · rw [hrun] at hrun'
        obtain ⟨rfl, hc⟩ := Prod.mk.inj (Option.some.inj hrun')
        obtain rfl := Option.some.inj hc
        exact ⟨fun _ hfail => absurd htcp hfail, fun _ => ⟨hne, htcp⟩⟩
      · exact absurd hsends h
  · refine iff_of_true (fun ret client' hrun => ?_) (Or.inr hsends)
    obtain ⟨hret, hsent⟩ := run_of_not_sends hsends hrun
    exact ⟨fun hne => absurd hsent hne, fun h => absurd h hret⟩

end AsyncRequest

/-! ## The keepalive step -/

/-- A ping whose `_tcp_send` fails leaves the client BROKEN. -/
def KeepaliveReports (env : SendEnv) (now : ℤ) (keepaliveInSec : UInt16)
    (client : MqttAsyncClient γ κ) : Prop :=
  ∀ client', mqttAsyncHandlerKeepalive env now keepaliveInSec client = some client' →
    client'.sent ≠ client.sent → env.tcpSend ≠ 0 → client'.state = .broken

/-- The step gets to its ping. -/
def KeepaliveSends (env : SendEnv) (now : ℤ) (keepaliveInSec : UInt16)
    (client : MqttAsyncClient γ κ) : Prop :=
  client.state = .connected ∧ 0 < keepaliveInSec.toNat ∧ client.outstandingPing ≤ 1
    ∧ env.malloc ∧ ∃ mqtt, client.mqtt = some mqtt
      ∧ mqtt.lastRecv + keepaliveInSec.toNat * 1000 < now + client.timeoutInMs

theorem mqttPing_of_malloc {env : SendEnv} (h : env.malloc) (client : MqttClient) :
    mqttPing env client = some (mqttSend env client [0xC0, 0x00]) := by
  rw [mqttPing, h]
  rfl

/-- A ping without memory sends nothing. -/
theorem mqttPing_of_refused {env : SendEnv} (h : ¬ env.malloc) (client : MqttClient) :
    mqttPing env client = some (errTr50Malloc, client) := by
  rw [mqttPing, Bool.eq_false_iff.mpr h]
  rfl

theorem sent_mqttAsyncBreak (client : MqttAsyncClient γ κ) (error : ℤ) (why : String) :
    (mqttAsyncBreak client error why).sent = client.sent := by
  unfold mqttAsyncBreak
  split_ifs <;> rfl

theorem keepaliveReports_iff (env : SendEnv) (now : ℤ) (keepaliveInSec : UInt16)
    (client : MqttAsyncClient γ κ) :
    KeepaliveReports env now keepaliveInSec client
      ↔ env.tcpSend = 0 ∨ ¬ KeepaliveSends env now keepaliveInSec client := by
  by_cases hsends : KeepaliveSends env now keepaliveInSec client
  · obtain ⟨hstate, hpos, hping, hmalloc, mqtt, hm, hdue⟩ := hsends
    obtain ⟨client', hrun, hsent, hstate'⟩ : ∃ client',
        mqttAsyncHandlerKeepalive env now keepaliveInSec client = some client'
        ∧ client'.sent = client.sent ++ [[0xC0, 0x00]] ∧ client'.state = .connected := by
      simp only [mqttAsyncHandlerKeepalive, hstate, ne_eq, not_true_eq_false, if_false,
        if_neg (show ¬ (keepaliveInSec.toNat : ℤ) * 1000 ≤ 0 by omega),
        if_neg (not_lt.mpr hping), hm, if_pos hdue, mqttPing_of_malloc hmalloc]
      refine ⟨_, rfl, ?_, rfl⟩
      simp only [MqttAsyncClient.sent, hm, mqttSend]
      split_ifs <;> rfl
    constructor
    · intro h
      by_contra hcon
      rw [not_or] at hcon
      have hbroken := h client' hrun (by simp [hsent]) hcon.1
      rw [hstate'] at hbroken
      cases hbroken
    · rintro (htcp | h) _ _ _ hfail
      · exact absurd htcp hfail
      · exact absurd ⟨hstate, hpos, hping, hmalloc, mqtt, hm, hdue⟩ h
  · refine iff_of_true (fun client' hrun hne => ?_) (Or.inr hsends)
    refine absurd ?_ hne
    unfold mqttAsyncHandlerKeepalive at hrun
    by_cases hstate : client.state = .connected
    swap
    · simp only [hstate, ne_eq, not_false_eq_true, if_true, Option.some.injEq] at hrun
      rw [← hrun]
    by_cases hpos : (keepaliveInSec.toNat : ℤ) * 1000 ≤ 0
    · simp only [hstate, ne_eq, not_true_eq_false, if_false, hpos, if_true,
        Option.some.injEq] at hrun
      rw [← hrun]
    by_cases hping : client.outstandingPing > 1
    · simp only [hstate, ne_eq, not_true_eq_false, if_false, hpos, hping, if_true,
        Option.some.injEq] at hrun
      rw [← hrun]
      exact sent_mqttAsyncBreak client 0 "MQTT Heartbeat no response."
    cases hm : client.mqtt with
    | none => simp [hstate, hpos, hping, hm] at hrun
    | some mqtt =>
      by_cases hdue : mqtt.lastRecv + (keepaliveInSec.toNat : ℤ) * 1000 < now + client.timeoutInMs
      · -- everything else being there, it is the memory that is missing
        have hmalloc : ¬ env.malloc := fun h => hsends
          ⟨hstate, by omega, not_lt.mp hping, h, mqtt, hm, hdue⟩
        simp only [hstate, ne_eq, not_true_eq_false, if_false, hpos, hping, hm, hdue, if_true,
          mqttPing_of_refused hmalloc, show errTr50Malloc ≠ 0 by decide, not_false_eq_true,
          Option.some.injEq] at hrun
        rw [← hrun, sent_mqttAsyncBreak]
        simp only [MqttAsyncClient.sent, hm]
      · simp only [hstate, ne_eq, not_true_eq_false, if_false, hpos, hping, hm, hdue,
          Option.some.injEq] at hrun
        rw [← hrun]

/-! ## Every call -/

/-- **A failing `_tcp_send` is reported by no call that gets to it**: every sender, every entry
point and the keepalive step do what a failed send asks of them exactly when the send succeeds or
is not reached. -/
theorem sendFailure_reported_iff (env : RequestEnv) (client : MqttAsyncClient γ κ) :
    (∀ (mqtt : MqttClient) (req : MqttRequest),
      req.Reports env.toSendEnv mqtt ↔ env.tcpSend = 0 ∨ ¬ req.Builds env.toSendEnv)
    ∧ (∀ req : AsyncRequest γ κ,
      req.Reports env client ↔ env.tcpSend = 0 ∨ ¬ req.Sends env client)
    ∧ ∀ (now : ℤ) (keepaliveInSec : UInt16),
      KeepaliveReports env.toSendEnv now keepaliveInSec client
        ↔ env.tcpSend = 0 ∨ ¬ KeepaliveSends env.toSendEnv now keepaliveInSec client :=
  ⟨MqttRequest.reports_iff env.toSendEnv, AsyncRequest.reports_iff env client,
    fun now keepaliveInSec => keepaliveReports_iff env.toSendEnv now keepaliveInSec client⟩

/-- A QoS 0 publish whose socket refuses it returns `0` and leaves the client CONNECTED. -/
theorem not_sendFailure_reported :
    ¬ MqttRequest.Reports ⟨true, errTr50SockSendFailed⟩ ⟨0, 0, 0, 0, []⟩
        (.publish 0 0 1 [97] [98])
    ∧ ¬ AsyncRequest.Reports (γ := ℕ) (κ := ℕ)
        { malloc := true, tcpSend := errTr50SockSendFailed, caller := none, now := 0 }
        ⟨5000, 0, .connected, 0, false, some ⟨0, 0, 0, 0, []⟩, ⟨0, [], 30⟩, 0, []⟩
        (.publish [97] [98] 0)
    ∧ ¬ KeepaliveReports (γ := ℕ) (κ := ℕ) ⟨true, errTr50SockSendFailed⟩ 100000 60
        ⟨5000, 0, .connected, 0, false, some ⟨0, 0, 0, 0, []⟩, ⟨0, [], 30⟩, 0, []⟩ := by
  refine ⟨fun h => ?_, fun h => ?_, fun h => ?_⟩
  · exact h 0 ⟨0, 0, 0, 0, [[0x30, 4, 0, 1, 97, 98]]⟩ (by decide +kernel) (by decide) (by decide)
      rfl
  · exact ((h 0 ⟨5000, 1, .connected, 0, false, some ⟨0, 0, 0, 0, [[0x30, 4, 0, 1, 97, 98]]⟩,
      ⟨0, [], 30⟩, 0, []⟩ (by decide +kernel)).1 (by decide) (by decide)).1 rfl
  · have hbroken := h ⟨5000, 0, .connected, 0, false, some ⟨0, 0, 0, 0, [[0xC0, 0]]⟩, ⟨0, [], 30⟩,
      1, []⟩ (by decide +kernel) (by decide) (by decide)
    cases hbroken

end Tr50
