import Tr50.Mqtt.Ids

/-!
# Mqtt/Acks — acknowledgements and the records they answer

A well-formed PUBACK, SUBACK or UNSUBACK for an id in use (`Acks`) should take the id's record out
of the table and call it back once (`AsyncSystem.Settles`).  It does, but for the SUBACK that
refuses a subscription: its reader hands back an error, and `_mqtt_async_handler_process` returns in
front of `mqtt_qos_signal`.  The record stays until it expires.
-/

namespace Tr50

open Machinery
open scoped List

variable {γ κ : Type}

/-! ## Acknowledgements -/

/-- A well-formed acknowledgement of `m`, and whether it refuses what was asked for.  The flags of
the fixed header mean nothing. -/
inductive Acks (m : UInt16) : Bool → List UInt8 → Prop
  | puback {b0 : UInt8} (h : b0 &&& mqttGetMsgType = mqttMsgTypePuback) :
      Acks m false (b0 :: 2 :: be16 m)
  | unsuback {b0 : UInt8} (h : b0 &&& mqttGetMsgType = mqttMsgTypeUnsuback) :
      Acks m false (b0 :: 2 :: be16 m)
  | granted {b0 qos : UInt8} (h : b0 &&& mqttGetMsgType = mqttMsgTypeSuback)
      (hqos : qos = 0 ∨ qos = 1 ∨ qos = 2) : Acks m false (b0 :: 3 :: (be16 m ++ [qos]))
  | refused {b0 : UInt8} (h : b0 &&& mqttGetMsgType = mqttMsgTypeSuback) :
      Acks m true (b0 :: 3 :: (be16 m ++ [mqttOptQosFailure]))

/-- The type byte decides which reader gets the packet. -/
theorem mqttMsgCmdGet_of_type {b0 type : UInt8} (hb : b0 &&& mqttGetMsgType = type)
    (htype : type = mqttMsgTypePuback ∨ type = mqttMsgTypeSuback ∨ type = mqttMsgTypeUnsuback)
    (rest : List UInt8) : mqttMsgCmdGet (b0 :: rest) = some type := by
  rw [mqttMsgCmdGet, List.getElem?_cons_zero]
  simp only [Option.bind_eq_bind, Option.bind_some, hb]
  rcases htype with rfl | rfl | rfl <;> rfl

/-- The id is where the readers look for it. -/
theorem loadWord16_be16 (b0 b1 : UInt8) (m : UInt16) (rest : List UInt8) :
    ∃ w, loadWord16 (b0 :: b1 :: (m >>> 8).toUInt8 :: m.toUInt8 :: rest) 2 = some w
      ∧ swap16 w = m := by
  have hload : load (b0 :: b1 :: (m >>> 8).toUInt8 :: m.toUInt8 :: rest) 2 2 = some (be16 m) :=
    load_append [b0, b1] (be16 m) rest
  refine ⟨hostWord16 (m >>> 8).toUInt8 m.toUInt8, ?_, ?_⟩
  · rw [loadWord16, hload]
    rfl
  · rw [swap16_hostWord16, word16_be16]

theorem Acks.cmd {m : UInt16} {refused : Bool} {data : List UInt8} (h : Acks m refused data) :
    ∃ cmd, mqttMsgCmdGet data = some cmd ∧ cmd ≠ mqttMsgTypePublish := by
  cases h with
  | puback h => exact ⟨_, mqttMsgCmdGet_of_type h (by simp) _, by decide⟩
  | unsuback h => exact ⟨_, mqttMsgCmdGet_of_type h (by simp) _, by decide⟩
  | granted h hqos => exact ⟨_, mqttMsgCmdGet_of_type h (by simp) _, by decide⟩
  | refused h => exact ⟨_, mqttMsgCmdGet_of_type h (by simp) _, by decide⟩

/-- The readers read the id. -/
theorem Acks.process {m : UInt16} {data : List UInt8} (h : Acks m false data) (env : ProcessEnv)
    (client : MqttAsyncClient γ κ) :
    mqttAsyncHandlerProcess env client data = mqttAsyncHandlerAck client (some (.ok m)) := by
  generalize hrefused : false = refused at h
  cases h with
  | @puback b0 h =>
    obtain ⟨w, hload, hm⟩ := loadWord16_be16 b0 2 m []
    have hread : mqttMsgProcessPuback (b0 :: 2 :: be16 m) = some (.ok m) := by
      simp [mqttMsgProcessPuback, be16, h, hload, hm]
    rw [mqttAsyncHandlerProcess, mqttMsgCmdGet_of_type h (by simp), hread]
    rfl
  | @unsuback b0 h =>
    obtain ⟨w, hload, hm⟩ := loadWord16_be16 b0 2 m []
    have hread : mqttMsgProcessUnsuback (b0 :: 2 :: be16 m) = some (.ok m) := by
      simp [mqttMsgProcessUnsuback, be16, h, hload, hm]
    rw [mqttAsyncHandlerProcess, mqttMsgCmdGet_of_type h (by simp), hread]
    rfl
  | @granted b0 qos h hqos =>
    obtain ⟨w, hload, hm⟩ := loadWord16_be16 b0 3 m [qos]
    have hbit : qos &&& mqttOptQosFailure = 0 := by rcases hqos with rfl | rfl | rfl <;> rfl
    have hread : mqttMsgProcessSuback (b0 :: 3 :: (be16 m ++ [qos])) = some (.ok (m, qos)) := by
      simp [mqttMsgProcessSuback, be16, h, hload, hm, hbit]
    rw [mqttAsyncHandlerProcess, mqttMsgCmdGet_of_type h (by simp), hread]
    rfl
  | refused h => cases hrefused

/-- …but a refusal ends in an error. -/
theorem Acks.process_refused {m : UInt16} {data : List UInt8} (h : Acks m true data)
    (env : ProcessEnv) (client : MqttAsyncClient γ κ) :
    mqttAsyncHandlerProcess env client data
      = some ⟨errMqttMsgSubackQosFailure, client, none, none⟩ := by
  generalize hrefused : true = refused at h
  cases h with
  | @refused b0 h =>
    obtain ⟨w, hload, hm⟩ := loadWord16_be16 b0 3 m [mqttOptQosFailure]
    have hbit : mqttOptQosFailure ≠ 0 := by decide
    have hread : mqttMsgProcessSuback (b0 :: 3 :: (be16 m ++ [mqttOptQosFailure]))
        = some (.error errMqttMsgSubackQosFailure) := by
      simp [mqttMsgProcessSuback, be16, h, hload, hbit]
    rw [mqttAsyncHandlerProcess, mqttMsgCmdGet_of_type h (by simp), hread]
    rfl
  | _ => cases hrefused

/-! ## What becomes of the record -/

namespace AsyncSystem

variable {params : MqttConnectParams} {s t : AsyncSystem γ κ}

/-- `_mqtt_async_handler_process` of an acknowledgement, with the callback of `mqtt_qos_signal`, and
nobody else on the way. -/
def acknowledge (params : MqttConnectParams) (s : AsyncSystem γ κ) (input : HandlerInput)
    (data : List UInt8) : Option (AsyncSystem γ κ) :=
  (s.handlerStep params input (.process data)).bind fun t =>
    match t.handler with
    | .signalCallback r => t.handlerStep params input (.signalCallback r)
    | _ => some t

/-- The record of `m` is taken out, its callback is called once, with a status that tells a refusal,
and all other records stay. -/
def Settles (params : MqttConnectParams) (s : AsyncSystem γ κ) (input : HandlerInput)
    (data : List UInt8) (m : UInt16) (refused : Bool) : Prop :=
  ∃ t r status, s.acknowledge params input data = some t ∧ t.handler = .expired
    ∧ r.msgId = m ∧ s.client.qos.used.Perm (r :: t.client.qos.used)
    ∧ t.history.invoked
      = (r.callback.toList.map fun k => ⟨k, r.custom, status⟩) ++ s.history.invoked
    ∧ (refused ↔ status ≠ 0)

/-- The place behind an acknowledgement's reader. -/
theorem process_ack {env : ProcessEnv} {data : List UInt8} {refused : Bool} {m : UInt16}
    (hack : Acks m refused data) {done : Processed γ κ}
    (hdone : mqttAsyncHandlerProcess env s.client data = some done) :
    s.process env data = some (match done.released with
      | none => { s with client := done.client }.goto .expired
      | some r => ({ s with client := done.client }.release r).goto (.signalCallback r)) := by
  obtain ⟨cmd, hcmd, hne⟩ := hack.cmd
  unfold process
  simp only [hcmd, if_neg hne, hdone]
  cases done.released <;> rfl

/-- **An acknowledgement settles its record exactly when it refuses nothing.** -/
theorem settles_iff (params : MqttConnectParams) (s : AsyncSystem γ κ) (input : HandlerInput)
    {m : UInt16} {refused : Bool} {data : List UInt8} (hcounted : s.client.qos.Counted)
    (hnodup : (s.client.qos.used.map (·.msgId)).Nodup) (hack : Acks m refused data)
    (hm : m ∈ s.client.qos.used.map (·.msgId)) :
    s.Settles params input data m refused ↔ refused = false := by
  obtain ⟨r, hr, rfl⟩ := List.mem_map.mp hm
  constructor
  · rintro ⟨t, r', status, hrun, -, -, hperm, -, -⟩
    by_contra hrefused
    obtain rfl : refused = true := by simpa using hrefused
    have hprocess := process_ack hack (hack.process_refused input.env s.client)
    simp only [acknowledge, handlerStep, hprocess, Option.bind_some] at hrun
    obtain rfl := Option.some.inj hrun
    -- the table is as it was, and so is its length
    have hlen := hperm.length_eq
    simp [goto] at hlen
  · rintro rfl
    obtain ⟨⟨ret, qos, released⟩, hsignal⟩ :
      ∃ res, mqttQosSignal s.client.qos r.msgId = res := ⟨_, rfl⟩
    have hreleased := mqttQosSignal_of_nodup hcounted hnodup hr
    rw [hsignal] at hreleased
    obtain rfl : released = some r := hreleased
    have hdone : mqttAsyncHandlerProcess input.env s.client data
        = some ⟨0, { s.client with qos := qos }, none, some r⟩ := by
      rw [hack.process, mqttAsyncHandlerAck, hsignal]
    have hprocess := process_ack hack hdone
    have hused : s.client.qos.used.Perm (r :: qos.used) := by
      rcases mqttQosSignal_cases hsignal with ⟨r', hr', -, -, hperm, -⟩ | ⟨hnone, -⟩
      · rwa [← Option.some.inj hr'] at hperm
      · cases hnone
    have hrun : s.acknowledge params input data
        = some (((({ s with client.qos := qos }.release r).goto (.signalCallback r)).invoke r
          0).goto .expired) := by
      simp only [acknowledge, handlerStep, hprocess, Option.bind_some]
      rfl
    exact ⟨_, r, 0, hrun, rfl, rfl, hused, rfl, by simp⟩

end AsyncSystem

/-! ## A refused subscription -/

namespace AsyncSystem

/-- A client that has subscribed to something, with the id `5`. -/
def subscribed : AsyncSystem Unit Unit :=
  { init with client.qos := (mqttQosAdd (mqttQosCreate 1 30) 0 5 (some ()) none).2 }

/-- The subscription is granted, and settled… -/
theorem settles_granted :
    subscribed.Settles .anonymous .acknowledged [0x90, 3, 0, 5, 1] 5 false ↔ false = false :=
  settles_iff .anonymous subscribed .acknowledged (by unfold MqttQos.Counted; decide) (by decide)
    (.granted (by decide) (by decide)) (by decide)

/-- …or refused, and left in the table. -/
theorem not_settles_refused :
    ¬ ∀ (s : AsyncSystem Unit Unit) (input : HandlerInput) (m : UInt16) (refused : Bool)
      (data : List UInt8), s.client.qos.Counted → (s.client.qos.used.map (·.msgId)).Nodup →
      Acks m refused data → m ∈ s.client.qos.used.map (·.msgId) →
      s.Settles .anonymous input data m refused := by
  intro h
  obtain ⟨t, r, status, hrun, -, -, hperm, -⟩ := h subscribed .acknowledged 5 true
    [0x90, 3, 0, 5, 0x80] (by unfold MqttQos.Counted; decide) (by decide) (.refused (by decide))
    (by decide)
  have heval : (subscribed.acknowledge .anonymous .acknowledged [0x90, 3, 0, 5, 0x80]).map
      (·.client.qos.used.length) = some 1 := by decide +kernel
  have hone : t.client.qos.used.length = 1 := by simpa [hrun] using heval
  have hlen := hperm.length_eq
  rw [List.length_cons, hone] at hlen
  exact absurd hlen (by decide)

end AsyncSystem

end Tr50
