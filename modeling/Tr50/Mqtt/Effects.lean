import Tr50.Mqtt.Handler

/-!
# Mqtt/Effects — what one step of the asynchronous client does

`step_effect` inverts a step once: whoever takes it and wherever it stands, it is one of the
constructors of `Effect`, each with the tests it has passed.  The places of the receive thread
matter to the others only as far as `Moves` tells them apart.
-/

namespace Tr50

open Machinery

variable {γ κ : Type}

/-! ## Places -/

namespace HandlerPc

/-- Between two tasks, or inside one that has neither a lock nor a record to call back. -/
def plain : HandlerPc γ κ → Bool
  | absent | ended | signalCallback _ | clearEntry _ | clear _ _ | clearCallback _ _ _
  | connecting _ => false
  | _ => true

/-- The connection is going to be used. -/
def usesMqtt : HandlerPc γ κ → Bool
  | recv | process _ | puback _ | ping => true
  | _ => false

theorem alive_of_plain {pc : HandlerPc γ κ} (h : pc.plain) : pc.alive := by
  cases pc <;> simp_all [plain, alive]

theorem hasMux_of_plain {pc : HandlerPc γ κ} (h : pc.plain) : pc.hasMux = false := by
  cases pc <;> simp_all [plain, hasMux]

end HandlerPc

/-- The receive thread goes from one place to the next, and nothing that others see changes. -/
inductive Moves (client : MqttAsyncClient γ κ) : HandlerPc γ κ → HandlerPc γ κ → Prop
  | plain {pc pc' : HandlerPc γ κ} (h : pc.plain) (h' : pc'.plain)
      (huse : pc'.usesMqtt → pc.usesMqtt ∨ client.state = .connected) : Moves client pc pc'
  | stop (h : client.state = .deleting ∨ client.state = .disabled) :
      Moves client .loop (.clearEntry true)
  | empty (last : Bool) (h : client.qos.currentSize = 0) :
      Moves client (.clearEntry last) (.afterClear last)
  | enter (last : Bool) : Moves client (.clearEntry last) (.clear last 0)
  | skip (last : Bool) (i : ℕ) (h : ∀ r, client.qos.records[i]? = some r → r.isUsed = false) :
      Moves client (.clear last i) (.clear last (i + 1))
  | done (last : Bool) (i : ℕ) (h : client.qos.records.length ≤ i) :
      Moves client (.clear last i) (.afterClear last)

/-- What a callback is invoked for, and with which status. -/
inductive Invokes : HandlerPc γ κ → MqttQosRecord γ κ → ℤ → HandlerPc γ κ → Prop
  | signal (r : MqttQosRecord γ κ) : Invokes (.signalCallback r) r 0 .expired
  | clear (last : Bool) (r : MqttQosRecord γ κ) (i : ℕ) :
      Invokes (.clearCallback last r i) r (clearStatus last) (.clear last (i + 1))

/-- At most one packet has been sent on `sock`. -/
def SentOn (sock : ℕ) (log log' : List LinkEvent) : Prop :=
  log' = log ∨ ∃ packet, log' = .sent sock packet :: log

/-! ## Effects -/

namespace AsyncSystem

/-- What a step does. -/
inductive Effect (params : MqttConnectParams) (s : AsyncSystem γ κ) :
    AsyncAction γ κ → AsyncSystem γ κ → Prop
  /-- A request is turned away. -/
  | idle {a} : Effect params s a s
  | created {a} (hmain : s.main = .created) :
      Effect params s a { s.report .created .connecting 0 "MQTT Client created." with
        main := .connecting }
  | connected {input} (hmain : s.main = .connecting) (mqtt : MqttClient) (links : List LinkEvent)
      (h : mqttConnect input.connect params s.nextSock s.history.links = some (.ok mqtt, links)) :
      Effect params s (.main input) (report { s with
        client.mqtt := some mqtt
        main := .starting
        nextSock := s.nextSock + 1
        history.links := links } .connecting .connected 0 "MQTT Client connected.")
  | unconnected {input} (hmain : s.main = .connecting) (ret : ℤ) (links : List LinkEvent)
      (h : mqttConnect input.connect params s.nextSock s.history.links
        = some (.error ret, links)) :
      Effect params s (.main input) (report { s with
        main := .starting
        nextSock := s.nextSock + 1
        history.links := links } .connecting .broken ret "MQTT Client broken.")
  | started {a} (hmain : s.main = .starting) :
      Effect params s a { s with main := .running, handler := .starting }
  | disconnect {a} (hmain : s.main = .starting ∨ s.main = .running) :
      Effect params s a { s with main := .disconnect }
  | deleting {a} (hmain : s.main = .disconnect) (hfree : s.MuxFree) :
      Effect params s a { s.report s.client.state .deleting 0 "MQTT Client disconnecting..." with
        main := .join }
  | joined {a} (hmain : s.main = .join) (hdead : s.handler.alive = false) :
      Effect params s a { s with main := .close }
  | unopened {a} (hmain : s.main = .close) (hmqtt : s.client.mqtt = none) :
      Effect params s a { s with main := .delete }
  | closed {input} (hmain : s.main = .close) (mqtt : MqttClient) (hmqtt : s.client.mqtt = some mqtt)
      (ret : ℤ) (links : List LinkEvent)
      (h : mqttDisconnect input.env mqtt s.history.links = some (ret, links)) :
      Effect params s (.main input) { s with main := .delete, history.links := links }
  | deleted {a} (hmain : s.main = .delete) :
      Effect params s a { s.report s.client.state .deleted 0 "MQTT Client disconnected." with
        main := .deleted }
  | enter {a} (call : AsyncCall γ κ) (hfree : s.MuxFree) (hstate : s.client.state = .connected)
      (hmqtt : s.client.mqtt.isSome) (hpc : call.pc = .add) :
      Effect params s a { s with call := some call }
  | full {a} (call : AsyncCall γ κ) (hcall : s.call = some call) :
      Effect params s a { s with client.msgIdSeq := s.client.msgIdSeq + 1, call := none }
  | counted {a} (call call' : AsyncCall γ κ) (hcall : s.call = some call) :
      Effect params s a { s with client.msgIdSeq := s.client.msgIdSeq + 1, call := some call' }
  | added {a} (call call' : AsyncCall γ κ) (hcall : s.call = some call) (now : ℤ)
      (record : Option γ × Option κ) (qos : MqttQos γ κ) (hqos : s.handler.hasQos = false)
      (h : mqttQosAdd s.client.qos now (UInt16.ofInt s.client.msgIdSeq) record.1 record.2
        = (0, qos)) :
      Effect params s a { s with
        client.msgIdSeq := s.client.msgIdSeq + 1
        client.qos := qos
        call := some call'
        history.added := s.recordKey record :: s.history.added }
  | requested {a} (call : AsyncCall γ κ) (hcall : s.call = some call) (mqtt mqtt' : MqttClient)
      (hmqtt : s.client.mqtt = some mqtt) (hsock : mqtt'.sock = mqtt.sock) (ret : ℤ)
      (links : List LinkEvent) (h : SentOn mqtt.sock s.history.links links) :
      Effect params s a { s with
        client := mqttAsyncSent s.client ret mqtt'
        call := none
        history.links := links }
  | moved {a} (pc : HandlerPc γ κ) (threadId ping : ℤ) (h : Moves s.client s.handler pc) :
      Effect params s a { s.goto pc with
        client.threadId := threadId
        client.outstandingPing := ping }
  | received {a} (mqtt : MqttClient) (hmqtt : s.client.mqtt = some mqtt) (answer : RecvAnswer)
      (hpc : s.handler = .recv) :
      Effect params s a (s.recv mqtt answer)
  | broke {a} (error : ℤ) (why : String) (pc : HandlerPc γ κ) (ping : ℤ) (hfree : s.MuxFree)
      (hpc : s.handler.plain) (hpc' : pc.plain ∨ pc = .clearEntry false)
      (huse : pc.usesMqtt = false) :
      Effect params s a { (s.broken error why).goto pc with client.outstandingPing := ping }
  | sent {a} (mqtt mqtt' : MqttClient) (hmqtt : s.client.mqtt = some mqtt)
      (hsock : mqtt'.sock = mqtt.sock) (links : List LinkEvent)
      (h : SentOn mqtt.sock s.history.links links) (pc : HandlerPc γ κ) (ping : ℤ)
      (hpc : s.handler.plain) (hpc' : pc.plain) (huse : pc.usesMqtt = false) :
      Effect params s a { s.goto pc with
        client.mqtt := some mqtt'
        client.outstandingPing := ping
        history.links := links }
  | signalled {a} (data : List UInt8) (hpc : s.handler = .process data) (msgId : UInt16)
      (r : MqttQosRecord γ κ) (ret : ℤ) (qos : MqttQos γ κ)
      (h : mqttQosSignal s.client.qos msgId = (ret, qos, some r)) :
      Effect params s a (({ s with client.qos := qos }.release r).goto (.signalCallback r))
  | invoked {a} (r : MqttQosRecord γ κ) (status : ℤ) (pc : HandlerPc γ κ)
      (h : Invokes s.handler r status pc) :
      Effect params s a ((s.invoke r status).goto pc)
  | scanned {a} (now : ℤ) (found : Bool) (qos : MqttQos γ κ) (pc : HandlerPc γ κ)
      (h : mqttQosAnyExpired s.client.qos now = (found, qos)) (hpc : s.handler.plain)
      (hpc' : pc.plain) (huse : pc.usesMqtt = false) :
      Effect params s a ({ s with client.qos := qos }.goto pc)
  | cleared {a} (last : Bool) (i : ℕ) (hpc : s.handler = .clear last i) (r : MqttQosRecord γ κ)
      (qos : MqttQos γ κ) (h : mqttQosClearStep s.client.qos i = (qos, some r)) :
      Effect params s a (({ s with client.qos := qos }.release r).goto (.clearCallback last r i))
  | reopened {input} (total : ℤ) (hpc : s.handler = .reconnectLock total) (hfree : s.MuxFree)
      (hstate : s.client.state = .broken) (links : List LinkEvent)
      (h : s.client.mqtt = none ∧ links = s.history.links
        ∨ ∃ mqtt ret, s.client.mqtt = some mqtt
          ∧ mqttDisconnect input.env.toSendEnv mqtt s.history.links = some (ret, links)) :
      Effect params s (.handler input)
        ((report { s with client.mqtt := none, history.links := links }
        .broken .reconnecting 0 "MQTT Reconnecting...").goto (.connecting total))
  | reconnected {input} (total : ℤ) (hpc : s.handler = .connecting total) (mqtt : MqttClient)
      (links : List LinkEvent)
      (h : mqttConnect input.connect params s.nextSock s.history.links = some (.ok mqtt, links)) :
      Effect params s (.handler input) ((report { s with
        client.mqtt := some mqtt
        nextSock := s.nextSock + 1
        history.links := links } .reconnecting .connected 0 "MQTT Reconnected.").goto .loop)
  | unreconnected {input} (total : ℤ) (hpc : s.handler = .connecting total) (ret : ℤ)
      (links : List LinkEvent)
      (h : mqttConnect input.connect params s.nextSock s.history.links
        = some (.error ret, links)) :
      Effect params s (.handler input)
        ((report { s with nextSock := s.nextSock + 1, history.links := links }
        .reconnecting .broken ret "MQTT Client broken.  Reconnect failed.").goto
          (.waiting total 0))

/-! ## Inversion -/

section Inversion

variable {params : MqttConnectParams} {s t : AsyncSystem γ κ}

/-- A sender keeps its socket, and sends at most one packet. -/
theorem send_effect {env : SendEnv} {mqtt mqtt' : MqttClient} {req : MqttRequest} {ret : ℤ}
    (h : req.run env mqtt = some (ret, mqtt')) :
    mqtt'.sock = mqtt.sock
    ∧ SentOn mqtt.sock s.history.links (s.send mqtt mqtt').history.links := by
  rw [MqttRequest.run_eq] at h
  refine ⟨?_, ?_⟩
  · unfold mqttSendMsg at h
    split at h
    · cases h
    · obtain ⟨rfl, rfl⟩ := Prod.mk.inj (Option.some.inj h)
      rfl
    · rename_i packet _
      rw [show mqtt' = (mqttSend env mqtt packet).2 from
        (congrArg Prod.snd (Option.some.inj h)).symm, mqttSend_sock]
  · rcases mqttSendMsg_cases h with ⟨packet, -, -, hsent⟩ | ⟨-, rfl⟩
    · exact Or.inr ⟨packet, by simp [send, hsent]⟩
    · exact Or.inl (by simp [send])

theorem main_effect {input : MainInput} (h : s.mainStep params input s.main = some t) :
    Effect params s (.main input) t := by
  unfold mainStep at h
  split at h
  · rename_i hmain
    obtain rfl := Option.some.inj h
    exact .created hmain
  · rename_i hmain
    unfold connect at h
    split at h
    · cases h
    · rename_i ret links hconnect
      obtain rfl := Option.some.inj h
      exact .unconnected hmain ret links hconnect
    · rename_i mqtt links hconnect
      obtain rfl := Option.some.inj h
      exact .connected hmain mqtt links hconnect
  · rename_i hmain
    split_ifs at h <;> obtain rfl := Option.some.inj h
    · exact .disconnect (Or.inl hmain)
    · exact .started hmain
  · rename_i hmain
    obtain rfl := Option.some.inj h
    exact .disconnect (Or.inr hmain)
  · rename_i hmain
    split_ifs at h with hfree
    obtain rfl := Option.some.inj h
    exact .deleting hmain hfree
  · rename_i hmain
    split_ifs at h with halive
    obtain rfl := Option.some.inj h
    exact .joined hmain (by simpa using halive)
  · rename_i hmain
    unfold close at h
    split at h
    · rename_i hmqtt
      obtain rfl := Option.some.inj h
      exact .unopened hmain hmqtt
    · rename_i mqtt hmqtt
      split at h
      · cases h
      · rename_i ret links hclose
        obtain rfl := Option.some.inj h
        exact .closed hmain mqtt hmqtt ret links hclose
  · rename_i hmain
    obtain rfl := Option.some.inj h
    exact .deleted hmain
  · cases h

theorem request_effect {env : RequestEnv} {req : AsyncRequest γ κ}
    (h : s.request env req = some t) : Effect params s (.request env req) t := by
  unfold request at h
  split_ifs at h with hthread hfree hconn <;> obtain rfl := Option.some.inj h
  · exact .idle
  · exact .idle
  · have hstate : s.client.state = .connected := by
      by_contra hstate
      exact hconn (by simp [mqttAsyncConnection, hstate])
    refine .enter _ hfree hstate ?_ rfl
    simpa [mqttAsyncConnection, hstate, Option.isSome_iff_ne_none] using hconn

theorem call_effect {call : AsyncCall γ κ} (hcall : s.call = some call)
    (h : s.callStep call = some t) : Effect params s .call t := by
  unfold callStep at h
  split at h
  · unfold callAdd at h
    split_ifs at h with hqos
    cases hrecord : call.request.record with
    | none =>
      simp only [hrecord, mqttAsyncAddRecord, ne_eq, not_true_eq_false, if_false] at h
      obtain rfl := Option.some.inj h
      exact .counted call _ hcall
    | some record =>
      have hfree : s.handler.hasQos = false := by simpa [hrecord] using hqos
      obtain ⟨⟨ret, qos⟩, hadd⟩ : ∃ res, mqttQosAdd s.client.qos call.env.now
        (UInt16.ofInt s.client.msgIdSeq) record.1 record.2 = res := ⟨_, rfl⟩
      simp only [hrecord, mqttAsyncAddRecord, hadd] at h
      rcases mqttQosAdd_cases hadd with ⟨rfl, -⟩ | ⟨hret, rfl, -⟩
      · simp only [ne_eq, not_true_eq_false, if_false] at h
        obtain rfl := Option.some.inj h
        exact .added call _ hcall call.env.now record qos hfree hadd
      · rw [if_pos (by rw [hret]; decide)] at h
        obtain rfl := Option.some.inj h
        exact .full call hcall
  · unfold callSend at h
    split at h
    · cases h
    · rename_i mqtt hmqtt
      split at h
      · cases h
      · rename_i ret mqtt' hrun
        obtain rfl := Option.some.inj h
        obtain ⟨hsock, hsent⟩ := send_effect (s := s) hrun
        exact .requested call hcall mqtt mqtt' hmqtt hsock ret _ hsent

/-- Between two plain places nothing happens. -/
theorem Effect.go {a : AsyncAction γ κ} {pc : HandlerPc γ κ} (h : Moves s.client s.handler pc) :
    Effect params s a (s.goto pc) :=
  .moved pc s.client.threadId s.client.outstandingPing h

/-- Where the pings stay as they are. -/
theorem Effect.lost {a : AsyncAction γ κ} (error : ℤ) (why : String) {pc : HandlerPc γ κ}
    (hfree : s.MuxFree) (hpc : s.handler.plain) (hpc' : pc.plain ∨ pc = .clearEntry false)
    (huse : pc.usesMqtt = false) : Effect params s a ((s.broken error why).goto pc) := by
  have heq : { (s.broken error why).goto pc with
      client.outstandingPing := s.client.outstandingPing } = (s.broken error why).goto pc := by
    unfold broken mqttAsyncBreak
    split_ifs <;> rfl
  rw [← heq]
  exact .broke error why pc s.client.outstandingPing hfree hpc hpc' huse

/-- Outside a PUBLISH, `_mqtt_async_handler_process` clears the pings, releases a record, or does
nothing. -/
theorem mqttAsyncHandlerProcess_cases {env : ProcessEnv} {client : MqttAsyncClient γ κ}
    {data : List UInt8} {cmd : UInt8} {done : Processed γ κ} (hcmd : mqttMsgCmdGet data = some cmd)
    (hne : cmd ≠ mqttMsgTypePublish)
    (h : mqttAsyncHandlerProcess env client data = some done) :
    (done.released = none ∧ ∃ ping, done.client = { client with outstandingPing := ping })
    ∨ ∃ msgId r ret qos, mqttQosSignal client.qos msgId = (ret, qos, some r)
        ∧ done.released = some r ∧ done.client = { client with qos := qos } := by
  have hack : ∀ read, mqttAsyncHandlerAck client read = some done →
      (done.released = none ∧ ∃ ping, done.client = { client with outstandingPing := ping })
      ∨ ∃ msgId r ret qos, mqttQosSignal client.qos msgId = (ret, qos, some r)
        ∧ done.released = some r ∧ done.client = { client with qos := qos } := by
    intro read hread
    unfold mqttAsyncHandlerAck at hread
    split at hread
    · cases hread
    · obtain rfl := Option.some.inj hread
      exact Or.inl ⟨rfl, client.outstandingPing, rfl⟩
    · rename_i msgId
      obtain ⟨⟨ret, qos, released⟩, hsignal⟩ :
        ∃ res, mqttQosSignal client.qos msgId = res := ⟨_, rfl⟩
      rw [hsignal] at hread
      obtain rfl := Option.some.inj hread
      rcases mqttQosSignal_cases hsignal with ⟨r, rfl, -⟩ | ⟨rfl, -, rfl⟩
      · exact Or.inr ⟨msgId, r, ret, qos, hsignal, rfl, rfl⟩
      · exact Or.inl ⟨rfl, client.outstandingPing, rfl⟩
  unfold mqttAsyncHandlerProcess at h
  simp only [hcmd, if_neg hne] at h
  split_ifs at h
  · obtain rfl := Option.some.inj h
    exact Or.inl ⟨rfl, 0, rfl⟩
  · exact hack _ h
  · exact hack _ h
  · exact hack _ h
  · obtain rfl := Option.some.inj h
    exact Or.inl ⟨rfl, client.outstandingPing, rfl⟩

theorem process_effect {a : AsyncAction γ κ} {env : ProcessEnv} {data : List UInt8}
    (hpc : s.handler = .process data) (h : s.process env data = some t) : Effect params s a t := by
  have hgo : ∀ {pc : HandlerPc γ κ}, pc.plain → Moves s.client s.handler pc := fun {pc} hplain => by
    rw [hpc]
    exact .plain rfl hplain fun _ => Or.inl rfl
  unfold process at h
  split at h
  · cases h
  rename_i cmd hcmd
  split_ifs at h with hpublish
  · split at h
    · cases h
    · obtain rfl := Option.some.inj h
      exact .go (hgo rfl)
    · obtain rfl := Option.some.inj h
      refine .go (hgo ?_)
      split_ifs <;> rfl
  · split at h
    · cases h
    rename_i done hdone
    rcases mqttAsyncHandlerProcess_cases hcmd hpublish hdone with
      ⟨hnone, ping, hclient⟩ | ⟨msgId, r, ret, qos, hsignal, hsome, hclient⟩
    · simp only [hnone, hclient] at h
      obtain rfl := Option.some.inj h
      exact .moved .expired s.client.threadId ping (hgo rfl)
    · simp only [hsome, hclient] at h
      obtain rfl := Option.some.inj h
      exact .signalled data hpc msgId r ret qos hsignal

theorem clearSlot_effect {a : AsyncAction γ κ} {last : Bool} {i : ℕ}
    (hpc : s.handler = .clear last i) : Effect params s a (s.clearSlot last i) := by
  unfold clearSlot
  split_ifs with hi
  · split
    · rename_i qos hstep
      refine .go ?_
      rw [hpc]
      rcases mqttQosClearStep_cases hstep with ⟨r, hr, -⟩ | ⟨-, -, hunused⟩
      · cases hr
      · exact .skip last i hunused
    · rename_i qos r hstep
      exact .cleared last i hpc r qos hstep
  · refine .go ?_
    rw [hpc]
    exact .done last i (by omega)

theorem ping_effect {a : AsyncAction γ κ} {env : SendEnv} {now : ℤ} (hpc : s.handler = .ping)
    (h : s.ping params env now = some t) : Effect params s a t := by
  unfold ping at h
  split at h
  · cases h
  rename_i mqtt hmqtt
  split_ifs at h with hdue
  · split at h
    · cases h
    rename_i ret mqtt' hping
    have hrun : MqttRequest.ping.run env mqtt = some (ret, mqtt') := hping
    obtain ⟨hsock, hsent⟩ := send_effect (s := s) hrun
    split_ifs at h <;> obtain rfl := Option.some.inj h
    · exact .sent mqtt mqtt' hmqtt hsock _ hsent .pingFailed s.client.outstandingPing
        (by rw [hpc]; rfl) rfl rfl
    · exact .sent mqtt mqtt' hmqtt hsock _ hsent (.reconnect 0) (s.client.outstandingPing + 1)
        (by rw [hpc]; rfl) rfl rfl
  · obtain rfl := Option.some.inj h
    refine .go ?_
    rw [hpc]
    exact .plain rfl rfl (by simp [HandlerPc.usesMqtt])

theorem puback_effect {input : HandlerInput} {msg : PublishMsg} (hpc : s.handler = .puback msg)
    (h : s.puback input.env.toSendEnv msg = some t) : Effect params s (.handler input) t := by
  unfold puback at h
  split at h
  · cases h
  rename_i mqtt hmqtt
  split at h
  · cases h
  rename_i ret mqtt' hpuback
  obtain rfl := Option.some.inj h
  have hrun : (MqttRequest.puback (msg.msgId.getD 0) msg.qos).run input.env.toSendEnv mqtt
      = some (ret, mqtt') := hpuback
  obtain ⟨hsock, hsent⟩ := send_effect (s := s) hrun
  exact .sent mqtt mqtt' hmqtt hsock _ hsent (.publishCallback msg) s.client.outstandingPing
    (by rw [hpc]; rfl) rfl rfl

theorem reopen_effect {input : HandlerInput} {total : ℤ} (hpc : s.handler = .reconnectLock total)
    (hfree : s.MuxFree) (hbroken : s.client.state = .broken)
    (h : s.reopen input.env.toSendEnv total = some t) : Effect params s (.handler input) t := by
  unfold reopen at h
  split at h
  · rename_i hmqtt
    obtain rfl := Option.some.inj h
    have hreopen : Effect params s (.handler input) _ :=
      .reopened total hpc hfree hbroken s.history.links (Or.inl ⟨hmqtt, rfl⟩)
    rw [← hmqtt] at hreopen
    exact hreopen
  · rename_i mqtt hmqtt
    split at h
    · cases h
    rename_i ret links hclose
    obtain rfl := Option.some.inj h
    exact .reopened total hpc hfree hbroken links (Or.inr ⟨mqtt, ret, hmqtt, hclose⟩)

theorem reconnect_effect {input : HandlerInput} {total : ℤ} (hpc : s.handler = .connecting total)
    (h : s.reconnect params input.connect total = some t) : Effect params s (.handler input) t := by
  unfold reconnect at h
  split at h
  · cases h
  · rename_i mqtt links hconnect
    obtain rfl := Option.some.inj h
    exact .reconnected total hpc mqtt links hconnect
  · rename_i ret links hconnect
    obtain rfl := Option.some.inj h
    exact .unreconnected total hpc ret links hconnect

theorem handler_effect {input : HandlerInput}
    (h : s.handlerStep params input s.handler = some t) : Effect params s (.handler input) t := by
  have hgo : ∀ {pc : HandlerPc γ κ}, s.handler.plain → pc.plain → pc.usesMqtt = false →
      Effect params s (.handler input) (s.goto pc) := fun hplain hplain' huse =>
    .go (.plain hplain hplain' fun h => by rw [huse] at h; cases h)
  generalize hpc : s.handler = pc at h
  cases pc with
  | absent => simp [handlerStep] at h
  | starting =>
    obtain rfl := Option.some.inj h
    refine .moved .loop _ s.client.outstandingPing ?_
    rw [hpc]
    exact .plain rfl rfl (by simp [HandlerPc.usesMqtt])
  | loop =>
    obtain rfl := Option.some.inj h
    split_ifs with hstate
    · refine .go ?_
      rw [hpc]
      exact .stop hstate
    · exact hgo (by rw [hpc]; rfl) rfl rfl
  | test =>
    obtain rfl := Option.some.inj h
    refine .go ?_
    rw [hpc]
    split_ifs with hstate
    · exact .plain rfl rfl fun _ => Or.inr hstate
    · exact .plain rfl rfl (by simp [HandlerPc.usesMqtt])
  | recv =>
    obtain ⟨mqtt, hmqtt, rfl⟩ := Option.map_eq_some_iff.mp h
    exact .received mqtt hmqtt input.answer hpc
  | recvFailed =>
    simp only [handlerStep] at h
    split_ifs at h with hfree
    obtain rfl := Option.some.inj h
    exact .lost s.ret _ hfree (by rw [hpc]; rfl) (Or.inl rfl) rfl
  | process data =>
    exact process_effect hpc h
  | puback msg =>
    simp only [handlerStep] at h
    split_ifs at h with hfree
    exact puback_effect hpc h
  | publishCallback msg =>
    obtain rfl := Option.some.inj h
    exact hgo (by rw [hpc]; rfl) rfl rfl
  | signalCallback r =>
    obtain rfl := Option.some.inj h
    exact .invoked r 0 _ (by rw [hpc]; exact .signal r)
  | expired =>
    obtain rfl := Option.some.inj h
    refine .scanned input.now _ _ _ rfl (by rw [hpc]; rfl) ?_ ?_ <;> split_ifs <;> rfl
  | ackLost =>
    simp only [handlerStep] at h
    split_ifs at h with hfree
    obtain rfl := Option.some.inj h
    exact .lost s.ret _ hfree (by rw [hpc]; rfl) (Or.inr rfl) rfl
  | clearEntry last =>
    obtain rfl := Option.some.inj h
    refine .go ?_
    rw [hpc]
    split_ifs with hsize
    · exact .empty last hsize
    · exact .enter last
  | clear last i =>
    obtain rfl := Option.some.inj h
    exact clearSlot_effect hpc
  | clearCallback last r i =>
    obtain rfl := Option.some.inj h
    exact .invoked r _ _ (by rw [hpc]; exact .clear last r i)
  | keepalive =>
    obtain rfl := Option.some.inj h
    refine .go ?_
    rw [hpc]
    split_ifs with hstate hping
    · exact .plain rfl rfl (by simp [HandlerPc.usesMqtt])
    · exact .plain rfl rfl (by simp [HandlerPc.usesMqtt])
    · exact .plain rfl rfl fun _ => Or.inr (not_not.mp (not_or.mp hstate).1)
  | heartbeatLost =>
    simp only [handlerStep] at h
    split_ifs at h with hfree
    obtain rfl := Option.some.inj h
    exact .broke 0 _ (.reconnect 0) 0 hfree (by rw [hpc]; rfl) (Or.inl rfl) rfl
  | ping =>
    exact ping_effect hpc h
  | pingFailed =>
    simp only [handlerStep] at h
    split_ifs at h with hfree
    obtain rfl := Option.some.inj h
    exact .lost 0 _ hfree (by rw [hpc]; rfl) (Or.inl rfl) rfl
  | reconnect total =>
    obtain rfl := Option.some.inj h
    refine hgo (by rw [hpc]; rfl) ?_ ?_ <;> split_ifs <;> rfl
  | reconnectLock total =>
    simp only [handlerStep] at h
    split_ifs at h with hfree hstate
    · obtain rfl := Option.some.inj h
      exact hgo (by rw [hpc]; rfl) rfl rfl
    · exact reopen_effect hpc hfree (not_not.mp hstate) h
  | connecting total =>
    exact reconnect_effect hpc h
  | waiting total counter =>
    obtain rfl := Option.some.inj h
    refine hgo (by rw [hpc]; rfl) ?_ ?_ <;> split_ifs <;> rfl
  | ended => simp [handlerStep] at h

/-- **A step is one of the effects.** -/
theorem step_effect {a : AsyncAction γ κ} (h : s.step params a = some t) :
    Effect params s a t := by
  cases a with
  | main input => exact main_effect h
  | handler input => exact handler_effect h
  | request env req => exact request_effect h
  | call =>
    obtain ⟨call, hcall, hstep⟩ := Option.bind_eq_some_iff.mp h
    exact call_effect hcall hstep

end Inversion

end AsyncSystem

end Tr50
