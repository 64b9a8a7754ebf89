import Tr50.Machinery.Observed
import Tr50.Mqtt.Links
import Tr50.Mqtt.Turns

/-!
# Mqtt/Outage — when a connection is tried again

`_mqtt_async_handler_reconnect` tries once and from then on asks `should_reconnect_callback` before
it does, sleeping between one answer and the next.  An observer notes what happens in an outage
(`outage`): the attempts, what the callback was asked and has answered, and the sleeps.  Such a log
is an `OutageRun`, so that a retry follows a yes; what the callback is told is exact as long as an
`int` holds it (`faithful_iff`).
-/

namespace Tr50

open Machinery

/-! ## Policies -/

/-- `_tr50_should_reconnect_callback` -/
def tr50ShouldReconnectCallback (callback : Option (ℤ → ℤ → Bool))
    (disconnectedInMs lastReconnectInMs : ℤ) : Bool :=
  match callback with
  | some callback => callback disconnectedInMs lastReconnectInMs
  | none => lastReconnectInMs ≥ 60000

/-- `_at_tr50_should_reconnect` -/
def atTr50ShouldReconnect (opt disconnectedInMs lastReconnectInMs : ℤ) : Bool :=
  if opt = 0 then false
  else if opt = 1 then lastReconnectInMs.tdiv 1000 > 3600
  else if opt = 2 then
    if disconnectedInMs.tdiv 1000 > 86400 then lastReconnectInMs.tdiv 1000 > 3600
    else lastReconnectInMs.tdiv 1000 > 120
  else lastReconnectInMs.tdiv 1000 > 120

/-! ## Outages -/

/-- What happens in an outage. -/
inductive OutageEvent
  | attempt
  | consulted (disconnectedInMs lastReconnectInMs : ℤ) (answer : Bool)
  | slept (ms : ℤ)
deriving DecidableEq, Repr

namespace OutageEvent

/-- How long it takes. -/
def ms : OutageEvent → ℤ
  | slept ms => ms
  | _ => 0

def isAttempt : OutageEvent → Bool
  | attempt => true
  | _ => false

/-- A yes. -/
def isYes : OutageEvent → Bool
  | consulted _ _ answer => answer
  | _ => false

end OutageEvent

/-- The time slept in an outage; a log has its latest event first. -/
def sleptIn (log : List OutageEvent) : ℤ := (log.map OutageEvent.ms).sum

/-- …and since the last attempt. -/
def sleptSince (log : List OutageEvent) : ℤ := sleptIn (log.takeWhile (!·.isAttempt))

/-- Every attempt behind the first follows a yes directly. -/
def Agreed (log : List OutageEvent) : Prop :=
  ∀ past, .attempt :: past <:+ log → .attempt ∈ past → ∃ e ∈ past.head?, e.isYes

/-- The callback is told the time slept. -/
def Told (log : List OutageEvent) : Prop :=
  ∀ d l answer past, .consulted d l answer :: past <:+ log → d = sleptIn past ∧ l = sleptSince past

/-- If the answers are those of the built-in policy, two attempts are a minute apart. -/
def Paced (log : List OutageEvent) : Prop :=
  (∀ d l answer, .consulted d l answer ∈ log → answer = tr50ShouldReconnectCallback none d l) →
    ∀ past, .attempt :: past <:+ log → .attempt ∈ past → 60000 ≤ sleptSince past

/-- What is to hold of an outage. -/
structure Faithful (log : List OutageEvent) : Prop where
  told : Told log
  agreed : Agreed log
  paced : Paced log

/-- The callback has not been asked after `2 ^ 31` milliseconds or more. -/
def Short (log : List OutageEvent) : Prop :=
  ∀ d l answer past, .consulted d l answer :: past <:+ log → sleptIn past < 2 ^ 31

/-- The logs that the code makes. -/
inductive OutageRun : List OutageEvent → Prop
  | start : OutageRun []
  | first : OutageRun [.attempt]
  | retry {d l : ℤ} {past : List OutageEvent} (h : OutageRun (.consulted d l true :: past)) :
      OutageRun (.attempt :: .consulted d l true :: past)
  | ask (answer : Bool) {past : List OutageEvent} (h : OutageRun past) :
      OutageRun (.consulted (toInt32 (sleptIn past)) (toInt32 (sleptSince past)) answer :: past)
  | sleep {ms : ℤ} (hms : 0 ≤ ms) {past : List OutageEvent} (h : OutageRun past) :
      OutageRun (.slept ms :: past)

section Logs

variable {log past : List OutageEvent}

theorem sleptIn_cons (e : OutageEvent) : sleptIn (e :: log) = e.ms + sleptIn log := List.sum_cons

theorem sleptSince_attempt : sleptSince (.attempt :: log) = 0 := rfl

theorem sleptSince_cons {e : OutageEvent} (h : e.isAttempt = false) :
    sleptSince (e :: log) = e.ms + sleptSince log := by
  rw [sleptSince, List.takeWhile_cons_of_pos (by simp [h]), sleptIn_cons]
  rfl

theorem OutageRun.of_suffix (h : OutageRun log) (hsuffix : past <:+ log) : OutageRun past := by
  induction h with
  | start => exact List.suffix_nil.mp hsuffix ▸ .start
  | first =>
    rcases List.suffix_cons_iff.mp hsuffix with rfl | hsuffix
    · exact .first
    · exact List.suffix_nil.mp hsuffix ▸ .start
  | retry h ih =>
    rcases List.suffix_cons_iff.mp hsuffix with rfl | hsuffix
    · exact h.retry
    · exact ih hsuffix
  | ask answer h ih =>
    rcases List.suffix_cons_iff.mp hsuffix with rfl | hsuffix
    · exact h.ask answer
    · exact ih hsuffix
  | sleep hms h ih =>
    rcases List.suffix_cons_iff.mp hsuffix with rfl | hsuffix
    · exact h.sleep hms
    · exact ih hsuffix

/-- Since the last attempt no more has been slept than in all. -/
theorem OutageRun.slept (h : OutageRun log) :
    0 ≤ sleptSince log ∧ sleptSince log ≤ sleptIn log := by
  induction h with
  | start => exact ⟨le_rfl, le_rfl⟩
  | first => exact ⟨le_rfl, le_rfl⟩
  | retry h ih =>
    rw [sleptSince_attempt, sleptIn_cons]
    exact ⟨le_rfl, add_nonneg le_rfl (ih.1.trans ih.2)⟩
  | ask answer h ih =>
    rw [sleptSince_cons rfl, sleptIn_cons]
    exact ⟨add_nonneg le_rfl ih.1, add_le_add_right ih.2 _⟩
  | sleep hms h ih =>
    rw [sleptSince_cons rfl, sleptIn_cons]
    exact ⟨add_nonneg hms ih.1, add_le_add_right ih.2 _⟩

theorem toInt32_eq_iff {n : ℤ} (h : 0 ≤ n) : toInt32 n = n ↔ n < 2 ^ 31 := by
  rw [toInt32, Int.bmod_def]
  split_ifs <;> omega

/-- **A retry follows a yes**, whatever the callback was told. -/
theorem OutageRun.agreed (h : OutageRun log) : Agreed log := by
  intro past hsuffix hmem
  cases h.of_suffix hsuffix with
  | first => cases hmem
  | retry h => exact ⟨_, rfl, rfl⟩

/-- Where nobody says yes there is at most one attempt. -/
theorem OutageRun.once_of_refused (h : OutageRun log)
    (hrefused : ∀ e ∈ log, e.isYes = false) : (log.filter OutageEvent.isAttempt).length ≤ 1 := by
  induction h with
  | start => exact Nat.zero_le _
  | first => exact le_rfl
  | @retry d l past h ih =>
    have hno : OutageEvent.isYes (.consulted d l true) = false := hrefused _ (by simp)
    cases hno
  | ask answer h ih => exact ih fun e he => hrefused e (List.mem_cons_of_mem _ he)
  | sleep hms h ih => exact ih fun e he => hrefused e (List.mem_cons_of_mem _ he)

/-- **The built-in policy waits for a minute.**  It looks at no more than the time since the last
attempt, and where that does not fit into an `int` the policy is told less. -/
theorem OutageRun.paced (h : OutageRun log) : Paced log := by
  intro hbuiltin past hsuffix hmem
  cases h.of_suffix hsuffix with
  | first => cases hmem
  | @retry d l past hrun =>
    have hyes := hbuiltin d l true (hsuffix.subset (by simp))
    cases hrun with
    | ask _ hpast =>
      have hle := toInt32_le hpast.slept.1
      have hwait : 60000 ≤ toInt32 (sleptSince past) := of_decide_eq_true hyes.symm
      rw [sleptSince_cons rfl]
      exact hwait.trans (hle.trans_eq (zero_add _).symm)

/-- **What the callback is told is exact** as long as it fits into an `int`. -/
theorem OutageRun.told_iff (h : OutageRun log) : Told log ↔ Short log := by
  have hask : ∀ {d l answer past}, .consulted d l answer :: past <:+ log →
      0 ≤ sleptSince past ∧ sleptSince past ≤ sleptIn past
        ∧ d = toInt32 (sleptIn past) ∧ l = toInt32 (sleptSince past) := by
    intro d l answer past hsuffix
    cases h.of_suffix hsuffix with
    | ask answer hpast => exact ⟨hpast.slept.1, hpast.slept.2, rfl, rfl⟩
  constructor
  · intro htold d l answer past hsuffix
    obtain ⟨hpos, hle, hd, -⟩ := hask hsuffix
    exact (toInt32_eq_iff (hpos.trans hle)).mp (hd ▸ (htold d l answer past hsuffix).1)
  · intro hshort d l answer past hsuffix
    obtain ⟨hpos, hle, rfl, rfl⟩ := hask hsuffix
    have hlt := hshort _ _ _ _ hsuffix
    exact ⟨(toInt32_eq_iff (hpos.trans hle)).mpr hlt, (toInt32_eq_iff hpos).mpr (hle.trans_lt hlt)⟩

theorem OutageRun.faithful_iff (h : OutageRun log) : Faithful log ↔ Short log :=
  ⟨fun hf => h.told_iff.mp hf.told, fun hs => ⟨h.told_iff.mpr hs, h.agreed, h.paced⟩⟩

end Logs

/-! ## The receive thread outside of its reconnect loop -/

variable {γ κ : Type}

/-- Inside `_mqtt_async_handler_reconnect`. -/
def HandlerPc.reconnects : HandlerPc γ κ → Bool
  | reconnect _ | reconnectLock _ | connecting _ | waiting _ _ => true
  | _ => false

/-- …at its lock. -/
def HandlerPc.retries : HandlerPc γ κ → Bool
  | reconnectLock _ => true
  | _ => false

/-- The first `mqtt_connect` has returned. -/
def MainPc.opened : MainPc → Bool
  | created | connecting => false
  | _ => true

/-- What `mqtt_recv` has taken off the stream. -/
def RecvAnswer.bytes : RecvAnswer → ℕ
  | failed _ _ taken => taken
  | packet data _ _ => data.length

theorem mqttSendMsg_byteRecv {env : SendEnv} {client client' : MqttClient}
    {req : Option (Except ℤ Buffer)} {ret : ℤ}
    (h : mqttSendMsg env client req = some (ret, client')) :
    client'.byteRecv = client.byteRecv := by
  unfold mqttSendMsg at h
  split at h
  · cases h
  · obtain ⟨-, rfl⟩ := Prod.mk.inj (Option.some.inj h)
    rfl
  · obtain ⟨-, rfl⟩ := Prod.mk.inj (Option.some.inj h)
    split_ifs <;> rfl

/-- What the receive thread takes off the stream at `pc`. -/
def HandlerInput.taken (input : HandlerInput) : HandlerPc γ κ → ℤ
  | .recv => input.answer.bytes
  | _ => 0

namespace AsyncSystem

variable {params : MqttConnectParams} {s t : AsyncSystem γ κ} {input : HandlerInput}

/-- `mqtt_stats_byte_recv` of the current connection. -/
def byteRecv (s : AsyncSystem γ κ) : ℤ := (s.client.mqtt.map (·.byteRecv)).getD 0

/-- A step that neither opens nor gives up a connection; `bytes` are received. -/
structure Elsewhere (s t : AsyncSystem γ κ) (bytes : ℤ) : Prop where
  main : t.main = s.main
  state : t.client.state = s.client.state ∨ s.client.state = .connected ∧ t.client.state = .broken
  timeout : t.client.timeoutInMs = s.client.timeoutInMs
  nextSock : t.nextSock = s.nextSock
  mqtt : t.client.mqtt.isSome = s.client.mqtt.isSome
  byteRecv : t.byteRecv = s.byteRecv + bytes

namespace Elsewhere

theorem goto (pc : HandlerPc γ κ) : Elsewhere s (s.goto pc) 0 :=
  ⟨rfl, Or.inl rfl, rfl, rfl, rfl, (add_zero _).symm⟩

theorem broken (error : ℤ) (why : String) : Elsewhere s (s.broken error why) 0 := by
  have hclient : (s.broken error why).client = mqttAsyncBreak s.client error why := rfl
  have hbytes : ∀ {client : MqttAsyncClient γ κ}, client.mqtt = s.client.mqtt →
      (client.mqtt.map (·.byteRecv)).getD 0 = s.byteRecv + 0 := fun h => by
    rw [h, add_zero]
    rfl
  by_cases hstate : s.client.state = .connected
  · rw [mqttAsyncBreak, if_pos hstate] at hclient
    exact ⟨rfl, Or.inr ⟨hstate, by rw [hclient]; rfl⟩, by rw [hclient]; rfl, rfl,
      by rw [hclient]; rfl, hbytes (by rw [hclient]; rfl)⟩
  · rw [mqttAsyncBreak, if_neg hstate] at hclient
    exact ⟨rfl, Or.inl (by rw [hclient]), by rw [hclient], rfl, by rw [hclient],
      hbytes (by rw [hclient])⟩

/-- What else changes does not matter. -/
theorem through {t' : AsyncSystem γ κ} {bytes : ℤ} (h : Elsewhere s t bytes)
    (heq : (t'.main, t'.client.state, t'.client.timeoutInMs, t'.nextSock, t'.client.mqtt)
      = (t.main, t.client.state, t.client.timeoutInMs, t.nextSock, t.client.mqtt)) :
    Elsewhere s t' bytes := by
  obtain ⟨hmain, hstate, htimeout, hsock, hmqtt⟩ := by simpa only [Prod.mk.injEq] using heq
  exact ⟨hmain ▸ h.main, hstate ▸ h.state, htimeout ▸ h.timeout, hsock ▸ h.nextSock,
    hmqtt ▸ h.mqtt, by rw [AsyncSystem.byteRecv, hmqtt]; exact h.byteRecv⟩

/-- A send receives nothing. -/
theorem send {mqtt mqtt' : MqttClient} {t : AsyncSystem γ κ} (hmqtt : s.client.mqtt = some mqtt)
    (hbytes : mqtt'.byteRecv = mqtt.byteRecv)
    (heq : (t.main, t.client.state, t.client.timeoutInMs, t.nextSock, t.client.mqtt)
      = (s.main, s.client.state, s.client.timeoutInMs, s.nextSock, some mqtt') := by rfl) :
    Elsewhere s t 0 := by
  obtain ⟨hmain, hstate, htimeout, hsock, hmqtt'⟩ := by simpa only [Prod.mk.injEq] using heq
  refine ⟨hmain, Or.inl hstate, htimeout, hsock, by rw [hmqtt, hmqtt']; rfl, ?_⟩
  rw [AsyncSystem.byteRecv, AsyncSystem.byteRecv, hmqtt, hmqtt', add_zero]
  exact hbytes

end Elsewhere

/-- `mqtt_recv` returns. -/
theorem recv_elsewhere {mqtt : MqttClient} (hmqtt : s.client.mqtt = some mqtt)
    (answer : RecvAnswer) :
    (s.recv mqtt answer).handler.reconnects = false
      ∧ Elsewhere s (s.recv mqtt answer) answer.bytes := by
  have hbytes : s.byteRecv = mqtt.byteRecv := by
    rw [AsyncSystem.byteRecv, hmqtt]
    rfl
  cases answer with
  | failed ret hret taken =>
    refine ⟨?_, rfl, Or.inl rfl, rfl, rfl, by rw [hmqtt]; rfl, ?_⟩
    · change HandlerPc.reconnects (if ret = errTr50TcpTimeout then _ else _) = false
      split_ifs <;> rfl
    · rw [hbytes]
      rfl
  | packet data hdata now =>
    refine ⟨rfl, rfl, Or.inl rfl, rfl, rfl, by rw [hmqtt]; rfl, ?_⟩
    rw [hbytes]
    rfl

theorem process_elsewhere {env : ProcessEnv} {data : List UInt8}
    (h : s.process env data = some t) : t.handler.reconnects = false ∧ Elsewhere s t 0 := by
  unfold process at h
  split at h
  · cases h
  rename_i cmd hcmd
  split_ifs at h with hpublish
  · split at h
    · cases h
    · obtain rfl := Option.some.inj h
      exact ⟨rfl, .goto _⟩
    · obtain rfl := Option.some.inj h
      refine ⟨?_, .goto _⟩
      dsimp only [AsyncSystem.goto]
      split_ifs <;> rfl
  · split at h
    · cases h
    rename_i done hdone
    rcases mqttAsyncHandlerProcess_cases hcmd hpublish hdone with
      ⟨hnone, ping, hclient⟩ | ⟨msgId, r, ret, qos, -, hsome, hclient⟩
    · simp only [hnone, hclient] at h
      obtain rfl := Option.some.inj h
      exact ⟨rfl, rfl, Or.inl rfl, rfl, rfl, rfl, (add_zero _).symm⟩
    · simp only [hsome, hclient] at h
      obtain rfl := Option.some.inj h
      exact ⟨rfl, rfl, Or.inl rfl, rfl, rfl, rfl, (add_zero _).symm⟩

theorem puback_elsewhere {env : SendEnv} {msg : PublishMsg} (h : s.puback env msg = some t) :
    t.handler.reconnects = false ∧ Elsewhere s t 0 := by
  unfold puback at h
  split at h
  · cases h
  rename_i mqtt hmqtt
  split at h
  · cases h
  rename_i ret mqtt' hsend
  obtain rfl := Option.some.inj h
  exact ⟨rfl, .send hmqtt (mqttSendMsg_byteRecv hsend)⟩

theorem clearSlot_elsewhere (last : Bool) (i : ℕ) :
    (s.clearSlot last i).handler.reconnects = false ∧ Elsewhere s (s.clearSlot last i) 0 := by
  unfold clearSlot
  split_ifs
  · split
    · exact ⟨rfl, .goto _⟩
    · exact ⟨rfl, rfl, Or.inl rfl, rfl, rfl, rfl, (add_zero _).symm⟩
  · refine ⟨?_, .goto _⟩
    cases last <;> rfl

theorem ping_elsewhere {env : SendEnv} {now : ℤ} (h : s.ping params env now = some t) :
    (t.handler.reconnects = false ∨ t.handler = .reconnect 0) ∧ Elsewhere s t 0 := by
  unfold ping at h
  split at h
  · cases h
  rename_i mqtt hmqtt
  split_ifs at h
  · split at h
    · cases h
    rename_i ret mqtt' hsend
    have hbytes := mqttSendMsg_byteRecv hsend
    split_ifs at h <;> obtain rfl := Option.some.inj h
    · exact ⟨Or.inl rfl, .send hmqtt hbytes⟩
    · exact ⟨Or.inr rfl, .send hmqtt hbytes⟩
  · obtain rfl := Option.some.inj h
    exact ⟨Or.inr rfl, .goto _⟩

/-- **The receive thread outside of its reconnect loop** stays there, or enters it anew. -/
theorem handler_elsewhere (hpc : s.handler.reconnects = false)
    (h : s.handlerStep params input s.handler = some t) :
    (t.handler.reconnects = false ∨ t.handler = .reconnect 0)
      ∧ Elsewhere s t (input.taken s.handler) := by
  cases hs : s.handler with
  | reconnect | reconnectLock | connecting | waiting =>
    rw [hs] at hpc
    cases hpc
  | absent | ended =>
    rw [hs] at h
    cases h
  | starting | publishCallback | signalCallback | clearCallback =>
    rw [hs] at h
    obtain rfl := Option.some.inj h
    exact ⟨Or.inl rfl, rfl, Or.inl rfl, rfl, rfl, rfl, (add_zero _).symm⟩
  | loop | test =>
    rw [hs] at h
    obtain rfl := Option.some.inj h
    refine ⟨Or.inl ?_, .goto _⟩
    dsimp only [AsyncSystem.goto]
    split_ifs <;> rfl
  | clearEntry last =>
    rw [hs] at h
    obtain rfl := Option.some.inj h
    refine ⟨Or.inl ?_, .goto _⟩
    dsimp only [AsyncSystem.goto]
    split_ifs
    · cases last <;> rfl
    · rfl
  | expired =>
    rw [hs] at h
    obtain rfl := Option.some.inj h
    refine ⟨Or.inl ?_, rfl, Or.inl rfl, rfl, rfl, rfl, (add_zero _).symm⟩
    dsimp only [AsyncSystem.goto]
    split_ifs <;> rfl
  | keepalive =>
    rw [hs] at h
    obtain rfl := Option.some.inj h
    refine ⟨?_, .goto _⟩
    dsimp only [AsyncSystem.goto]
    split_ifs
    · exact Or.inr rfl
    · exact Or.inl rfl
    · exact Or.inl rfl
  | recv =>
    rw [hs] at h
    obtain ⟨mqtt, hmqtt, rfl⟩ := Option.map_eq_some_iff.mp h
    exact (recv_elsewhere hmqtt input.answer).imp_left Or.inl
  | recvFailed | ackLost =>
    rw [hs] at h
    simp only [handlerStep] at h
    split_ifs at h
    obtain rfl := Option.some.inj h
    exact ⟨Or.inl rfl, (Elsewhere.broken _ _).through rfl⟩
  | heartbeatLost | pingFailed =>
    rw [hs] at h
    simp only [handlerStep] at h
    split_ifs at h
    obtain rfl := Option.some.inj h
    exact ⟨Or.inr rfl, (Elsewhere.broken _ _).through rfl⟩
  | process data =>
    rw [hs] at h
    exact (process_elsewhere h).imp_left Or.inl
  | puback msg =>
    rw [hs] at h
    simp only [handlerStep] at h
    split_ifs at h
    exact (puback_elsewhere h).imp_left Or.inl
  | clear last i =>
    rw [hs] at h
    obtain rfl := Option.some.inj h
    exact (clearSlot_elsewhere last i).imp_left Or.inl
  | ping =>
    rw [hs] at h
    exact ping_elsewhere h

/-! ## Outages of a run -/

/-- What happens in a step of the receive thread, the latest first. -/
def outageEvents (s : AsyncSystem γ κ) (input : HandlerInput) : List OutageEvent :=
  match s.handler with
  | .reconnectLock _ => if s.MuxFree ∧ s.client.state = .broken then [.attempt] else []
  | .waiting total counter =>
      if s.client.state = .broken then
        if input.shouldReconnect then [.consulted (toInt32 total) counter true]
        else [.slept s.client.timeoutInMs, .consulted (toInt32 total) counter false]
      else []
  | _ => []

/-- An outage begins where a client that was CONNECTED, or has never been, is BROKEN. -/
def OutageBegins (s t : AsyncSystem γ κ) : Prop :=
  t.client.state = .broken ∧ s.client.state ≠ .broken ∧ s.client.state ≠ .reconnecting

instance : Decidable (OutageBegins s t) := inferInstanceAs (Decidable (_ ∧ _ ∧ _))

/-- The log of the current outage, or of the last one. -/
def outage (s : AsyncSystem γ κ) (a : AsyncAction γ κ) (t : AsyncSystem γ κ)
    (log : List OutageEvent) : List OutageEvent :=
  if OutageBegins s t then []
  else
    match a with
    | .handler input => s.outageEvents input ++ log
    | _ => log

end AsyncSystem

/-- `total` is what has been slept, and the next attempt may be made. -/
def Ready (total : ℤ) (log : List OutageEvent) : Prop :=
  total = toInt64 (sleptIn log) ∧ (log = [] ∨ ∃ d l past, log = .consulted d l true :: past)

/-- What the variables of the reconnect loop say of the log. -/
def Counted (state : MqttAsyncState) (log : List OutageEvent) : HandlerPc γ κ → Prop
  | .reconnect total => (state = .broken → Ready total log) ∧ (state = .connected → total = 0)
  | .reconnectLock total => state ≠ .connected ∧ (state = .broken → Ready total log)
  | .connecting total => total = toInt64 (sleptIn log) ∧ ∃ past, log = .attempt :: past
  | .waiting total counter => state ≠ .connected
      ∧ (state = .broken → total = toInt64 (sleptIn log) ∧ counter = toInt32 (sleptSince log))
  | _ => state = .broken → log = []

section Counted

variable {state state' : MqttAsyncState} {log : List OutageEvent} {pc : HandlerPc γ κ}

theorem ready_nil : Ready 0 [] := ⟨rfl, Or.inl rfl⟩

theorem counted_of_not_reconnects (hpc : pc.reconnects = false) :
    Counted state log pc ↔ (state = .broken → log = []) := by
  cases pc <;> first | rfl | cases hpc

/-- Who is neither CONNECTED nor BROKEN has nothing to say of the log. -/
theorem Counted.idle (h : Counted state log pc) (hconnected : state' ≠ .connected)
    (hbroken : state' ≠ .broken) : Counted state' log pc := by
  cases pc with
  | reconnect total =>
    exact ⟨fun h => absurd h hbroken, fun h => absurd h hconnected⟩
  | reconnectLock total => exact ⟨hconnected, fun h => absurd h hbroken⟩
  | connecting total => exact h
  | waiting total counter => exact ⟨hconnected, fun h => absurd h hbroken⟩
  | _ => exact fun h => absurd h hbroken

/-- A connection that breaks begins an outage. -/
theorem Counted.breaks (h : Counted .connected log pc) (hpc : pc.hasMux = false) :
    Counted .broken [] pc := by
  cases pc with
  | reconnect total => exact ⟨fun _ => h.2 rfl ▸ ready_nil, fun h => by cases h⟩
  | reconnectLock total => exact absurd rfl h.1
  | connecting total => cases hpc
  | waiting total counter => exact absurd rfl h.1
  | _ => exact fun _ => rfl

theorem toInt64_add (a b : ℤ) : toInt64 (toInt64 a + b) = toInt64 (b + a) := by
  rw [toInt64, toInt64, toInt64, Int.bmod_add_bmod, add_comm]

theorem toInt32_add (a b : ℤ) : toInt32 (toInt32 a + b) = toInt32 (b + a) := by
  rw [toInt32, toInt32, toInt32, Int.bmod_add_bmod, add_comm]

theorem toInt32_toInt64 (n : ℤ) : toInt32 (toInt64 n) = toInt32 n := by
  rw [toInt32, toInt32, toInt64]
  exact Int.bmod_bmod_of_dvd (by norm_num)

end Counted

namespace AsyncSystem

variable {params : MqttConnectParams} {s t : AsyncSystem γ κ} {input : HandlerInput}
  {log : List OutageEvent}

/-- The loop, the log and the state belong together. -/
structure Outage (s : AsyncSystem γ κ) (log : List OutageEvent) : Prop where
  timeout : 0 ≤ s.client.timeoutInMs
  run : OutageRun log
  counted : Counted s.client.state log s.handler

theorem outage_init : Outage (init : AsyncSystem γ κ) [] :=
  ⟨show (0 : ℤ) ≤ 5000 by norm_num, .start, fun h => by cases h⟩

theorem Effect.timeout {a : AsyncAction γ κ} (h : Effect params s a t) :
    t.client.timeoutInMs = s.client.timeoutInMs := by
  cases h with
  | requested call hcall mqtt mqtt' hmqtt hsock ret links h =>
    unfold mqttAsyncSent
    split_ifs <;> rfl
  | received mqtt hmqtt answer hpc => cases answer <;> rfl
  | broke error why =>
    change (mqttAsyncBreak s.client error why).timeoutInMs = _
    unfold mqttAsyncBreak
    split_ifs <;> rfl
  | _ => rfl

/-- The old connection is given up. -/
structure Reopened (s t : AsyncSystem γ κ) (total : ℤ) : Prop where
  state : t.client.state = .reconnecting
  handler : t.handler = .connecting total
  timeout : t.client.timeoutInMs = s.client.timeoutInMs
  main : t.main = s.main
  nextSock : t.nextSock = s.nextSock
  mqtt : t.client.mqtt = none

theorem reopen_eq_some {env : SendEnv} {total : ℤ} (h : s.reopen env total = some t) :
    Reopened s t total := by
  unfold reopen at h
  split at h <;> rename_i hmqtt
  · obtain rfl := Option.some.inj h
    exact ⟨rfl, rfl, rfl, rfl, rfl, hmqtt⟩
  · split at h
    · cases h
    · obtain rfl := Option.some.inj h
      exact ⟨rfl, rfl, rfl, rfl, rfl, rfl⟩

theorem outage_of_begins {a : AsyncAction γ κ} (h : OutageBegins s t) : outage s a t log = [] :=
  if_pos h

theorem outage_of_handler (h : ¬ OutageBegins s t) :
    outage s (.handler input) t log = s.outageEvents input ++ log := if_neg h

theorem not_outageBegins (h : t.client.state = s.client.state) : ¬ OutageBegins s t :=
  fun ⟨ht, hs, _⟩ => hs (h ▸ ht)

theorem outage_goto (pc : HandlerPc γ κ) :
    outage s (.handler input) (s.goto pc) log = s.outageEvents input ++ log :=
  outage_of_handler (not_outageBegins (show (s.goto pc).client.state = s.client.state from rfl))

/-- Outside of the loop an outage may begin, and nothing else happens in one. -/
theorem Outage.elsewhere (ho : Outage s log) (hpc : s.handler.reconnects = false)
    (h : s.handlerStep params input s.handler = some t) :
    Outage t (outage s (.handler input) t log) := by
  obtain ⟨hplace, helse⟩ := handler_elsewhere hpc h
  have htimeout : 0 ≤ t.client.timeoutInMs := helse.timeout ▸ ho.timeout
  have hevents : s.outageEvents input = [] := by
    unfold outageEvents
    split <;> rename_i hs <;> first | rfl | (rw [hs] at hpc; cases hpc)
  rcases helse.state with hstate | ⟨hconnected, hbroken⟩
  · rw [outage_of_handler (not_outageBegins hstate), hevents, List.nil_append]
    refine ⟨htimeout, ho.run, ?_⟩
    have hlog := (counted_of_not_reconnects hpc).mp ho.counted
    rw [hstate]
    rcases hplace with hplace | hplace
    · exact (counted_of_not_reconnects hplace).mpr hlog
    · rw [hplace]
      exact ⟨fun h => hlog h ▸ ready_nil, fun _ => rfl⟩
  · rw [outage_of_begins ⟨hbroken, by simp [hconnected], by simp [hconnected]⟩]
    refine ⟨htimeout, .start, ?_⟩
    rcases hplace with hplace | hplace
    · exact (counted_of_not_reconnects hplace).mpr fun _ => rfl
    · rw [hplace]
      exact ⟨fun _ => ready_nil, fun _ => rfl⟩

/-- At the test of the loop nothing happens… -/
theorem Outage.reconnect {total : ℤ} (ho : Outage s log) (hpc : s.handler = .reconnect total) :
    Outage (s.goto (if s.client.state = .broken then .reconnectLock total else .loop))
      (s.outageEvents input ++ log) := by
  have hcounted := ho.counted
  rw [hpc] at hcounted
  rw [outageEvents, hpc]
  refine ⟨ho.timeout, ho.run, ?_⟩
  by_cases hbroken : s.client.state = .broken
  · rw [if_pos hbroken]
    exact ⟨by simp [AsyncSystem.goto, hbroken], hcounted.1⟩
  · rw [if_neg hbroken]
    exact fun h => absurd h hbroken

/-- …under the lock an attempt is made, the first or behind a yes… -/
theorem Outage.reconnectLock {total : ℤ} (ho : Outage s log)
    (hpc : s.handler = .reconnectLock total)
    (h : s.handlerStep params input (.reconnectLock total) = some t) :
    Outage t (outage s (.handler input) t log) := by
  have hcounted := ho.counted
  rw [hpc] at hcounted
  simp only [handlerStep] at h
  split_ifs at h with hfree hbroken
  · obtain rfl := Option.some.inj h
    rw [outage_goto, outageEvents, hpc]
    simp only [hbroken, and_false, if_false]
    exact ⟨ho.timeout, ho.run, fun h => absurd h hbroken⟩
  · rw [not_not] at hbroken
    obtain ⟨htotal, hready⟩ := hcounted.2 hbroken
    have hopen := reopen_eq_some h
    have hbegins : ¬ OutageBegins s t := fun hbegins =>
      absurd (hopen.state.symm.trans hbegins.1) (by simp)
    rw [outage_of_handler hbegins, outageEvents, hpc]
    simp only [hfree, hbroken, and_self, if_true]
    refine ⟨hopen.timeout ▸ ho.timeout, ?_, ?_⟩
    · rcases hready with rfl | ⟨d, l, past, rfl⟩
      · exact .first
      · exact ho.run.retry
    · rw [hopen.handler]
      exact ⟨htotal.trans (by simp [sleptIn_cons, OutageEvent.ms]), log, rfl⟩

/-- …`mqtt_connect` takes no time that is counted… -/
theorem Outage.connecting {total : ℤ} (hs : Phase s) (ho : Outage s log)
    (hpc : s.handler = .connecting total) (h : s.reconnect params input.connect total = some t) :
    Outage t (outage s (.handler input) t log) := by
  have hcounted := ho.counted
  rw [hpc] at hcounted
  obtain ⟨htotal, past, hlog⟩ := hcounted
  have hstate := hs.reconnecting (by rw [hpc]; rfl)
  rw [outage_of_handler (fun hbegins => hbegins.2.2 hstate), outageEvents, hpc]
  unfold AsyncSystem.reconnect at h
  split at h
  · cases h
  · obtain rfl := Option.some.inj h
    exact ⟨ho.timeout, ho.run, fun h => by cases h⟩
  · obtain rfl := Option.some.inj h
    refine ⟨ho.timeout, ho.run, fun h => (by cases h), fun _ => ⟨htotal, ?_⟩⟩
    rw [hlog]
    rfl

/-- …and the callback is asked, and the thread sleeps where it says no. -/
theorem Outage.waiting {total counter : ℤ} (ho : Outage s log)
    (hpc : s.handler = .waiting total counter) :
    Outage (s.goto (if s.client.state = .broken ∧ ¬ input.shouldReconnect then
        .waiting (toInt64 (total + s.client.timeoutInMs))
          (toInt32 (counter + s.client.timeoutInMs))
      else .reconnect total)) (s.outageEvents input ++ log) := by
  have hcounted := ho.counted
  rw [hpc] at hcounted
  rw [outageEvents, hpc]
  by_cases hbroken : s.client.state = .broken
  · obtain ⟨rfl, rfl⟩ := hcounted.2 hbroken
    simp only [hbroken, true_and, if_true, toInt32_toInt64]
    cases hanswer : input.shouldReconnect with
    | true =>
      refine ⟨ho.timeout, ho.run.ask true, fun _ => ⟨?_, Or.inr ⟨_, _, _, rfl⟩⟩, fun h => ?_⟩
      · simp [sleptIn_cons, OutageEvent.ms]
      · exact absurd (hbroken.symm.trans h) (by simp)
    | false =>
      refine ⟨ho.timeout, .sleep ho.timeout (ho.run.ask false), hcounted.1, fun _ => ⟨?_, ?_⟩⟩
      · rw [toInt64_add]
        simp [sleptIn_cons, OutageEvent.ms]
      · have hsince : sleptSince (.slept s.client.timeoutInMs
            :: .consulted (toInt32 (sleptIn log)) (toInt32 (sleptSince log)) false :: log)
            = s.client.timeoutInMs + sleptSince log := by
          rw [sleptSince_cons rfl, sleptSince_cons rfl]
          simp [OutageEvent.ms]
        exact (toInt32_add _ _).trans (congrArg toInt32 hsince.symm)
  · simp only [hbroken, false_and, if_false]
    exact ⟨ho.timeout, ho.run, fun h => absurd h hbroken, fun h => absurd h hcounted.1⟩

/-- **A turn of the reconnect loop**, place by place. -/
theorem Outage.loop (hs : Phase s) (ho : Outage s log) (hpc : s.handler.reconnects = true)
    (h : s.handlerStep params input s.handler = some t) :
    Outage t (outage s (.handler input) t log) := by
  cases hhandler : s.handler with
  | reconnect total =>
    rw [hhandler] at h
    obtain rfl := Option.some.inj h
    rw [outage_goto]
    exact ho.reconnect hhandler
  | reconnectLock total =>
    rw [hhandler] at h
    exact ho.reconnectLock hhandler h
  | connecting total =>
    rw [hhandler] at h
    exact ho.connecting hs hhandler h
  | waiting total counter =>
    rw [hhandler] at h
    obtain rfl := Option.some.inj h
    rw [outage_goto]
    exact ho.waiting hhandler
  | _ =>
    rw [hhandler] at hpc
    cases hpc

/-- What the others do with the state. -/
inductive OtherState (s t : AsyncSystem γ κ) : Prop
  | same (h : t.client.state = s.client.state)
  | broken (hs : s.client.state = .connected) (ht : t.client.state = .broken)
  | idle (hconnected : t.client.state ≠ .connected) (hbroken : t.client.state ≠ .broken)

/-- No connection is opened, and none received from. -/
structure Apart (s t : AsyncSystem γ κ) : Prop where
  opened : t.main.opened = s.main.opened
  nextSock : t.nextSock = s.nextSock
  mqtt : t.client.mqtt.isSome = s.client.mqtt.isSome
  byteRecv : t.byteRecv = s.byteRecv

/-- **The application leaves the connection alone**, but for its first `mqtt_connect`. -/
theorem main_cases {input : MainInput} (h : s.mainStep params input s.main = some t) :
    (OtherState s t ∧ Apart s t)
      ∨ s.main = .connecting ∧ s.connect params input.connect = some t := by
  unfold mainStep at h
  split at h <;> rename_i hmain
  · obtain rfl := Option.some.inj h
    exact Or.inl ⟨.idle (by simp [report, mqttAsyncStateChange])
      (by simp [report, mqttAsyncStateChange]), by rw [hmain]; rfl, rfl, rfl, rfl⟩
  · exact Or.inr ⟨hmain, h⟩
  · split_ifs at h <;> obtain rfl := Option.some.inj h <;>
      exact Or.inl ⟨.same rfl, by rw [hmain]; rfl, rfl, rfl, rfl⟩
  · obtain rfl := Option.some.inj h
    exact Or.inl ⟨.same rfl, by rw [hmain]; rfl, rfl, rfl, rfl⟩
  · split_ifs at h
    obtain rfl := Option.some.inj h
    exact Or.inl ⟨.idle (by simp [report, mqttAsyncStateChange])
      (by simp [report, mqttAsyncStateChange]), by rw [hmain]; rfl, rfl, rfl, rfl⟩
  · split_ifs at h
    obtain rfl := Option.some.inj h
    exact Or.inl ⟨.same rfl, by rw [hmain]; rfl, rfl, rfl, rfl⟩
  · unfold close at h
    split at h
    · obtain rfl := Option.some.inj h
      exact Or.inl ⟨.same rfl, by rw [hmain]; rfl, rfl, rfl, rfl⟩
    · split at h
      · cases h
      · obtain rfl := Option.some.inj h
        exact Or.inl ⟨.same rfl, by rw [hmain]; rfl, rfl, rfl, rfl⟩
  · obtain rfl := Option.some.inj h
    exact Or.inl ⟨.idle (by simp [report, mqttAsyncStateChange])
      (by simp [report, mqttAsyncStateChange]), by rw [hmain]; rfl, rfl, rfl, rfl⟩
  · cases h

theorem call_cases {call : AsyncCall γ κ} (hs : Phase s) (hcall : s.call = some call)
    (h : s.callStep call = some t) : OtherState s t ∧ Apart s t := by
  unfold callStep at h
  split at h
  · unfold callAdd at h
    split_ifs at h
    have hclient : ∀ client, (mqttAsyncAddRecord s.client call.env.now call.request.record).2
        = client → client.state = s.client.state ∧ client.mqtt = s.client.mqtt := by
      rintro _ rfl
      unfold mqttAsyncAddRecord
      split <;> exact ⟨rfl, rfl⟩
    split at h
    rename_i ret client hadd
    obtain ⟨hstate, hmqtt⟩ := hclient client (congrArg Prod.snd hadd)
    split_ifs at h <;> obtain rfl := Option.some.inj h <;>
      exact ⟨.same hstate, rfl, rfl, congrArg Option.isSome hmqtt,
        congrArg (fun mqtt => (Option.map MqttClient.byteRecv mqtt).getD 0) hmqtt⟩
  · unfold callSend at h
    split at h
    · cases h
    rename_i mqtt hmqtt
    split at h
    · cases h
    rename_i msgId ret mqtt' hrun
    rw [MqttRequest.run_eq] at hrun
    obtain rfl := Option.some.inj h
    have hsent : (mqttAsyncSent s.client ret mqtt').mqtt = some mqtt' := mqttAsyncSent_mqtt _ _ _
    refine ⟨?_, rfl, rfl, by rw [hsent, hmqtt]; rfl, ?_⟩
    · by_cases hret : ret ≠ 0
      · exact .broken (hs.call (by rw [hcall]; rfl)).1 (by rw [mqttAsyncSent, if_pos hret]; rfl)
      · exact .same (by rw [mqttAsyncSent, if_neg hret])
    · rw [AsyncSystem.byteRecv, AsyncSystem.byteRecv, hsent, hmqtt]
      exact mqttSendMsg_byteRecv hrun

/-- **A step of another thread**: the first `mqtt_connect`, or nothing to the connection. -/
theorem other_cases {a : AsyncAction γ κ} (hs : Phase s) (ha : ∀ input, a ≠ .handler input)
    (h : s.step params a = some t) :
    ((OtherState s t ∧ Apart s t) ∨ ∃ input, a = .main input ∧ s.main = .connecting
        ∧ s.connect params input.connect = some t)
      ∧ (t.handler = s.handler ∨ s.main = .starting ∧ t.handler = .starting) := by
  cases a with
  | main input =>
    refine ⟨(main_cases h).imp_right fun ⟨hmain, hconnect⟩ => ?_, (main_turn h).2.2⟩
    exact ⟨input, rfl, hmain, hconnect⟩
  | handler input => exact absurd rfl (ha input)
  | request env req =>
    rcases request_cases h with rfl | rfl
    · exact ⟨Or.inl ⟨.same rfl, rfl, rfl, rfl, rfl⟩, Or.inl rfl⟩
    · exact ⟨Or.inl ⟨.same rfl, rfl, rfl, rfl, rfl⟩, Or.inl rfl⟩
  | call =>
    obtain ⟨call, hcall, hstep⟩ := Option.bind_eq_some_iff.mp h
    exact ⟨Or.inl (call_cases hs hcall hstep), Or.inl (call_turn hstep).2.2⟩

theorem outage_of_other {a : AsyncAction γ κ} (ha : ∀ input, a ≠ .handler input)
    (hbegins : ¬ OutageBegins s t) : outage s a t log = log := by
  unfold outage
  rw [if_neg hbegins]
  split
  · exact absurd rfl (ha _)
  · rfl

/-- A first connection that is not made begins an outage. -/
theorem Outage.connect {a : AsyncAction γ κ} (ho : Outage s log)
    (ha : ∀ input, a ≠ .handler input) (htimeout : 0 ≤ t.client.timeoutInMs)
    (hstate : s.client.state = .connecting) (hpc : t.handler.reconnects = false) :
    Outage t (outage s a t log) := by
  by_cases hbroken : t.client.state = .broken
  · rw [outage_of_begins ⟨hbroken, by simp [hstate], by simp [hstate]⟩]
    exact ⟨htimeout, .start, (counted_of_not_reconnects hpc).mpr fun _ => rfl⟩
  · rw [outage_of_other ha fun hbegins => hbroken hbegins.1]
    exact ⟨htimeout, ho.run, (counted_of_not_reconnects hpc).mpr fun h => absurd h hbroken⟩

/-- **The others** may begin an outage, but do nothing in one. -/
theorem Outage.other {a : AsyncAction γ κ} (hs : Phase s) (ho : Outage s log)
    (ha : ∀ input, a ≠ .handler input) (h : s.step params a = some t) :
    Outage t (outage s a t log) := by
  have htimeout : 0 ≤ t.client.timeoutInMs := (step_effect h).timeout ▸ ho.timeout
  obtain ⟨hcases, hpc⟩ := other_cases hs ha h
  -- a thread that has just begun has no outage behind it
  have hplace : Counted s.client.state log t.handler := by
    rcases hpc with hpc | ⟨hmain, hpc⟩
    · rw [hpc]
      exact ho.counted
    · have hcounted := ho.counted
      rw [hs.early (by rw [hmain]; rfl)] at hcounted
      rw [hpc]
      exact hcounted
  rcases hcases with ⟨hstate, -⟩ | ⟨input, -, hmain, -⟩
  · cases hstate with
    | same hstate =>
      rw [outage_of_other ha (not_outageBegins hstate)]
      exact ⟨htimeout, ho.run, hstate ▸ hplace⟩
    | broken hconnected hbroken =>
      rw [outage_of_begins ⟨hbroken, by simp [hconnected], by simp [hconnected]⟩]
      have hmux : t.handler.hasMux = false := by
        rcases hpc with hpc | ⟨-, hpc⟩
        · rw [hpc, ← Bool.not_eq_true]
          exact fun hmux => absurd (hconnected.symm.trans (hs.reconnecting hmux)) (by simp)
        · rw [hpc]
          rfl
      rw [hconnected] at hplace
      exact ⟨htimeout, .start, hbroken ▸ hplace.breaks hmux⟩
    | idle hconnected hbroken =>
      rw [outage_of_other ha fun hbegins => hbroken hbegins.1]
      exact ⟨htimeout, ho.run, hplace.idle hconnected hbroken⟩
  · have hallows := hs.state
    rw [hmain] at hallows
    refine ho.connect ha htimeout hallows ?_
    rcases hpc with hpc | ⟨-, hpc⟩
    · rw [hpc, hs.early (by rw [hmain]; rfl)]
      rfl
    · rw [hpc]
      rfl

theorem Outage.step {a : AsyncAction γ κ} (hs : Phase s) (ho : Outage s log)
    (h : s.step params a = some t) : Outage t (outage s a t log) := by
  cases a with
  | handler input =>
    cases hpc : s.handler.reconnects with
    | true => exact ho.loop hs hpc h
    | false => exact ho.elsewhere hpc h
  | main | request | call => exact ho.other hs (by simp) h

theorem outage_reach {good : AsyncSystem γ κ × List OutageEvent → AsyncAction γ κ → Prop}
    (h : Reach (observe (AsyncSystem.step params) id outage) good (init, []) (s, log)) :
    Phase s ∧ Outage s log := by
  refine h.invariant (I := fun p => Phase p.1 ∧ Outage p.1 p.2) ⟨phase_init, outage_init⟩ ?_
  rintro ⟨s, log⟩ a ⟨t, log'⟩ ⟨hs, ho⟩ - hobserve
  obtain ⟨hstep, hnote⟩ := observe_eq_some.mp hobserve
  obtain rfl : log' = outage s a t log := hnote
  exact ⟨hs.step (step_effect hstep), ho.step hs hstep⟩

/-- **In every run the callback is told the time slept exactly where an `int` holds it**; retries
follow a yes, and with the built-in policy a minute, anyway. -/
theorem outage_faithful_iff
    (h : Reach (observe (AsyncSystem.step params) id outage) (fun _ _ => True) (init, [])
      (s, log)) : Faithful log ↔ Short log :=
  (outage_reach h).2.run.faithful_iff

/-- A policy that says no keeps the loop where it is… -/
theorem refused_step {total counter : ℤ} (hpc : s.handler = .waiting total counter)
    (hbroken : s.client.state = .broken) (hinput : input.shouldReconnect = false) :
    ∃ total' counter', observe (AsyncSystem.step params) id outage (s, log) (.handler input)
      = some (s.goto (.waiting total' counter'), .slept s.client.timeoutInMs
        :: .consulted (toInt32 total) counter false :: log) := by
  refine ⟨toInt64 (total + s.client.timeoutInMs), toInt32 (counter + s.client.timeoutInMs),
    observe_eq_some.mpr ⟨?_, ?_⟩⟩
  · change s.handlerStep params input s.handler = _
    rw [hpc]
    change some (s.goto (if s.client.state = .broken ∧ ¬ input.shouldReconnect then _ else _)) = _
    rw [if_pos ⟨hbroken, by simp [hinput]⟩]
  · rw [outage_goto, outageEvents, hpc]
    simp [hbroken, hinput]

/-- …and more and more has been slept. -/
theorem refused_reach {total counter : ℤ} (hpc : s.handler = .waiting total counter)
    (hbroken : s.client.state = .broken) (hinput : input.shouldReconnect = false)
    (h : Reach (observe (AsyncSystem.step params) id outage) (fun _ _ => True) (init, []) (s, log))
    (n : ℕ) : ∃ total' counter' log', Reach (observe (AsyncSystem.step params) id outage)
        (fun _ _ => True) (init, []) (s.goto (.waiting total' counter'), log')
      ∧ sleptIn log' = sleptIn log + n * s.client.timeoutInMs := by
  induction n with
  | zero =>
    refine ⟨total, counter, log, ?_, by simp⟩
    rw [← hpc]
    exact h
  | succ n ih =>
    obtain ⟨total', counter', log', hreach, hslept⟩ := ih
    obtain ⟨total'', counter'', hstep⟩ := @refused_step γ κ params
      (s.goto (.waiting total' counter')) input log' total' counter' rfl hbroken hinput
    refine ⟨total'', counter'', _, hreach.tail trivial hstep, ?_⟩
    rw [sleptIn_cons, sleptIn_cons, hslept]
    simp only [OutageEvent.ms, AsyncSystem.goto]
    push_cast
    ring

end AsyncSystem

/-! ## Policies that say no -/

namespace AsyncSystem

variable {params : MqttConnectParams} {s t : AsyncSystem γ κ} {input : HandlerInput}
  {log : List OutageEvent} {a : AsyncAction γ κ}

/-- The answers are those of a callback. -/
def Answers (callback : Option (ℤ → ℤ → Bool)) (s : AsyncSystem γ κ) : AsyncAction γ κ → Prop
  | .handler input => ∀ total counter, s.handler = .waiting total counter →
      input.shouldReconnect = tr50ShouldReconnectCallback callback (toInt32 total) counter
  | _ => True

/-- The receive thread has come to its lock, and finds the client BROKEN. -/
def FindsBroken (s : AsyncSystem γ κ) : AsyncAction γ κ → Prop
  | .handler _ => s.handler.retries ∧ s.MuxFree ∧ s.client.state = .broken
  | _ => False

instance : (s : AsyncSystem γ κ) → (a : AsyncAction γ κ) → Decidable (FindsBroken s a)
  | s, .handler _ => inferInstanceAs (Decidable (s.handler.retries ∧ _ ∧ _))
  | _, .main _ | _, .request _ _ | _, .call => .isFalse id

/-- How often it has. -/
def found (s : AsyncSystem γ κ) (a : AsyncAction γ κ) (_ : AsyncSystem γ κ) (n : ℕ) : ℕ :=
  if FindsBroken s a then n + 1 else n

/-- No `mqtt_connect` has been called but the first. -/
def ConnectedOnce (s : AsyncSystem γ κ) : Prop := s.nextSock ≤ 1 ∧ s.handler.hasMux = false

/-- Every time the client is found BROKEN it is connected again. -/
structure Attempted (s : AsyncSystem γ κ) (n : ℕ) : Prop where
  count : s.nextSock + s.handler.hasMux.toNat = s.main.opened.toNat + n
  mux : s.handler.hasMux.toNat ≤ n
  opened : 1 ≤ n → s.main.opened

theorem attempted_init : Attempted (init : AsyncSystem γ κ) 0 :=
  ⟨rfl, le_rfl, fun h => absurd h (by decide)⟩

theorem Attempted.once_iff {n : ℕ} (hn : Attempted s n) : ConnectedOnce s ↔ n = 0 := by
  have hcount := hn.count
  have hmux := hn.mux
  have hopened := Bool.toNat_le s.main.opened
  rw [ConnectedOnce]
  constructor
  · rintro ⟨hsock, hfree⟩
    by_contra hne
    have hmain := hn.opened (Nat.one_le_iff_ne_zero.mpr hne)
    rw [hfree, hmain] at hcount
    simp only [Bool.toNat_false, Bool.toNat_true] at hcount
    omega
  · rintro rfl
    have hfree : s.handler.hasMux.toNat = 0 := Nat.le_zero.mp hmux
    exact ⟨by omega, Bool.toNat_eq_zero.mp hfree⟩

/-- The receive thread is past the first `mqtt_connect`. -/
theorem Phase.opened (hs : Phase s) (halive : s.handler.alive) : s.main.opened := by
  by_contra hmain
  have hearly : s.main.early := by
    cases hpc : s.main <;> rw [hpc] at hmain <;> first | rfl | exact absurd rfl hmain
  rw [hs.early hearly] at halive
  cases halive

/-- The lock is kept in the loop only. -/
theorem hasMux_of_not_reconnects {pc : HandlerPc γ κ} (h : pc.reconnects = false) :
    pc.hasMux = false := by
  cases pc <;> first | rfl | cases h

theorem connect_eq_some {env : ConnectEnv} (h : s.connect params env = some t) :
    t.main = .starting ∧ t.nextSock = s.nextSock + 1 := by
  unfold connect at h
  split at h
  · cases h
  · obtain rfl := Option.some.inj h
    exact ⟨rfl, rfl⟩
  · obtain rfl := Option.some.inj h
    exact ⟨rfl, rfl⟩

/-- A step that opens nothing, from and to places without the lock. -/
theorem Attempted.keep {n : ℕ} (hn : Attempted s n) (hfinds : ¬ FindsBroken s a)
    (hfree : s.handler.hasMux = false) (hfree' : t.handler.hasMux = false)
    (hmain : t.main = s.main) (hsock : t.nextSock = s.nextSock) :
    Attempted t (found s a t n) := by
  rw [found, if_neg hfinds]
  refine ⟨?_, by rw [hfree']; exact Nat.zero_le _, hmain ▸ hn.opened⟩
  rw [hsock, hmain, hfree', ← hfree]
  exact hn.count

theorem not_findsBroken (h : s.handler.retries = false) :
    ¬ FindsBroken s (.handler input : AsyncAction γ κ) := fun hfinds => by
  rw [FindsBroken, h] at hfinds
  cases hfinds.1

/-- Behind the lock an attempt follows… -/
theorem Attempted.reconnectLock {n : ℕ} {total : ℤ} (hs : Phase s) (hn : Attempted s n)
    (hpc : s.handler = .reconnectLock total)
    (h : s.handlerStep params input (.reconnectLock total) = some t) :
    Attempted t (found s (.handler input) t n) := by
  simp only [handlerStep] at h
  split_ifs at h with hfree hbroken
  · obtain rfl := Option.some.inj h
    exact hn.keep (fun hfinds => hbroken hfinds.2.2) (by rw [hpc]; rfl) rfl rfl rfl
  · have hopen := reopen_eq_some h
    have hfinds : FindsBroken s (.handler input) := ⟨by rw [hpc]; rfl, hfree, not_not.mp hbroken⟩
    have hmain := hs.opened (by rw [hpc]; rfl)
    have hcount := hn.count
    rw [hpc] at hcount
    rw [found, if_pos hfinds]
    refine ⟨?_, by rw [hopen.handler]; exact Nat.le_add_left _ _, fun _ => hopen.main ▸ hmain⟩
    rw [hopen.nextSock, hopen.main, hopen.handler]
    exact congrArg (· + 1) hcount

/-- …which takes a socket. -/
theorem Attempted.connecting {n : ℕ} {total : ℤ} (hn : Attempted s n)
    (hpc : s.handler = .connecting total) (h : s.reconnect params input.connect total = some t) :
    Attempted t (found s (.handler input) t n) := by
  have hcount := hn.count
  rw [hpc] at hcount
  rw [found, if_neg (not_findsBroken (by rw [hpc]; rfl))]
  unfold AsyncSystem.reconnect at h
  split at h
  · cases h
  · obtain rfl := Option.some.inj h
    exact ⟨hcount, Nat.zero_le _, hn.opened⟩
  · obtain rfl := Option.some.inj h
    exact ⟨hcount, Nat.zero_le _, hn.opened⟩

theorem Attempted.handler {n : ℕ} (hs : Phase s) (hn : Attempted s n)
    (h : s.handlerStep params input s.handler = some t) :
    Attempted t (found s (.handler input) t n) := by
  cases hpc : s.handler with
  | reconnect | waiting =>
    rw [hpc] at h
    obtain rfl := Option.some.inj h
    refine hn.keep (not_findsBroken (by rw [hpc]; rfl)) (by rw [hpc]; rfl) ?_ rfl rfl
    dsimp only [AsyncSystem.goto]
    split_ifs <;> rfl
  | reconnectLock total =>
    rw [hpc] at h
    exact hn.reconnectLock hs hpc h
  | connecting total =>
    rw [hpc] at h
    exact hn.connecting hpc h
  | _ =>
    have helse : s.handler.reconnects = false := by rw [hpc]; rfl
    obtain ⟨hplace, hsame⟩ := handler_elsewhere helse h
    have hfree' : t.handler.hasMux = false := by
      rcases hplace with hplace | hplace
      · exact hasMux_of_not_reconnects hplace
      · rw [hplace]
        rfl
    exact hn.keep (not_findsBroken (by rw [hpc]; rfl)) (hasMux_of_not_reconnects helse) hfree'
      hsame.main hsame.nextSock

theorem Attempted.other {n : ℕ} (hs : Phase s) (hn : Attempted s n)
    (ha : ∀ input, a ≠ .handler input) (h : s.step params a = some t) :
    Attempted t (found s a t n) := by
  have hfinds : ¬ FindsBroken s a := by
    cases a with
    | handler input => exact absurd rfl (ha input)
    | _ => exact id
  have hcount := hn.count
  obtain ⟨hcases, hpc⟩ := other_cases hs ha h
  have hmux : t.handler.hasMux = s.handler.hasMux := by
    rcases hpc with hpc | ⟨hmain, hpc⟩
    · rw [hpc]
    · rw [hpc, hs.early (by rw [hmain]; rfl)]
      rfl
  rw [found, if_neg hfinds]
  rcases hcases with ⟨-, hapart⟩ | ⟨input, -, hmain, hconnect⟩
  · exact ⟨by rw [hapart.nextSock, hapart.opened, hmux]; exact hcount, hmux ▸ hn.mux,
      hapart.opened ▸ hn.opened⟩
  · obtain ⟨hmain', hsock⟩ := connect_eq_some hconnect
    rw [hmain] at hcount
    refine ⟨?_, hmux ▸ hn.mux, fun _ => by rw [hmain']; rfl⟩
    rw [hmain', hsock, hmux]
    simp only [MainPc.opened, Bool.toNat_true, Bool.toNat_false] at hcount ⊢
    omega

theorem Attempted.step {n : ℕ} (hs : Phase s) (hn : Attempted s n) (h : s.step params a = some t) :
    Attempted t (found s a t n) := by
  cases a with
  | handler input => exact hn.handler hs h
  | main | request | call => exact hn.other hs (by simp) h

theorem attempted_reach {good : AsyncSystem γ κ × ℕ → AsyncAction γ κ → Prop} {n : ℕ}
    (h : Reach (observe (AsyncSystem.step params) id found) good (init, 0) (s, n)) :
    Attempted s n := by
  refine And.right (h.invariant
    (I := fun p => Phase p.1 ∧ Attempted p.1 p.2) ⟨phase_init, attempted_init⟩ ?_)
  rintro ⟨s, n⟩ a ⟨t, n'⟩ ⟨hs, hn⟩ - hobserve
  obtain ⟨hstep, hnote⟩ := observe_eq_some.mp hobserve
  obtain rfl : n' = found s a t n := hnote
  exact ⟨hs.step (step_effect hstep), hn.step hs hstep⟩

/-- With the option at `0` nobody says yes. -/
theorem refused_outageEvents
    (hanswers : Answers (some (atTr50ShouldReconnect 0)) s (.handler input)) :
    ∀ e ∈ s.outageEvents input, e.isYes = false := by
  intro e he
  unfold outageEvents at he
  split at he
  · split_ifs at he
    · rw [List.mem_singleton.mp he]
      rfl
    · cases he
  · rename_i total counter hpc
    have hno : input.shouldReconnect = false := hanswers total counter hpc
    rw [hno, if_neg Bool.false_ne_true] at he
    split_ifs at he
    · rcases List.mem_pair.mp he with rfl | rfl <;> rfl
    · cases he
  · cases he

/-- **…so that the option at `0` leaves each outage the attempt that nobody is asked about.** -/
theorem refused_once
    (h : Reach (observe (AsyncSystem.step params) id outage)
      (fun p a => Answers (some (atTr50ShouldReconnect 0)) p.1 a) (init, []) (s, log)) :
    (log.filter OutageEvent.isAttempt).length ≤ 1 := by
  refine (outage_reach h).2.run.once_of_refused (h.invariant
    (I := fun p => ∀ e ∈ p.2, e.isYes = false) (by simp) ?_)
  rintro ⟨s, log⟩ a ⟨t, log'⟩ hlog hanswers hobserve e he
  obtain ⟨-, hnote⟩ := observe_eq_some.mp hobserve
  obtain rfl : log' = outage s a t log := hnote
  change e ∈ outage s a t log at he
  unfold outage at he
  split_ifs at he
  · cases he
  · cases a with
    | handler input =>
      rcases List.mem_append.mp he with he | he
      · exact refused_outageEvents hanswers e he
      · exact hlog e he
    | _ => exact hlog e he

/-- How often the client has been found BROKEN, and the log of the outage. -/
def foundIn (s : AsyncSystem γ κ) (a : AsyncAction γ κ) (t : AsyncSystem γ κ)
    (note : ℕ × List OutageEvent) : ℕ × List OutageEvent :=
  (found s a t note.1, outage s a t note.2)

/-- **With the option at `0` no connect follows the first exactly where the receive thread never
comes to its lock while the client is BROKEN**: the policy is not asked before the first attempt of
an outage.  It is before any other, and there is none. -/
theorem connectedOnce_iff {n : ℕ}
    (h : Reach (observe (AsyncSystem.step params) id foundIn)
      (fun p a => Answers (some (atTr50ShouldReconnect 0)) p.1 a) (init, (0, [])) (s, (n, log))) :
    (ConnectedOnce s ↔ n = 0) ∧ (log.filter OutageEvent.isAttempt).length ≤ 1 := by
  have hfound : Reach (observe (AsyncSystem.step params) id found) (fun _ _ => True) (init, 0)
      (s, n) := h.project (f := Prod.fst) (fun _ _ _ _ => rfl) fun _ _ _ => trivial
  have houtage : Reach (observe (AsyncSystem.step params) id outage)
      (fun p a => Answers (some (atTr50ShouldReconnect 0)) p.1 a) (init, []) (s, log) := by
    refine h.project (f := Prod.snd) (fun _ _ _ _ => rfl) fun p a hanswers => ?_
    exact hanswers
  exact ⟨(attempted_reach hfound).once_iff, refused_once houtage⟩

end AsyncSystem

/-! ### A broker that is not there -/

/-- A socket that does not connect. -/
def ConnectEnv.unreachable : ConnectEnv := { ConnectEnv.accepted with tcpConnect := -1 }

/-- …and a policy that says no. -/
def HandlerInput.unreachable : HandlerInput :=
  { HandlerInput.lost with connect := .unreachable, shouldReconnect := false }

/-- The first connect fails, and so does the first attempt. -/
def unreachable : List (AsyncAction Unit Unit) :=
  List.replicate 3 (.main ⟨.unreachable, 0, ⟨true, 0⟩⟩)
    ++ List.replicate 8 (.handler .unreachable)

namespace AsyncSystem

theorem unreachable_reach : ∃ s : AsyncSystem Unit Unit,
    Reach (observe (AsyncSystem.step .anonymous) id outage) (fun _ _ => True) (init, [])
      (s, [.attempt])
    ∧ s.handler = .waiting 0 0 ∧ s.client.state = .broken ∧ s.client.timeoutInMs = 5000 := by
  have heval : (unreachable.foldlM (observe (AsyncSystem.step .anonymous) id outage)
      (init, [])).map (fun (p : AsyncSystem Unit Unit × List OutageEvent) =>
        (p.2, p.1.handler, p.1.client.state, p.1.client.timeoutInMs))
      = some ([.attempt], .waiting 0 0, .broken, 5000) := by
    decide +kernel
  obtain ⟨⟨s, log⟩, hp, hview⟩ := Option.map_eq_some_iff.mp heval
  simp only [Prod.mk.injEq] at hview
  obtain ⟨rfl, hpc, hbroken, htimeout⟩ := hview
  exact ⟨s, Reach.of_foldlM _ (by simp) hp, hpc, hbroken, htimeout⟩

/-- Five seconds later the policy says yes, and there is another attempt. -/
theorem outage_faithful_iff_retried : ∃ s : AsyncSystem Unit Unit,
    Reach (observe (AsyncSystem.step .anonymous) id outage) (fun _ _ => True) (init, [])
      (s, [.attempt, .consulted 5000 5000 true, .slept 5000, .consulted 0 0 false, .attempt])
    ∧ (Faithful [.attempt, .consulted 5000 5000 true, .slept 5000, .consulted 0 0 false, .attempt]
      ↔ Short [.attempt, .consulted 5000 5000 true, .slept 5000, .consulted 0 0 false,
        .attempt]) := by
  have heval : ((unreachable ++ AsyncAction.handler .unreachable :: List.replicate 4
      (AsyncAction.handler { HandlerInput.unreachable with shouldReconnect := true })).foldlM
        (observe (AsyncSystem.step .anonymous) id outage) (init, [])).map
        (fun (p : AsyncSystem Unit Unit × List OutageEvent) => p.2)
      = some [.attempt, .consulted 5000 5000 true, .slept 5000, .consulted 0 0 false,
        .attempt] := by
    decide +kernel
  obtain ⟨⟨s, log⟩, hp, rfl⟩ := Option.map_eq_some_iff.mp heval
  have hreach := Reach.of_foldlM _ (fun _ _ _ => trivial) hp
  exact ⟨s, hreach, outage_faithful_iff hreach⟩

/-- **After 25 days the callback is told that the outage has not begun yet.** -/
theorem not_outage_faithful : ¬ ∀ p : AsyncSystem Unit Unit × List OutageEvent,
    Reach (observe (AsyncSystem.step .anonymous) id outage) (fun _ _ => True) (init, []) p →
    Faithful p.2 := by
  intro h
  obtain ⟨s, hreach, hpc, hbroken, htimeout⟩ := unreachable_reach
  have hrefused := @refused_reach Unit Unit .anonymous s .unreachable [.attempt] 0 0 hpc hbroken rfl
    hreach
  obtain ⟨total, counter, log, hlong, hslept⟩ := hrefused 429497
  obtain ⟨total', counter', hasked⟩ := @refused_step Unit Unit .anonymous
    (s.goto (.waiting total counter)) .unreachable log total counter rfl hbroken rfl
  have hreach' := hlong.tail trivial hasked
  have hshort := (outage_reach hreach').2.run.faithful_iff.mp (h _ hreach')
  have hlt := hshort _ _ _ log (List.suffix_cons _ _)
  rw [hslept, htimeout] at hlt
  exact absurd hlt (by decide)

theorem refused_unreachable (s : AsyncSystem Unit Unit) :
    ∀ a ∈ unreachable, Answers (some (atTr50ShouldReconnect 0)) s a := by
  intro a ha
  rcases List.mem_append.mp ha with ha | ha
  · rw [(List.mem_replicate.mp ha).2]
    trivial
  · rw [(List.mem_replicate.mp ha).2]
    exact fun _ _ _ => rfl

theorem connectedOnce_iff_unreachable : ∃ s : AsyncSystem Unit Unit,
    Reach (observe (AsyncSystem.step .anonymous) id foundIn)
      (fun p a => Answers (some (atTr50ShouldReconnect 0)) p.1 a) (init, (0, []))
      (s, (1, [.attempt]))
    ∧ (ConnectedOnce s ↔ 1 = 0) ∧ (([.attempt] : List OutageEvent).filter (·.isAttempt)).length ≤ 1
    := by
  have heval : (unreachable.foldlM (observe (AsyncSystem.step .anonymous) id foundIn)
      (init, (0, []))).map (·.2) = some (1, [.attempt]) := by
    decide +kernel
  obtain ⟨⟨s, note⟩, hp, rfl⟩ := Option.map_eq_some_iff.mp heval
  have hreach := Reach.of_foldlM _ (fun p => refused_unreachable p.1) hp
  exact ⟨s, hreach, connectedOnce_iff hreach⟩

/-- **With the option at `0` a client whose first connect fails tries once more.** -/
theorem not_connectedOnce : ¬ ∀ s : AsyncSystem Unit Unit,
    Reach (AsyncSystem.step .anonymous) (Answers (some (atTr50ShouldReconnect 0))) init s →
    ConnectedOnce s := by
  intro h
  have heval : (unreachable.foldlM (AsyncSystem.step .anonymous) init).map (·.nextSock)
      = some 2 := by
    decide +kernel
  obtain ⟨s, hs, hsock⟩ := Option.map_eq_some_iff.mp heval
  have honce := (h s (Reach.of_foldlM _ refused_unreachable hs)).1
  rw [hsock] at honce
  exact absurd honce (by decide)

end AsyncSystem

end Tr50
