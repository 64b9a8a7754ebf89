import Tr50.Mqtt.Outage

/-!
# Api/Traffic — where received bytes are counted

What `mqtt_recv` has received is counted by the connection (`byte_recv`).  It goes on to the
asynchronous client where the connection is given up (`stats_total_byte_recv`), and to the
statistics where `tr50_stop` ends (`total_recv`).  `TrafficSystem` is a client that is started and
stopped any number of times, and an observer counts what is received (`consumed`).

`tr50_stop` reads its count before the receive thread has ended, and into an `int`; and nobody reads
that of a start whose thread cannot be created.  Nothing else is lost (`kept_eq_consumed`).
-/

namespace Tr50

open Machinery

variable {γ κ : Type}

/-! ## The counters -/

/-- Where `tr50_stop` stands. -/
inductive TrafficPc
  | absent
  /-- At `mqtt_stats_byte_recv`, `total` being the `stats_total_byte_recv` it is added to. -/
  | recv (total : ℤ)
  /-- At `mqtt_async_disconnect`. -/
  | disconnect (lastRecv : ℤ)
deriving DecidableEq, Repr

namespace TrafficPc

def counts : TrafficPc → Bool
  | recv _ => true
  | _ => false

def disconnects : TrafficPc → Bool
  | disconnect _ => true
  | _ => false

/-- `last_recv`, if there is one. -/
def lastRecv : TrafficPc → ℤ
  | disconnect lastRecv => lastRecv
  | _ => 0

end TrafficPc

/-- The asynchronous client of a start. -/
structure Traffic (γ κ : Type) where
  async : AsyncSystem γ κ
  statsTotalByteRecv : ℤ
  /-- What a `mqtt_recv` has received that has not returned yet. -/
  ahead : ℕ
  pc : TrafficPc

/-- `_TR50_CLIENT`, as far as it counts what is received; without `mqtt` it is stopped. -/
structure TrafficSystem (γ κ : Type) where
  totalRecv : ℤ
  mqtt : Option (Traffic γ κ)

inductive TrafficAction (γ κ : Type)
  /-- `tr50_start2` gets its client from `mqtt_async_connect`, which goes on from there. -/
  | start
  | async (a : AsyncAction γ κ)
  /-- `mqtt_recv` receives a piece, and goes on. -/
  | piece (n : ℕ)
  /-- `tr50_stop` is called, and gets to `mqtt_async_stats_byte_recv`… -/
  | stop
  /-- …and to its `mqtt_stats_byte_recv`. -/
  | count
  /-- `tr50_stop` adds what it has read; or `tr50_start2` fails. -/
  | finish

/-- At `mqtt_recv`. -/
def HandlerPc.receives : HandlerPc γ κ → Bool
  | recv => true
  | _ => false

theorem HandlerPc.not_retries {pc : HandlerPc γ κ} (h : pc.receives) : pc.retries = false := by
  cases pc <;> first | rfl | cases h

theorem HandlerPc.usesMqtt_of_receives {pc : HandlerPc γ κ} (h : pc.receives) : pc.usesMqtt := by
  cases pc <;> first | rfl | cases h

/-- Under the lock the receive thread finds a connection to be given up. -/
def AsyncSystem.HandsOver (s : AsyncSystem γ κ) (a : AsyncAction γ κ) : Prop :=
  s.FindsBroken a ∧ s.client.mqtt.isSome

instance (s : AsyncSystem γ κ) (a : AsyncAction γ κ) : Decidable (s.HandsOver a) :=
  inferInstanceAs (Decidable (_ ∧ _))

namespace Traffic

variable (params : MqttConnectParams) (m : Traffic γ κ)

/-- `mqtt_stats_byte_recv` of the current connection. -/
def mqttStatsByteRecv : ℤ :=
  match m.async.client.mqtt with
  | none => 0
  | some mqtt => mqtt.byteRecv + m.ahead

/-- `mqtt_async_stats_byte_recv`, up to its call of `mqtt_stats_byte_recv`. -/
def mqttAsyncStatsByteRecv : TrafficPc :=
  match m.async.client.mqtt with
  | none => .disconnect (toInt32 m.statsTotalByteRecv)
  | some _ => .recv m.statsTotalByteRecv

/-- The application gets to `mqtt_async_disconnect` by `tr50_stop`; and `mqtt_recv` returns no less
than it has received. -/
def Admits : AsyncAction γ κ → Prop
  | .main _ => m.async.main = .running → m.pc.disconnects
  | .handler input => m.ahead ≤ input.taken m.async.handler
  | .request _ _ | .call => True

instance : (a : AsyncAction γ κ) → Decidable (m.Admits a)
  | .main _ => inferInstanceAs (Decidable (_ → _))
  | .handler _ => inferInstanceAs (Decidable (_ ≤ _))
  | .request _ _ | .call => .isTrue trivial

/-- The asynchronous client goes on. -/
def go (a : AsyncAction γ κ) : Option (Traffic γ κ) :=
  if m.Admits a then
    (m.async.step params a).map fun async => { m with
      async
      statsTotalByteRecv :=
        if m.async.HandsOver a then toInt64 (m.statsTotalByteRecv + m.mqttStatsByteRecv)
        else m.statsTotalByteRecv
      ahead :=
        match a with
        | .handler _ => 0
        | _ => m.ahead }
  else none

def step : TrafficAction γ κ → Option (Traffic γ κ)
  | .async a => m.go params a
  | .piece n => if m.async.handler.receives then some { m with ahead := m.ahead + n } else none
  | .stop =>
      if m.async.main = .running ∧ m.pc = .absent then
        some { m with pc := m.mqttAsyncStatsByteRecv }
      else none
  | .count =>
      match m.pc with
      | .recv total => some { m with pc := .disconnect (toInt32 (total + m.mqttStatsByteRecv)) }
      | _ => none
  | .start | .finish => none

end Traffic

namespace TrafficSystem

def init : TrafficSystem γ κ := ⟨0, none⟩

def step (params : MqttConnectParams) (s : TrafficSystem γ κ) :
    TrafficAction γ κ → Option (TrafficSystem γ κ)
  | .start =>
      if s.mqtt.isNone then some { s with mqtt := some ⟨.init, 0, 0, .absent⟩ } else none
  | .finish => s.mqtt.bind fun m =>
      if m.async.main = .deleted then
        match m.pc with
        | .disconnect lastRecv => some ⟨toInt64 (s.totalRecv + lastRecv), none⟩
        | _ => some { s with mqtt := none }
      else none
  | a => s.mqtt.bind fun m => (m.step params a).map fun m => { s with mqtt := some m }

end TrafficSystem

/-! ## What is received -/

/-- What `mqtt_connect` receives on a connection that it makes. -/
def ConnectEnv.received (env : ConnectEnv) (params : MqttConnectParams) (s : AsyncSystem γ κ) :
    ℕ :=
  match mqttConnect env params s.nextSock s.history.links with
  | some (.ok _, _) => env.answer.bytes
  | _ => 0

/-- What is received in a step. -/
def AsyncSystem.received (params : MqttConnectParams) (s : AsyncSystem γ κ) :
    AsyncAction γ κ → ℤ
  | .main input => if s.main = .connecting then input.connect.received params s else 0
  | .handler input =>
      match s.handler with
      | .connecting _ => input.connect.received params s
      | pc => input.taken pc
  | .request _ _ | .call => 0

/-- …and has not been received before. -/
def Traffic.received (params : MqttConnectParams) (m : Traffic γ κ) : TrafficAction γ κ → ℤ
  | .async (.handler input) => m.async.received params (.handler input) - m.ahead
  | .async a => m.async.received params a
  | .piece n => n
  | _ => 0

namespace TrafficSystem

variable (params : MqttConnectParams)

def received (s : TrafficSystem γ κ) (a : TrafficAction γ κ) : ℤ :=
  s.mqtt.elim 0 fun m => m.received params a

/-- What `mqtt_recv` has received on all connections. -/
def consumed (s : TrafficSystem γ κ) (a : TrafficAction γ κ) (_ : TrafficSystem γ κ) (n : ℤ) : ℤ :=
  n + s.received params a

end TrafficSystem

/-- `stats_total_byte_recv`, and the count of the current connection. -/
def Traffic.counted (m : Traffic γ κ) : ℤ := m.statsTotalByteRecv + m.mqttStatsByteRecv

/-- What the counters of a start hold; with its connection gone, it is in the hands of
`tr50_stop`. -/
def Traffic.held (m : Traffic γ κ) : ℤ := if m.async.main.gone then m.pc.lastRecv else m.counted

/-- What the counters hold. -/
def TrafficSystem.kept (s : TrafficSystem γ κ) : ℤ := s.totalRecv + s.mqtt.elim 0 Traffic.held

/-! ## What loses nothing -/

def TrafficAction.reads : TrafficAction γ κ → Bool
  | stop | count => true
  | _ => false

namespace Traffic

/-- A connection is given up. -/
def HandsOver (m : Traffic γ κ) : TrafficAction γ κ → Prop
  | .async a => m.async.HandsOver a
  | _ => False

/-- `_thread_create` fails. -/
def Unthreaded (m : Traffic γ κ) : TrafficAction γ κ → Prop
  | .async (.main input) => m.async.main = .starting ∧ input.threadCreate ≠ 0
  | _ => False

instance (m : Traffic γ κ) : (a : TrafficAction γ κ) → Decidable (m.HandsOver a)
  | .async a => inferInstanceAs (Decidable (m.async.HandsOver a))
  | .start | .piece _ | .stop | .count | .finish => .isFalse id

instance (m : Traffic γ κ) : (a : TrafficAction γ κ) → Decidable (m.Unthreaded a)
  | .async (.main _) => inferInstanceAs (Decidable (_ ∧ _))
  | .async (.handler _) | .async (.request _ _) | .async .call => .isFalse id
  | .start | .piece _ | .stop | .count | .finish => .isFalse id

/-- Once `tr50_stop` has counted nothing is received, and while it counts no connection is given up;
a start whose thread cannot be created has received nothing; and the count fits into an `int`. -/
structure Accounts (params : MqttConnectParams) (m : Traffic γ κ) (a : TrafficAction γ κ) :
    Prop where
  quiet : m.pc.disconnects → m.received params a = 0
  steady : m.pc.counts → ¬ m.HandsOver a
  threaded : m.Unthreaded a → m.counted = 0
  narrow : a.reads → m.counted < 2 ^ 31

instance (params : MqttConnectParams) (m : Traffic γ κ) (a : TrafficAction γ κ) :
    Decidable (m.Accounts params a) :=
  decidable_of_iff ((_ → _) ∧ (_ → _) ∧ (_ → _) ∧ (_ → _))
    ⟨fun ⟨h₁, h₂, h₃, h₄⟩ => ⟨h₁, h₂, h₃, h₄⟩, fun ⟨h₁, h₂, h₃, h₄⟩ => ⟨h₁, h₂, h₃, h₄⟩⟩

end Traffic

/-- …and neither does what has been received leave a `long long`. -/
def TrafficSystem.Accounts (params : MqttConnectParams) (p : TrafficSystem γ κ × ℤ)
    (a : TrafficAction γ κ) : Prop :=
  (∀ m ∈ p.1.mqtt, m.Accounts params a) ∧ p.2 + p.1.received params a < 2 ^ 63

instance (params : MqttConnectParams) (p : TrafficSystem γ κ × ℤ) (a : TrafficAction γ κ) :
    Decidable (TrafficSystem.Accounts params p a) := inferInstanceAs (Decidable (_ ∧ _))

/-! ## The connection -/

theorem mqttSend_byteRecv (env : SendEnv) (client : MqttClient) (buf : List UInt8) :
    (mqttSend env client buf).2.byteRecv = client.byteRecv := by
  unfold mqttSend
  split_ifs <;> rfl

/-- A connection that is made has received its CONNACK. -/
theorem mqttConnect_byteRecv {env : ConnectEnv} {params : MqttConnectParams} {sock : ℕ}
    {log log' : List LinkEvent} {mqtt : MqttClient}
    (h : mqttConnect env params sock log = some (.ok mqtt, log')) :
    mqtt.byteRecv = env.answer.bytes := by
  unfold mqttConnect at h
  split_ifs at h
  · cases h
  · cases h
  · cases h
  split at h
  · cases h
  · cases h
  rename_i req _
  have hsend := mqttSend_byteRecv env.send ⟨sock, 0, 0, 0, []⟩ req
  change mqttConnectAnswer env.answer (mqttSend env.send ⟨sock, 0, 0, 0, []⟩ req).2 _ = _ at h
  generalize (mqttSend env.send ⟨sock, 0, 0, 0, []⟩ req).2 = client at h hsend
  unfold mqttConnectAnswer at h
  cases hanswer : env.answer with
  | failed ret hret taken =>
    rw [hanswer] at h
    cases h
  | packet rsp hrsp now =>
    rw [hanswer] at h
    dsimp only at h
    split at h
    · cases h
    · split_ifs at h
      · cases h
      · obtain ⟨heq, -⟩ := Prod.mk.inj (Option.some.inj h)
        obtain rfl := Except.ok.inj heq
        change client.byteRecv + rsp.length = _
        rw [hsend]
        exact zero_add _

namespace AsyncSystem

variable {params : MqttConnectParams} {s t : AsyncSystem γ κ} {a : AsyncAction γ κ}

theorem byteRecv_of_none (h : s.client.mqtt = none) : s.byteRecv = 0 := by
  rw [byteRecv, h]
  rfl

theorem byteRecv_of_some {mqtt : MqttClient} (h : s.client.mqtt = some mqtt) :
    s.byteRecv = mqtt.byteRecv := by
  rw [byteRecv, h]
  rfl

/-- Of a connection that is not made nothing is received. -/
theorem connectReceived_of_error {env : ConnectEnv} {ret : ℤ} {links : List LinkEvent}
    (h : mqttConnect env params s.nextSock s.history.links = some (.error ret, links)) :
    env.received params s = 0 := by
  rw [ConnectEnv.received, h]

theorem connectReceived_of_ok {env : ConnectEnv} {mqtt : MqttClient} {links : List LinkEvent}
    (h : mqttConnect env params s.nextSock s.history.links = some (.ok mqtt, links)) :
    mqtt.byteRecv = env.received params s := by
  rw [mqttConnect_byteRecv h, ConnectEnv.received, h]

theorem received_nonneg (a : AsyncAction γ κ) : 0 ≤ s.received params a := by
  cases a with
  | main input =>
    dsimp only [received]
    split_ifs <;> omega
  | handler input =>
    dsimp only [received]
    split
    · omega
    · unfold HandlerInput.taken
      split <;> omega
  | _ => exact le_rfl

/-- Under the lock what the connection has received is handed over… -/
theorem byteRecv_reconnectLock {input : HandlerInput} {total : ℤ}
    (hpc : s.handler = .reconnectLock total)
    (h : s.handlerStep params input (.reconnectLock total) = some t) :
    (s.HandsOver (.handler input) ∧ t.byteRecv = 0)
      ∨ ¬ s.HandsOver (.handler input) ∧ t.byteRecv = s.byteRecv := by
  simp only [handlerStep] at h
  split_ifs at h with hfree hbroken
  · obtain rfl := Option.some.inj h
    exact Or.inr ⟨fun hover => hbroken hover.1.2.2, rfl⟩
  · have hnone : t.byteRecv = 0 := byteRecv_of_none (reopen_eq_some h).mqtt
    cases hmqtt : s.client.mqtt with
    | none =>
      refine Or.inr ⟨fun hover => ?_, hnone.trans (byteRecv_of_none hmqtt).symm⟩
      rw [HandsOver, hmqtt] at hover
      cases hover.2
    | some mqtt =>
      have hfinds : s.FindsBroken (.handler input : AsyncAction γ κ) :=
        ⟨by rw [hpc]; rfl, hfree, not_not.mp hbroken⟩
      exact Or.inl ⟨⟨hfinds, by rw [hmqtt]; rfl⟩, hnone⟩

/-- …and the next one begins with its CONNACK. -/
theorem byteRecv_connecting {env : ConnectEnv} {total : ℤ} (hnone : s.client.mqtt = none)
    (h : s.reconnect params env total = some t) : t.byteRecv = env.received params s := by
  unfold reconnect at h
  split at h
  · cases h
  · rename_i mqtt links hconnect
    obtain rfl := Option.some.inj h
    exact connectReceived_of_ok hconnect
  · rename_i ret links hconnect
    obtain rfl := Option.some.inj h
    rw [connectReceived_of_error hconnect]
    exact byteRecv_of_none hnone

/-- **A step of the receive thread gives up a connection, or counts what it receives.** -/
theorem byteRecv_handler {input : HandlerInput} (hs : Phase s)
    (h : s.handlerStep params input s.handler = some t) :
    (s.HandsOver (.handler input) ∧ t.byteRecv = 0 ∧ s.received params (.handler input) = 0)
      ∨ ¬ s.HandsOver (.handler input)
        ∧ t.byteRecv = s.byteRecv + s.received params (.handler input) := by
  have hkeep : s.handler.retries = false → ¬ s.HandsOver (.handler input : AsyncAction γ κ) :=
    fun hpc hover => not_findsBroken hpc hover.1
  cases hpc : s.handler with
  | reconnect | waiting =>
    rw [hpc] at h
    obtain rfl := Option.some.inj h
    refine Or.inr ⟨hkeep (by rw [hpc]; rfl), ?_⟩
    rw [received, hpc]
    exact (add_zero _).symm
  | reconnectLock total =>
    have hzero : s.received params (.handler input) = 0 := by rw [received, hpc]; rfl
    rw [hpc] at h
    rw [hzero, add_zero]
    exact (byteRecv_reconnectLock hpc h).imp_left fun ⟨hover, hnone⟩ => ⟨hover, hnone, rfl⟩
  | connecting total =>
    have hnone := (hs.mux (by rw [hpc]; rfl)).2
    have hreceived : s.received params (.handler input) = input.connect.received params s := by
      rw [received, hpc]
    rw [hpc] at h
    refine Or.inr ⟨hkeep (by rw [hpc]; rfl), ?_⟩
    rw [hreceived, byteRecv_of_none hnone, zero_add]
    exact byteRecv_connecting hnone h
  | _ =>
    have helse : s.handler.reconnects = false := by rw [hpc]; rfl
    refine Or.inr ⟨hkeep (by rw [hpc]; rfl), ?_⟩
    rw [(handler_elsewhere helse h).2.byteRecv, received, hpc]

/-- The others count nothing, but for the first connection. -/
theorem byteRecv_other (hs : Phase s) (ha : ∀ input, a ≠ .handler input)
    (h : s.step params a = some t) : t.byteRecv = s.byteRecv + s.received params a := by
  obtain ⟨hcases, -⟩ := other_cases hs ha h
  rcases hcases with ⟨-, hapart⟩ | ⟨input, rfl, hmain, hconnect⟩
  · have hzero : s.received params a = 0 := by
      cases a with
      | main input =>
        refine if_neg fun hmain => ?_
        have hopened := hapart.opened
        change s.mainStep params input s.main = some t at h
        rw [hmain] at h hopened
        rw [(connect_eq_some h).1] at hopened
        cases hopened
      | handler input => exact absurd rfl (ha input)
      | _ => rfl
    rw [hapart.byteRecv, hzero, add_zero]
  · have hnone := hs.unopened (Or.inr hmain)
    rw [byteRecv_of_none hnone, zero_add, received, if_pos hmain]
    unfold connect at hconnect
    split at hconnect
    · cases hconnect
    · rename_i ret links hmqtt
      obtain rfl := Option.some.inj hconnect
      rw [connectReceived_of_error hmqtt]
      exact byteRecv_of_none hnone
    · rename_i mqtt links hmqtt
      obtain rfl := Option.some.inj hconnect
      exact connectReceived_of_ok hmqtt

/-- Only the application itself goes on. -/
theorem step_main (ha : ∀ input, a ≠ .main input) (h : s.step params a = some t) :
    t.main = s.main := by
  cases a with
  | main input => exact absurd rfl (ha input)
  | handler input =>
    cases handler_turn h with
    | other hother => exact hother.main
    | _ => rfl
  | request env req => rcases request_cases h with rfl | rfl <;> rfl
  | call =>
    obtain ⟨call, -, hstep⟩ := Option.bind_eq_some_iff.mp h
    unfold callStep at hstep
    split at hstep
    · unfold callAdd at hstep
      split_ifs at hstep
      split at hstep
      split_ifs at hstep <;> obtain rfl := Option.some.inj hstep <;> rfl
    · unfold callSend at hstep
      split at hstep
      · cases hstep
      · split at hstep
        · cases hstep
        · obtain rfl := Option.some.inj hstep
          rfl

end AsyncSystem

/-! ## Hand-overs -/

/-- `mqtt_async_disconnect` has been called. -/
def MainPc.leaves : MainPc → Bool
  | disconnect | join | close | delete | deleted => true
  | _ => false

/-- It is called by `tr50_stop`, or where there is no thread. -/
theorem AsyncSystem.main_leaves {params : MqttConnectParams} {s t : AsyncSystem γ κ}
    {input : MainInput} (h : s.mainStep params input s.main = some t) (hleaves : t.main.leaves) :
    t.handler = s.handler
      ∧ (s.main.leaves ∨ s.main = .running ∨ s.main = .starting ∧ input.threadCreate ≠ 0) := by
  have hhandler : s.main ≠ .starting → t.handler = s.handler := fun hmain =>
    (main_turn h).2.2.resolve_right fun hstarting => hmain hstarting.1
  cases hmain : s.main with
  | created =>
    rw [hmain] at h
    obtain rfl := Option.some.inj h
    cases hleaves
  | connecting =>
    rw [hmain] at h
    rw [(connect_eq_some h).1] at hleaves
    cases hleaves
  | starting =>
    rw [hmain] at h
    simp only [mainStep] at h
    split_ifs at h with hthread <;> obtain rfl := Option.some.inj h
    · exact ⟨rfl, Or.inr (Or.inr ⟨rfl, hthread⟩)⟩
    · cases hleaves
  | running => exact ⟨hhandler (by simp [hmain]), Or.inr (Or.inl rfl)⟩
  | _ => exact ⟨hhandler (by simp [hmain]), Or.inl rfl⟩

namespace Traffic

variable {params : MqttConnectParams} {m m' : Traffic γ κ} {a : AsyncAction γ κ}

/-- A connection is there where something has been received ahead. -/
theorem counted_eq (hphase : AsyncSystem.Phase m.async)
    (hahead : m.ahead ≠ 0 → m.async.handler.receives) :
    m.counted = m.statsTotalByteRecv + (m.async.byteRecv + m.ahead) := by
  rw [counted, mqttStatsByteRecv]
  split <;> rename_i hmqtt
  · have hzero : m.ahead = 0 := by
      by_contra hne
      have hsome := hphase.uses (HandlerPc.usesMqtt_of_receives (hahead hne))
      rw [hmqtt] at hsome
      cases hsome
    rw [AsyncSystem.byteRecv_of_none hmqtt, hzero]
    rfl
  · rw [AsyncSystem.byteRecv_of_some hmqtt]

theorem toInt64_of_mem {n : ℤ} (h : -2 ^ 63 ≤ n ∧ n < 2 ^ 63) : toInt64 n = n := by
  rw [toInt64, Int.bmod_eq_of_le] <;> omega

/-- The asynchronous client has gone on. -/
structure Goes (params : MqttConnectParams) (m : Traffic γ κ) (a : AsyncAction γ κ)
    (m' : Traffic γ κ) : Prop where
  admits : m.Admits a
  step : m.async.step params a = some m'.async
  pc : m'.pc = m.pc
  total : m'.statsTotalByteRecv =
    if m.async.HandsOver a then toInt64 (m.statsTotalByteRecv + m.mqttStatsByteRecv)
    else m.statsTotalByteRecv
  returned : ∀ input, a = .handler input → m'.ahead = 0
  ahead : (∀ input, a ≠ .handler input) → m'.ahead = m.ahead

theorem go_eq_some (h : m.go params a = some m') : Goes params m a m' := by
  unfold go at h
  by_cases hadmits : m.Admits a
  · rw [if_pos hadmits] at h
    obtain ⟨async, hstep, rfl⟩ := Option.map_eq_some_iff.mp h
    refine ⟨hadmits, hstep, rfl, rfl, ?_, fun ha => ?_⟩
    · rintro input rfl
      rfl
    · cases a with
      | handler input => exact absurd rfl (ha input)
      | _ => rfl
  · rw [if_neg hadmits] at h
    cases h

/-- What is counted, and can be. -/
structure Counted (m : Traffic γ κ) : Prop where
  phase : AsyncSystem.Phase m.async
  ahead : m.ahead ≠ 0 → m.async.handler.receives
  total : 0 ≤ m.statsTotalByteRecv
  byteRecv : 0 ≤ m.async.byteRecv

/-- **What the receive thread receives is counted**, and stays counted when a connection is given
up. -/
theorem Counted.handler {input : HandlerInput} (hm : m.Counted)
    (hlong : m.counted + m.received params (.async (.handler input)) < 2 ^ 63)
    (h : Goes params m (.handler input) m') :
    m'.Counted ∧ m'.counted = m.counted + m.received params (.async (.handler input)) := by
  have hcounted := counted_eq hm.phase hm.ahead
  have htotal := hm.total
  have hbytes := hm.byteRecv
  have hphase : AsyncSystem.Phase m'.async :=
    hm.phase.step (AsyncSystem.step_effect h.step)
  have hreceived : 0 ≤ m.async.received params (.handler input) :=
    AsyncSystem.received_nonneg _
  have hahead := h.returned input rfl
  have hcounted' := counted_eq hphase (fun hne => absurd hahead hne)
  rw [hahead] at hcounted'
  have hsum : m.received params (.async (.handler input))
      = m.async.received params (.handler input) - m.ahead := rfl
  rw [hsum] at hlong ⊢
  rcases AsyncSystem.byteRecv_handler hm.phase h.step with ⟨hover, hzero, hnone⟩ | ⟨hover, hsame⟩
  · -- at the lock there is no `mqtt_recv` under way
    have hreturned : m.ahead = 0 := by
      by_contra hne
      exact absurd hover.1.1 (by simp [HandlerPc.not_retries (hm.ahead hne)])
    have htotal' := h.total
    rw [if_pos hover] at htotal'
    change m'.statsTotalByteRecv = toInt64 m.counted at htotal'
    rw [hnone, hreturned] at hlong ⊢
    rw [toInt64_of_mem (by omega)] at htotal'
    exact ⟨⟨hphase, fun hne => absurd hahead hne, by omega, by omega⟩, by omega⟩
  · have htotal' := h.total
    rw [if_neg hover] at htotal'
    exact ⟨⟨hphase, fun hne => absurd hahead hne, by omega, by omega⟩, by omega⟩

/-- …and so is what is received on the first connection. -/
theorem Counted.other (hm : m.Counted) (ha : ∀ input, a ≠ .handler input)
    (h : Goes params m a m') :
    m'.Counted ∧ m'.counted = m.counted + m.received params (.async a) := by
  have hcounted := counted_eq hm.phase hm.ahead
  have htotal := hm.total
  have hbytes := hm.byteRecv
  have hphase : AsyncSystem.Phase m'.async := hm.phase.step (AsyncSystem.step_effect h.step)
  have hreceived : 0 ≤ m.async.received params a := AsyncSystem.received_nonneg a
  have hbytes' := AsyncSystem.byteRecv_other hm.phase ha h.step
  have hover : ¬ m.async.HandsOver a := fun hover => by
    cases a with
    | handler input => exact ha input rfl
    | _ => exact hover.1
  have htotal' := h.total
  rw [if_neg hover] at htotal'
  have hahead : m'.ahead ≠ 0 → m'.async.handler.receives := by
    rw [h.ahead ha]
    intro hne
    rcases (AsyncSystem.other_cases hm.phase ha h.step).2 with hpc | ⟨hmain, -⟩
    · rw [hpc]
      exact hm.ahead hne
    · have hreceives := hm.ahead hne
      rw [hm.phase.early (by rw [hmain]; rfl)] at hreceives
      cases hreceives
  have hsum : m.received params (.async a) = m.async.received params a := by
    cases a with
    | handler input => exact absurd rfl (ha input)
    | _ => rfl
  have hcounted' := counted_eq hphase hahead
  rw [h.ahead ha] at hcounted'
  exact ⟨⟨hphase, hahead, by omega, by omega⟩, by omega⟩

/-- What `tr50_stop` knows of the count. -/
structure Kept (m : Traffic γ κ) : Prop extends Counted m where
  absent : m.pc = .absent → m.async.main.leaves → m.async.handler = .absent ∧ m.counted = 0
  recv : ∀ total, m.pc = .recv total → total = m.statsTotalByteRecv ∧ m.async.main = .running
  disconnect : ∀ lastRecv, m.pc = .disconnect lastRecv → lastRecv = m.counted

theorem Counted.go (hm : m.Counted)
    (hlong : m.counted + m.received params (.async a) < 2 ^ 63) (h : Goes params m a m') :
    m'.Counted ∧ m'.counted = m.counted + m.received params (.async a) := by
  by_cases ha : ∀ input, a ≠ .handler input
  · exact hm.other ha h
  · obtain ⟨input, rfl⟩ := not_forall_not.mp ha
    exact hm.handler hlong h

/-- A start that has not got a thread receives nothing more. -/
theorem Kept.absent_go (hm : m.Kept) (hgood : m.Accounts params (.async a))
    (h : Goes params m a m') (hpc : m.pc = .absent) (hleaves : m'.async.main.leaves) :
    m'.async.handler = .absent ∧ m.counted + m.received params (.async a) = 0 := by
  cases a with
  | main input =>
    obtain ⟨hhandler, hmain⟩ := AsyncSystem.main_leaves h.step hleaves
    have hzero : m.async.main ≠ .connecting → m.received params (.async (.main input)) = 0 :=
      fun hne => if_neg hne
    rw [hhandler]
    rcases hmain with hmain | hmain | ⟨hmain, hthread⟩
    · obtain ⟨habsent, hcounted⟩ := hm.absent hpc hmain
      refine ⟨habsent, ?_⟩
      rw [hcounted, hzero fun hconnecting => by rw [hconnecting] at hmain; cases hmain]
      rfl
    · have hdisconnects := h.admits hmain
      rw [hpc] at hdisconnects
      cases hdisconnects
    · refine ⟨hm.phase.early (by rw [hmain]; rfl), ?_⟩
      rw [hgood.threaded ⟨hmain, hthread⟩, hzero (by simp [hmain])]
      rfl
  | handler input =>
    rw [AsyncSystem.step_main (by simp) h.step] at hleaves
    have hstep := h.step
    change m.async.handlerStep params input m.async.handler = _ at hstep
    rw [(hm.absent hpc hleaves).1] at hstep
    cases hstep
  | request | call =>
    rw [AsyncSystem.step_main (by simp) h.step] at hleaves
    obtain ⟨habsent, hcounted⟩ := hm.absent hpc hleaves
    refine ⟨?_, by rw [hcounted]; rfl⟩
    rcases (AsyncSystem.other_cases hm.phase (by simp) h.step).2 with hhandler | ⟨hmain, -⟩
    · rw [hhandler, habsent]
    · rw [hmain] at hleaves
      cases hleaves

/-- **What `tr50_stop` knows stays true** while the asynchronous client goes on. -/
theorem Kept.go (hm : m.Kept) (hgood : m.Accounts params (.async a))
    (hlong : m.counted + m.received params (.async a) < 2 ^ 63) (h : Goes params m a m') :
    m'.Kept ∧ m'.counted = m.counted + m.received params (.async a) := by
  obtain ⟨hcounted, hsum⟩ := hm.toCounted.go hlong h
  refine ⟨⟨hcounted, ?_, ?_, ?_⟩, hsum⟩ <;> rw [h.pc]
  · rw [hsum]
    exact hm.absent_go hgood h
  · intro total hpc
    obtain ⟨htotal, hmain⟩ := hm.recv total hpc
    have hsteady : ¬ m.async.HandsOver a := hgood.steady (by rw [hpc]; rfl)
    rw [h.total, if_neg hsteady]
    refine ⟨htotal, ?_⟩
    rw [AsyncSystem.step_main ?_ h.step, hmain]
    rintro input rfl
    have hdisconnects := h.admits hmain
    rw [hpc] at hdisconnects
    cases hdisconnects
  · intro lastRecv hpc
    rw [hsum, hgood.quiet (by rw [hpc]; rfl), add_zero]
    exact hm.disconnect lastRecv hpc

theorem Counted.nonneg (hm : m.Counted) : 0 ≤ m.counted := by
  have htotal := hm.total
  have hbytes := hm.byteRecv
  rw [counted_eq hm.phase hm.ahead]
  omega

/-- A piece is counted at once. -/
theorem Kept.piece {n : ℕ} (hm : m.Kept) (hgood : m.Accounts params (.piece n))
    (hreceives : m.async.handler.receives) :
    Kept { m with ahead := m.ahead + n }
      ∧ counted { m with ahead := m.ahead + n } = m.counted + n := by
  have hcounted := counted_eq hm.phase hm.ahead
  have hcounted' : counted { m with ahead := m.ahead + n }
      = m.statsTotalByteRecv + (m.async.byteRecv + (m.ahead + n : ℕ)) :=
    counted_eq (m := { m with ahead := m.ahead + n }) hm.phase fun _ => hreceives
  have hsum : counted { m with ahead := m.ahead + n } = m.counted + n := by
    rw [hcounted, hcounted']
    omega
  refine ⟨⟨⟨hm.phase, fun _ => hreceives, hm.total, hm.byteRecv⟩, ?_, hm.recv, ?_⟩, hsum⟩
  · intro hpc hleaves
    rw [(hm.absent hpc hleaves).1] at hreceives
    cases hreceives
  · intro lastRecv hpc
    have hquiet : (n : ℤ) = 0 := hgood.quiet (by rw [show m.pc = _ from hpc]; rfl)
    rw [hsum, hquiet, add_zero]
    exact hm.disconnect lastRecv hpc

/-- Where `tr50_stop` stands does not matter. -/
theorem Counted.stop (hm : m.Counted) (pc : TrafficPc) : Counted { m with pc } :=
  ⟨hm.phase, hm.ahead, hm.total, hm.byteRecv⟩

/-- It has read the count. -/
theorem Kept.stops {lastRecv : ℤ} (hm : m.Kept) (h : lastRecv = m.counted) :
    Kept { m with pc := .disconnect lastRecv } :=
  ⟨hm.toCounted.stop _, nofun, nofun, fun _ hpc => (TrafficPc.disconnect.inj hpc) ▸ h⟩

theorem Kept.toInt32_counted (hm : m.Kept) (h : m.counted < 2 ^ 31) :
    toInt32 m.counted = m.counted := (toInt32_eq_iff hm.nonneg).mpr h

/-- **A step counts what it receives**, and no more. -/
theorem Kept.step {a : TrafficAction γ κ} (hm : m.Kept) (hgood : m.Accounts params a)
    (hlong : m.counted + m.received params a < 2 ^ 63) (h : m.step params a = some m') :
    m'.Kept ∧ m'.counted = m.counted + m.received params a := by
  cases a with
  | async a => exact hm.go hgood hlong (go_eq_some h)
  | piece n =>
    simp only [Traffic.step] at h
    split_ifs at h with hreceives
    obtain rfl := Option.some.inj h
    exact hm.piece hgood hreceives
  | stop =>
    simp only [Traffic.step] at h
    split_ifs at h with hcalled
    obtain rfl := Option.some.inj h
    refine ⟨?_, (add_zero _).symm⟩
    unfold mqttAsyncStatsByteRecv
    split
    · rename_i hmqtt
      have hcounted : m.counted = m.statsTotalByteRecv := by
        rw [counted, mqttStatsByteRecv, hmqtt, add_zero]
      refine hm.stops ?_
      rw [← hcounted]
      exact hm.toInt32_counted (hgood.narrow rfl)
    · have hrecv : ∀ total, TrafficPc.recv m.statsTotalByteRecv = .recv total →
          total = m.statsTotalByteRecv ∧ m.async.main = .running :=
        fun _ hpc => ⟨(TrafficPc.recv.inj hpc).symm, hcalled.1⟩
      exact ⟨hm.toCounted.stop _, nofun, hrecv, nofun⟩
  | count =>
    simp only [Traffic.step] at h
    split at h
    · rename_i total hpc
      obtain rfl := Option.some.inj h
      obtain ⟨rfl, -⟩ := hm.recv total hpc
      exact ⟨hm.stops (hm.toInt32_counted (hgood.narrow rfl)), (add_zero _).symm⟩
    · cases h
  | start | finish => cases h

/-- With its connection gone, what a start has counted is in the hands of `tr50_stop`. -/
theorem Kept.held (hm : m.Kept) : m.held = m.counted := by
  by_cases hgone : m.async.main.gone
  · have hleaves : m.async.main.leaves := by
      cases hmain : m.async.main <;> rw [hmain] at hgone <;> first | rfl | cases hgone
    rw [Traffic.held, if_pos hgone]
    cases hpc : m.pc with
    | absent => exact (hm.absent hpc hleaves).2.symm
    | recv total =>
      rw [(hm.recv total hpc).2] at hgone
      cases hgone
    | disconnect lastRecv => exact hm.disconnect lastRecv hpc
  · exact if_neg hgone

end Traffic

namespace TrafficSystem

variable {params : MqttConnectParams} {s t : TrafficSystem γ κ} {n : ℤ} {a : TrafficAction γ κ}

/-- What is counted is what has been received. -/
structure Balanced (s : TrafficSystem γ κ) (n : ℤ) : Prop where
  total : 0 ≤ s.totalRecv
  start : ∀ m ∈ s.mqtt, m.Kept
  balance : s.totalRecv + s.mqtt.elim 0 Traffic.counted = n
  long : n < 2 ^ 63

theorem balanced_init : Balanced (init : TrafficSystem γ κ) 0 :=
  ⟨le_rfl, by simp [init], by simp [init], by norm_num⟩

theorem Balanced.kept_eq (h : Balanced s n) : s.kept = n := by
  rw [TrafficSystem.kept, ← h.balance]
  cases hmqtt : s.mqtt with
  | none => rfl
  | some m => exact congrArg (s.totalRecv + ·) (h.start m hmqtt).held

/-- A start has nothing counted. -/
theorem kept_start : Traffic.Kept (⟨.init, 0, 0, .absent⟩ : Traffic γ κ) :=
  ⟨⟨AsyncSystem.phase_init, fun h => absurd rfl h, le_rfl, le_rfl⟩, fun _ h => (by cases h), nofun,
    nofun⟩

/-- What has been counted goes on to the statistics when the start ends. -/
theorem Balanced.finish (h : Balanced s n) (hstep : s.step params .finish = some t) :
    Balanced t n := by
  obtain ⟨m, hmqtt, hstep⟩ := Option.bind_eq_some_iff.mp hstep
  have hm := h.start m hmqtt
  have hbalance := h.balance
  have htotal := h.total
  have hlong := h.long
  have hnonneg := hm.nonneg
  rw [hmqtt] at hbalance
  change s.totalRecv + m.counted = n at hbalance
  split_ifs at hstep with hmain
  split at hstep
  · rename_i lastRecv hpc
    obtain rfl := Option.some.inj hstep
    obtain rfl := hm.disconnect lastRecv hpc
    have hfits : toInt64 (s.totalRecv + m.counted) = s.totalRecv + m.counted :=
      Traffic.toInt64_of_mem (by omega)
    rw [hfits]
    exact ⟨by dsimp only; omega, by simp, by simpa using hbalance, hlong⟩
  · rename_i hpc
    obtain rfl := Option.some.inj hstep
    have hzero : m.counted = 0 := by
      cases hstop : m.pc with
      | absent => exact (hm.absent hstop (by rw [hmain]; rfl)).2
      | recv total =>
        have hrunning := (hm.recv total hstop).2
        rw [hmain] at hrunning
        cases hrunning
      | disconnect lastRecv => exact absurd hstop (hpc lastRecv)
    exact ⟨htotal, by simp, by simpa [hzero] using hbalance, hlong⟩

theorem Balanced.step (h : Balanced s n) (hgood : Accounts params (s, n) a)
    (hstep : s.step params a = some t) : Balanced t (n + s.received params a) := by
  have hlong : n + s.received params a < 2 ^ 63 := hgood.2
  cases a with
  | start =>
    simp only [TrafficSystem.step] at hstep
    split_ifs at hstep with hnone
    obtain rfl := Option.some.inj hstep
    have hmqtt : s.mqtt = none := Option.isNone_iff_eq_none.mp hnone
    have hbalance := h.balance
    have hcounted : Traffic.counted (⟨.init, 0, 0, .absent⟩ : Traffic γ κ) = 0 := rfl
    rw [received, hmqtt] at hlong ⊢
    rw [hmqtt] at hbalance
    refine ⟨h.total, fun m hm => ?_, ?_, hlong⟩
    · rw [← Option.some.inj hm]
      exact kept_start
    · simpa [hcounted] using hbalance
  | finish =>
    have hzero : s.received params .finish = 0 := by
      rw [received]
      cases s.mqtt <;> rfl
    rw [hzero, add_zero]
    exact h.finish hstep
  | async | piece | stop | count =>
    obtain ⟨m, hmqtt, hstep⟩ := Option.bind_eq_some_iff.mp hstep
    obtain ⟨m', hm', rfl⟩ := Option.map_eq_some_iff.mp hstep
    have hbalance := h.balance
    have htotal := h.total
    rw [received, hmqtt] at hlong ⊢
    rw [hmqtt] at hbalance
    change s.totalRecv + m.counted = n at hbalance
    obtain ⟨hkept, hcounted⟩ := (h.start m hmqtt).step (hgood.1 m hmqtt)
      (by simp only [Option.elim_some] at hlong; omega) hm'
    refine ⟨htotal, fun m hm => Option.some.inj hm ▸ hkept, ?_, hlong⟩
    change s.totalRecv + m'.counted = n + _
    rw [hcounted, ← hbalance]
    exact (add_assoc _ _ _).symm

/-- **No byte is lost** in a run in which nothing is received once `tr50_stop` has counted, every
count fits, and a start that gets no thread has received nothing. -/
theorem kept_eq_consumed
    (h : Reach (observe (TrafficSystem.step params) id (consumed params)) (Accounts params)
      (init, 0) (s, n)) : s.kept = n := by
  refine Balanced.kept_eq (h.invariant (I := fun p => Balanced p.1 p.2) balanced_init ?_)
  rintro ⟨s, n⟩ a ⟨t, n'⟩ hs hgood hobserve
  obtain ⟨hstep, hnote⟩ := observe_eq_some.mp hobserve
  obtain rfl : n' = n + s.received params a := hnote
  exact hs.step hgood hstep

end TrafficSystem

/-! ### A stop -/

/-- Connected, at `mqtt_recv`. -/
def trafficStarted : List (TrafficAction Unit Unit) :=
  .start :: List.replicate 3 (.async (.main .plain))
    ++ List.replicate 3 (.async (.handler .acknowledged))

/-- `tr50_stop` has counted; what the receive thread has received is processed, and it ends. -/
def trafficStopped : List (TrafficAction Unit Unit) :=
  List.replicate 2 (.async (.main .plain)) ++ List.replicate 6 (.async (.handler .acknowledged))
    ++ List.replicate 3 (.async (.main .plain)) ++ [.finish]

/-- A packet is received before `tr50_stop` counts… -/
def trafficCounted : List (TrafficAction Unit Unit) :=
  trafficStarted ++ [.async (.handler .acknowledged), .stop, .count] ++ trafficStopped

/-- …or behind. -/
def trafficLost : List (TrafficAction Unit Unit) :=
  trafficStarted ++ [.stop, .count, .async (.handler .acknowledged)] ++ trafficStopped

namespace TrafficSystem

theorem kept_eq_consumed_stopped : ∃ s : TrafficSystem Unit Unit,
    Reach (observe (TrafficSystem.step .anonymous) id (consumed .anonymous)) (Accounts .anonymous)
      (init, 0) (s, 8)
    ∧ s.mqtt.isNone ∧ s.kept = 8 := by
  have heval : (trafficCounted.foldlM (fun p a => if Accounts .anonymous p a then
        observe (TrafficSystem.step .anonymous) id (consumed .anonymous) p a else none)
      (init, 0)).map (fun p => (p.1.mqtt.isNone, p.2)) = some (true, 8) := by
    decide +kernel
  obtain ⟨⟨s, n⟩, hp, hview⟩ := Option.map_eq_some_iff.mp heval
  obtain ⟨hnone, rfl⟩ := Prod.mk.inj hview
  have hreach := Reach.of_guarded _ hp
  exact ⟨s, hreach, hnone, kept_eq_consumed hreach⟩

/-- **What is received between the count and the end of the receive thread is lost.** -/
theorem not_kept_eq_consumed : ¬ ∀ p : TrafficSystem Unit Unit × ℤ,
    Reach (observe (TrafficSystem.step .anonymous) id (consumed .anonymous)) (fun _ _ => True)
      (init, 0) p → p.1.kept = p.2 := by
  intro h
  have heval : (trafficLost.foldlM (observe (TrafficSystem.step .anonymous) id
      (consumed .anonymous)) (init, 0)).map (fun (p : TrafficSystem Unit Unit × ℤ) =>
        (p.1.kept, p.2)) = some (4, 8) := by
    decide +kernel
  obtain ⟨p, hp, hview⟩ := Option.map_eq_some_iff.mp heval
  obtain ⟨hkept, hconsumed⟩ := Prod.mk.inj hview
  have heq := h p (Reach.of_foldlM _ (by simp) hp)
  rw [hkept, hconsumed] at heq
  exact absurd heq (by decide)

end TrafficSystem

end Tr50
