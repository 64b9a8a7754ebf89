import Tr50.Mqtt.States

/-!
# Mqtt/Links — one connection at a time

What a step does with the connections is one of four things (`Relinked`): nothing, a packet on the
connection that the client has (`AsyncSystem.current`), a new connection where it has none, and the
end of the one it has.  `Wired` is what this keeps: the open sockets are that connection's, and all
others have been given up, once.

A connection that is given up stays open where `mqtt_disconnect` finds no memory for its packet;
the next one is then opened beside it (`not_oneConnection_refused`).
-/

namespace Tr50

open Machinery

variable {γ κ : Type}

/-! ## The log of the connections -/

namespace LinkEvent

/-- The connection it is about. -/
def sock : LinkEvent → ℕ
  | opened sock | sent sock _ | received sock _ | connected sock | closed sock
  | disconnected sock => sock

/-- A packet goes over the connection, or should have. -/
def isUse : LinkEvent → Bool
  | sent _ _ | received _ _ => true
  | _ => false

end LinkEvent

/-- The sockets that are open. -/
def openSocks : List LinkEvent → List ℕ
  | [] => []
  | .opened sock :: log => sock :: openSocks log
  | .closed sock :: log => (openSocks log).filter (· ≠ sock)
  | _ :: log => openSocks log

/-- The connection opened last. -/
def lastOpened : List LinkEvent → Option ℕ
  | [] => none
  | .opened sock :: _ => some sock
  | _ :: log => lastOpened log

/-- What has been given up is not used. -/
def Silent (e : LinkEvent) (past : List LinkEvent) : Prop :=
  e.isUse → .disconnected e.sock ∉ past

/-! ## What a step does with them -/

/-- `mqtt_async_disconnect` is past its `mqtt_disconnect`. -/
def MainPc.gone : MainPc → Bool
  | .delete | .deleted => true
  | _ => false

namespace AsyncSystem

variable {params : MqttConnectParams} {s t : AsyncSystem γ κ} {a : AsyncAction γ κ}

/-- The step calls `mqtt_connect`, which meets `env`. -/
def Connects (s : AsyncSystem γ κ) (a : AsyncAction γ κ) (env : ConnectEnv) : Prop :=
  (∃ input, a = .main input ∧ s.main = .connecting ∧ input.connect = env)
    ∨ ∃ input total, a = .handler input ∧ s.handler = .connecting total ∧ input.connect = env

/-- The step gives up a connection for another one; its `mqtt_disconnect` meets `env`. -/
def GivesUp (s : AsyncSystem γ κ) (a : AsyncAction γ κ) (env : SendEnv) : Prop :=
  ∃ input total, a = .handler input ∧ s.handler = .reconnectLock total ∧ s.client.state = .broken
    ∧ s.client.mqtt.isSome ∧ input.env.toSendEnv = env

/-- The connection that the client has. -/
def current (s : AsyncSystem γ κ) : Option ℕ :=
  if s.main.gone then none else s.client.mqtt.map (·.sock)

/-- What a step does with the connections. -/
inductive Relinked (s : AsyncSystem γ κ) (a : AsyncAction γ κ) (t : AsyncSystem γ κ) : Prop
  | same (hlinks : t.history.links = s.history.links) (hnext : t.nextSock = s.nextSock)
      (hcurrent : t.current = s.current)
  | used (e : LinkEvent) (huse : e.isUse) (hcurrent : s.current = some e.sock)
      (hcurrent' : t.current = some e.sock) (hnext : t.nextSock = s.nextSock)
      (hlinks : t.history.links = e :: s.history.links)
  | made (env : ConnectEnv) (hconnects : s.Connects a env) (result : Except ℤ MqttClient)
      (hcurrent : s.current = none) (hcurrent' : t.current = result.toOption.map (·.sock))
      (hnext : t.nextSock = s.nextSock + 1)
      (h : ConnectOutcome env.answer s.nextSock s.history.links result t.history.links)
  | gaveUp (env : SendEnv) (hgives : s.GivesUp a env ∨ t.main = .delete) (mqtt : MqttClient)
      (hcurrent : s.current = some mqtt.sock) (hcurrent' : t.current = none)
      (hnext : t.nextSock = s.nextSock) (ret : ℤ)
      (h : mqttDisconnect env mqtt s.history.links = some (ret, t.history.links))

/-- A send is a use of the connection, or nothing. -/
theorem Relinked.of_sentOn {sock : ℕ} (h : SentOn sock s.history.links t.history.links)
    (hnext : t.nextSock = s.nextSock) (hcurrent : s.current = some sock)
    (hcurrent' : t.current = some sock) : Relinked s a t := by
  rcases h with hlinks | ⟨packet, hlinks⟩
  · exact .same hlinks hnext (by rw [hcurrent, hcurrent'])
  · exact .used (.sent sock packet) rfl hcurrent hcurrent' hnext hlinks

theorem mqttAsyncSent_mqtt (client : MqttAsyncClient γ κ) (ret : ℤ) (mqtt : MqttClient) :
    (mqttAsyncSent client ret mqtt).mqtt = some mqtt := by
  unfold mqttAsyncSent
  split_ifs <;> rfl

theorem mqttAsyncBreak_mqtt (client : MqttAsyncClient γ κ) (error : ℤ) (why : String) :
    (mqttAsyncBreak client error why).mqtt = client.mqtt := by
  unfold mqttAsyncBreak
  split_ifs <;> rfl

/-- A client that has a thread is not gone. -/
theorem Phase.not_gone_alive (hs : Phase s) (halive : s.handler.alive) : ¬ s.main.gone := by
  intro hgone
  have hlate : s.main.late := by
    unfold MainPc.gone at hgone
    split at hgone <;> rename_i hmain <;> first | (rw [hmain]; rfl) | cases hgone
  rw [hs.late hlate] at halive
  cases halive

/-- …and neither is one that is CONNECTED. -/
theorem Phase.not_gone_connected (hs : Phase s) (hstate : s.client.state = .connected) :
    ¬ s.main.gone := by
  intro hgone
  have hallows := hs.state
  rw [hstate] at hallows
  unfold MainPc.gone at hgone
  split at hgone <;> rename_i hmain <;> first | (rw [hmain] at hallows; cases hallows) | cases hgone

theorem current_of_not_gone (hgone : ¬ s.main.gone) : s.current = s.client.mqtt.map (·.sock) :=
  if_neg hgone

theorem current_of_some {mqtt : MqttClient} (hgone : ¬ s.main.gone)
    (hmqtt : s.client.mqtt = some mqtt) : s.current = some mqtt.sock := by
  rw [current_of_not_gone hgone, hmqtt, Option.map_some]

theorem Phase.relinked (hs : Phase s) (h : Effect params s a t) : Relinked s a t := by
  cases h with
  | created hmain =>
    exact .same rfl rfl (by simp [current, hmain, MainPc.gone, report, mqttAsyncStateChange])
  | @connected input hmain mqtt links h =>
    have hnone := hs.unopened (Or.inr hmain)
    exact .made input.connect (Or.inl ⟨input, rfl, hmain, rfl⟩) (.ok mqtt)
      (by simp [current, hmain, MainPc.gone, hnone])
      (by simp [current, MainPc.gone, report, mqttAsyncStateChange, Except.toOption]) rfl
      (mqttConnect_outcome h)
  | @unconnected input hmain ret links h =>
    have hnone := hs.unopened (Or.inr hmain)
    exact .made input.connect (Or.inl ⟨input, rfl, hmain, rfl⟩) (.error ret)
      (by simp [current, hmain, MainPc.gone, hnone])
      (by simp [current, MainPc.gone, report, mqttAsyncStateChange, Except.toOption, hnone]) rfl
      (mqttConnect_outcome h)
  | started hmain => exact .same rfl rfl (by simp [current, hmain, MainPc.gone])
  | disconnect hmain =>
    exact .same rfl rfl (by rcases hmain with hmain | hmain <;> simp [current, hmain, MainPc.gone])
  | deleting hmain hfree =>
    exact .same rfl rfl (by simp [current, hmain, MainPc.gone, report, mqttAsyncStateChange])
  | joined hmain hdead => exact .same rfl rfl (by simp [current, hmain, MainPc.gone])
  | unopened hmain hmqtt =>
    exact .same rfl rfl (by simp [current, hmain, MainPc.gone, hmqtt])
  | @closed input hmain mqtt hmqtt ret links h =>
    exact .gaveUp input.env (Or.inr rfl) mqtt (by simp [current, hmain, MainPc.gone, hmqtt])
      (by simp [current, MainPc.gone]) rfl ret h
  | deleted hmain => exact .same rfl rfl (by simp [current, hmain, MainPc.gone])
  | requested call hcall mqtt mqtt' hmqtt hsock ret links h =>
    have hgone := hs.not_gone_connected (hs.call (by simp [hcall])).1
    refine .of_sentOn h rfl (current_of_some hgone hmqtt) ?_
    rw [← hsock]
    exact current_of_some hgone (mqttAsyncSent_mqtt s.client ret mqtt')
  | received mqtt hmqtt answer hpc =>
    have hgone := hs.not_gone_alive (by rw [hpc]; rfl)
    cases answer with
    | failed ret hret taken =>
      exact .used (.received mqtt.sock none) rfl (current_of_some hgone hmqtt)
        (by simp [current, recv, goto, link, hgone, LinkEvent.sock]) rfl rfl
    | packet data hdata now =>
      exact .used (.received mqtt.sock (some data)) rfl (current_of_some hgone hmqtt)
        (by simp [current, recv, goto, link, hgone, LinkEvent.sock]) rfl rfl
  | broke error why pc ping hfree hpc hpc' huse =>
    refine .same rfl rfl ?_
    change (if s.main.gone then none else (mqttAsyncBreak s.client error why).mqtt.map _) = _
    rw [mqttAsyncBreak_mqtt]
    rfl
  | sent mqtt mqtt' hmqtt hsock links h pc ping hpc hpc' huse =>
    have hgone := hs.not_gone_alive (HandlerPc.alive_of_plain hpc)
    refine .of_sentOn h rfl (current_of_some hgone hmqtt) ?_
    rw [← hsock]
    exact current_of_some hgone rfl
  | @reopened input total hpc hfree hstate links h =>
    have hcurrent := current_of_not_gone (hs.not_gone_alive (by rw [hpc]; rfl))
    have hnone : (report { s with client.mqtt := none, history.links := links }
        .broken .reconnecting 0 "MQTT Reconnecting...").current = none := by
      unfold current
      split_ifs <;> rfl
    rcases h with ⟨hmqtt, rfl⟩ | ⟨mqtt, ret, hmqtt, h⟩
    · rw [hmqtt] at hcurrent
      exact .same rfl rfl (hnone.trans hcurrent.symm)
    · rw [hmqtt, Option.map_some] at hcurrent
      exact .gaveUp input.env.toSendEnv
        (Or.inl ⟨input, total, rfl, hpc, hstate, by simp [hmqtt], rfl⟩) mqtt hcurrent hnone rfl
        ret h
  | @reconnected input total hpc mqtt links h =>
    obtain ⟨hmain, hmqtt⟩ := hs.mux (by rw [hpc]; rfl)
    have hcurrent := current_of_not_gone (hs.not_gone_alive (by rw [hpc]; rfl))
    rw [hmqtt] at hcurrent
    refine .made input.connect (Or.inr ⟨input, total, rfl, hpc, rfl⟩) (.ok mqtt) hcurrent ?_ rfl
      (mqttConnect_outcome h)
    rcases hmain with hmain | hmain <;>
      simp [current, hmain, MainPc.gone, report, goto, mqttAsyncStateChange, Except.toOption]
  | @unreconnected input total hpc ret links h =>
    obtain ⟨hmain, hmqtt⟩ := hs.mux (by rw [hpc]; rfl)
    have hcurrent := current_of_not_gone (hs.not_gone_alive (by rw [hpc]; rfl))
    rw [hmqtt] at hcurrent
    exact .made input.connect (Or.inr ⟨input, total, rfl, hpc, rfl⟩) (.error ret) hcurrent hcurrent
      rfl (mqttConnect_outcome h)
  | _ => exact .same rfl rfl rfl

end AsyncSystem

/-! ## One connection at a time -/

/-- Only the connection at hand is open; what has been made before it has been given up, once. -/
structure Wired (links : List LinkEvent) (next : ℕ) (current : Option ℕ) : Prop where
  fresh : ∀ e ∈ links, e.sock < next
  opens : openSocks links = current.toList
  last : ∀ sock ∈ current, lastOpened links = some sock
  live : ∀ sock ∈ current, sock < next ∧ .disconnected sock ∉ links
  single : Throughout (fun log => (openSocks log).length ≤ 1) links
  once : ∀ sock, .connected sock ∈ links → current ≠ some sock →
    links.count (.disconnected sock) = 1
  silent : Always Silent links

namespace Wired

variable {links links' : List LinkEvent} {next sock : ℕ} {e : LinkEvent}

theorem nil : Wired [] 0 none where
  fresh := by simp
  opens := rfl
  last := by simp
  live := by simp
  single := throughout_nil.mpr (by simp [openSocks])
  once := by simp
  silent := always_nil

/-- What is about the next socket has not happened. -/
theorem not_mem {current : Option ℕ} (h : Wired links next current) (hsock : e.sock = next) :
    e ∉ links := fun hmem => by
  have := h.fresh e hmem
  omega

theorem opened (h : Wired links next none) :
    Wired (.opened next :: links) (next + 1) (some next) where
  fresh := by
    simp only [List.forall_mem_cons]
    exact ⟨Nat.lt_succ_self next, fun e he => (h.fresh e he).trans (Nat.lt_succ_self next)⟩
  opens := by simp [openSocks, h.opens]
  last := by simp [lastOpened]
  live := by simpa using h.not_mem (e := .disconnected next) rfl
  single := throughout_cons.mpr ⟨by simp [openSocks, h.opens], h.single⟩
  once := fun sock hmem _ => by
    simpa using h.once sock (by simpa using hmem) (by simp)
  silent := always_cons.mpr ⟨fun h => (by cases h), h.silent⟩

theorem use (h : Wired links next (some sock)) (huse : e.isUse) (hsock : e.sock = sock) :
    Wired (e :: links) next (some sock) := by
  obtain ⟨hlt, hlive⟩ := h.live sock rfl
  have hopen : openSocks (e :: links) = openSocks links := by
    cases e <;> first | rfl | cases huse
  have hlast : lastOpened (e :: links) = lastOpened links := by
    cases e <;> first | rfl | cases huse
  have hmem : ∀ e', e'.isUse = false → (e' ∈ e :: links ↔ e' ∈ links) := fun e' he' => by
    refine List.mem_cons.trans (or_iff_right fun heq => ?_)
    rw [heq, huse] at he'
    cases he'
  constructor
  · simpa using ⟨hsock ▸ hlt, h.fresh⟩
  · rw [hopen, h.opens]
  · rw [hlast]
    exact h.last
  · intro sock' hsock'
    rw [hmem _ rfl]
    exact h.live sock' hsock'
  · exact throughout_cons.mpr ⟨by rw [hopen, h.opens]; simp, h.single⟩
  · intro sock' hconn hne
    rw [List.count_cons_of_ne (fun heq => by rw [heq] at huse; cases huse)]
    exact h.once sock' ((hmem _ rfl).mp hconn) hne
  · exact always_cons.mpr ⟨fun _ => hsock ▸ hlive, h.silent⟩

/-- `mqtt_connect` has accepted the connection. -/
theorem connected (h : Wired links next (some sock)) :
    Wired (.connected sock :: links) next (some sock) where
  fresh := by simpa [LinkEvent.sock] using ⟨(h.live sock rfl).1, h.fresh⟩
  opens := h.opens
  last := h.last
  live := by simpa using h.live
  single := throughout_cons.mpr ⟨by simp [openSocks, h.opens], h.single⟩
  once := fun sock' hmem hne => by
    have hmem : .connected sock' ∈ links := by
      rcases List.mem_cons.mp hmem with heq | hmem
      · exact absurd (by cases heq; rfl) hne
      · exact hmem
    simpa using h.once sock' hmem hne
  silent := always_cons.mpr ⟨fun h => (by cases h), h.silent⟩

/-- …or has closed it. -/
theorem closed (h : Wired links next (some sock)) (hnot : .connected sock ∉ links) :
    Wired (.closed sock :: links) next none where
  fresh := by simpa [LinkEvent.sock] using ⟨(h.live sock rfl).1, h.fresh⟩
  opens := by simp [openSocks, h.opens]
  last := by simp
  live := by simp
  single := throughout_cons.mpr ⟨by simp [openSocks, h.opens], h.single⟩
  once := fun sock' hmem hne => by
    have hmem : .connected sock' ∈ links := by simpa using hmem
    simpa using h.once sock' hmem fun heq => hnot (by cases heq; exact hmem)
  silent := always_cons.mpr ⟨fun h => (by cases h), h.silent⟩

/-- A call of `mqtt_disconnect` is the first for its connection. -/
theorem once_disconnected (h : Wired links next (some sock)) (sock' : ℕ)
    (hmem : .connected sock' ∈ links) :
    (LinkEvent.disconnected sock :: links).count (.disconnected sock') = 1 := by
  by_cases hsock : sock' = sock
  · subst hsock
    rw [List.count_cons_self, List.count_eq_zero_of_not_mem (h.live sock' rfl).2]
  · rw [List.count_cons_of_ne (by simpa using Ne.symm hsock)]
    exact h.once sock' hmem (by simpa using Ne.symm hsock)

/-- `mqtt_disconnect` has given it up, and closed it. -/
theorem disconnected (h : Wired links next (some sock)) :
    Wired (.disconnected sock :: .closed sock :: links) next none where
  fresh := by simpa [LinkEvent.sock] using ⟨(h.live sock rfl).1, h.fresh⟩
  opens := by simp [openSocks, h.opens]
  last := by simp
  live := by simp
  single := throughout_cons.mpr ⟨by simp [openSocks, h.opens],
    throughout_cons.mpr ⟨by simp [openSocks, h.opens], h.single⟩⟩
  once := fun sock' hmem _ => by
    rw [List.count_cons, List.count_cons_of_ne (by simp), ← List.count_cons]
    exact h.once_disconnected sock' (by simpa using hmem)
  silent := always_cons.mpr ⟨fun h => (by cases h),
    always_cons.mpr ⟨fun h => (by cases h), h.silent⟩⟩

/-- **A connection is made, or none is left.** -/
theorem connect {answer : RecvAnswer} {result : Except ℤ MqttClient} (h : Wired links next none)
    (hconnect : ConnectOutcome answer next links result links') :
    Wired links' (next + 1) (result.toOption.map (·.sock)) := by
  have hnew : ∀ e : LinkEvent, e.sock = next → e ∉ links := fun e => h.not_mem
  cases hconnect with
  | unopened ret =>
    exact { h with
      fresh := fun e he => (h.fresh e he).trans (Nat.lt_succ_self next)
      live := by simp [Except.toOption] }
  | unsent ret =>
    exact h.opened.closed (by simpa using hnew (.connected next) rfl)
  | refused ret hreq rsp =>
    exact ((h.opened.use rfl rfl).use rfl rfl).closed (by simpa using hnew (.connected next) rfl)
  | accepted client hsock hreq hanswer hconnack =>
    subst hsock
    exact ((h.opened.use rfl rfl).use rfl rfl).connected

/-- **A connection that is given up is closed**, where `mqtt_disconnect` has memory for its
packet. -/
theorem disconnect {env : SendEnv} {mqtt : MqttClient} {ret : ℤ} (hmalloc : env.malloc)
    (h : Wired links next (some mqtt.sock))
    (hdisconnect : mqttDisconnect env mqtt links = some (ret, links')) :
    Wired links' next none := by
  rw [mqttDisconnect_granted hmalloc] at hdisconnect
  obtain ⟨-, rfl⟩ := Prod.mk.inj (Option.some.inj hdisconnect)
  exact (h.use rfl rfl).disconnected

end Wired

/-- Every connection has been given up, and the last one perhaps not closed. -/
structure GivenUp (links : List LinkEvent) : Prop where
  single : Throughout (fun log => (openSocks log).length ≤ 1) links
  once : ∀ sock, .connected sock ∈ links → links.count (.disconnected sock) = 1
  silent : Always Silent links

theorem Wired.givenUp {links : List LinkEvent} {next : ℕ} (h : Wired links next none) :
    GivenUp links := ⟨h.single, fun sock hmem => h.once sock hmem (by simp), h.silent⟩

theorem Wired.lastDisconnect {links links' : List LinkEvent} {next : ℕ} {env : SendEnv}
    {mqtt : MqttClient} {ret : ℤ} (h : Wired links next (some mqtt.sock))
    (hdisconnect : mqttDisconnect env mqtt links = some (ret, links')) : GivenUp links' := by
  by_cases hmalloc : env.malloc
  · exact (h.disconnect hmalloc hdisconnect).givenUp
  · rw [mqttDisconnect_refused (by simpa using hmalloc)] at hdisconnect
    obtain ⟨-, rfl⟩ := Prod.mk.inj (Option.some.inj hdisconnect)
    exact ⟨throughout_cons.mpr ⟨by simp [openSocks, h.opens], h.single⟩,
      fun sock hmem => h.once_disconnected sock (by simpa using hmem),
      always_cons.mpr ⟨fun h => (by cases h), h.silent⟩⟩

namespace AsyncSystem

variable {params : MqttConnectParams} {s t : AsyncSystem γ κ} {a : AsyncAction γ κ}

/-- Where a connection is given up for another one, there is memory for its DISCONNECT. -/
def GivesUpGranted (s : AsyncSystem γ κ) (a : AsyncAction γ κ) : Prop :=
  ∀ env, s.GivesUp a env → env.malloc

/-- The lock being free, a CONNECTED client has the connection opened last; one is open at a time;
and each that has been made is given up once, and not used any more. -/
structure OneConnection (s : AsyncSystem γ κ) : Prop where
  named : s.main ≠ .created → s.MuxFree → s.client.state = .connected →
    ∃ mqtt, s.client.mqtt = some mqtt ∧ lastOpened s.history.links = some mqtt.sock
  single : Throughout (fun log => (openSocks log).length ≤ 1) s.history.links
  once : ∀ sock, .connected sock ∈ s.history.links →
    s.history.links.count (.disconnected sock) ≤ 1
      ∧ (s.main = .deleted → s.history.links.count (.disconnected sock) = 1)
  silent : Always Silent s.history.links

/-- The connections of a client that goes on, or of one that is gone. -/
def Linked (s : AsyncSystem γ κ) : Prop :=
  Wired s.history.links s.nextSock s.current ∨ s.main.gone ∧ GivenUp s.history.links

theorem gone_step (h : Effect params s a t) (hgone : s.main.gone) : t.main.gone := by
  cases h with
  | created hmain | connected hmain | unconnected hmain | started hmain | deleting hmain
  | joined hmain => rw [hmain] at hgone; cases hgone
  | disconnect hmain => rcases hmain with hmain | hmain <;> rw [hmain] at hgone <;> cases hgone
  | unopened | closed | deleted => rfl
  | received mqtt hmqtt answer hpc => cases answer <;> exact hgone
  | _ => exact hgone

/-- A client that is gone makes no connection. -/
theorem Phase.not_connects (hs : Phase s) (hgone : s.main.gone) (env : ConnectEnv) :
    ¬ s.Connects a env := by
  rintro (⟨input, -, hmain, -⟩ | ⟨input, total, -, hpc, -⟩)
  · rw [hmain] at hgone
    cases hgone
  · have hcurrent := (hs.mux (by rw [hpc]; rfl)).1
    rcases hcurrent with hmain | hmain <;> rw [hmain] at hgone <;> cases hgone

theorem Linked.step (hlinked : Linked s) (hs : Phase s) (hgood : GivesUpGranted s a)
    (h : Effect params s a t) : Linked t := by
  have hrelinked := hs.relinked h
  rcases hlinked with hwired | ⟨hgone, hgiven⟩
  · cases hrelinked with
    | same hlinks hnext hcurrent =>
      left
      rw [hlinks, hnext, hcurrent]
      exact hwired
    | used e huse hcurrent hcurrent' hnext hlinks =>
      left
      rw [hcurrent] at hwired
      rw [hlinks, hnext, hcurrent']
      exact hwired.use huse rfl
    | made env hconnects result hcurrent hcurrent' hnext h =>
      left
      rw [hcurrent] at hwired
      rw [hnext, hcurrent']
      exact hwired.connect h
    | gaveUp env hgives mqtt hcurrent hcurrent' hnext ret h =>
      rw [hcurrent] at hwired
      rcases hgives with hgives | hmain
      · left
        rw [hnext, hcurrent']
        exact hwired.disconnect (hgood env hgives) h
      · exact Or.inr ⟨by rw [hmain]; rfl, hwired.lastDisconnect h⟩
  · have hnone : s.current = none := if_pos hgone
    right
    refine ⟨gone_step h hgone, ?_⟩
    cases hrelinked with
    | same hlinks hnext hcurrent =>
      rw [hlinks]
      exact hgiven
    | used e huse hcurrent => rw [hnone] at hcurrent; cases hcurrent
    | made env hconnects => exact absurd hconnects (hs.not_connects hgone env)
    | gaveUp env hgives mqtt hcurrent => rw [hnone] at hcurrent; cases hcurrent

theorem Linked.settled (hlinked : Linked s) (hs : Phase s) : OneConnection s := by
  refine ⟨fun hcreated _ hstate => ?_, ?_, fun sock hmem => ?_, ?_⟩
  · obtain ⟨mqtt, hmqtt⟩ := Option.isSome_iff_exists.mp (hs.connected hstate hcreated)
    have hnot := hs.not_gone_connected hstate
    rcases hlinked with hwired | ⟨hgone, -⟩
    · exact ⟨mqtt, hmqtt, hwired.last _ (current_of_some hnot hmqtt)⟩
    · exact absurd hgone hnot
  · exact hlinked.elim (·.single) (·.2.single)
  · rcases hlinked with hwired | ⟨hgone, hgiven⟩
    · by_cases hcurrent : s.current = some sock
      · refine ⟨by rw [List.count_eq_zero_of_not_mem (hwired.live sock hcurrent).2]; omega,
          fun hmain => ?_⟩
        rw [current, if_pos (by rw [hmain]; rfl)] at hcurrent
        cases hcurrent
      · have hone := hwired.once sock hmem hcurrent
        exact ⟨hone.le, fun _ => hone⟩
    · have hone := hgiven.once sock hmem
      exact ⟨hone.le, fun _ => hone⟩
  · exact hlinked.elim (·.silent) (·.2.silent)

/-- **One connection at a time**, in every run that has memory for the DISCONNECTs on the way. -/
theorem oneConnection (h : Reach (AsyncSystem.step params) GivesUpGranted init s) :
    OneConnection s := by
  have hboth : Phase s ∧ Linked s := by
    refine h.invariant (I := fun s => Phase s ∧ Linked s) ⟨phase_init, Or.inl Wired.nil⟩ ?_
    rintro s a t ⟨hs, hlinked⟩ hgood hstep
    exact ⟨hs.step (step_effect hstep), hlinked.step hs hgood (step_effect hstep)⟩
  exact hboth.2.settled hboth.1

/-- …such as the session. -/
theorem oneConnection_session :
    ∃ s, session.foldlM (AsyncSystem.step .anonymous) init = some s ∧ s.main = .deleted
      ∧ .connected 0 ∈ s.history.links ∧ OneConnection s := by
  have heval : ((session.foldlM (AsyncSystem.step .anonymous) init).map fun s =>
      (s.main, s.history.links)) = some (.deleted, [.disconnected 0, .closed 0,
        .sent 0 [0xe0, 0], .received 0 (some [0x40, 2, 0, 0]),
        .sent 0 [0x32, 6, 0, 1, 97, 0, 0, 98], .connected 0, .received 0 (some [0x20, 2, 0, 0]),
        .sent 0 [0x10, 14, 0, 6, 77, 81, 73, 115, 100, 112, 3, 0, 0, 60, 0, 0], .opened 0]) := by
    decide +kernel
  obtain ⟨s, hs, hview⟩ := Option.map_eq_some_iff.mp heval
  obtain ⟨hmain, hlinks⟩ := Prod.mk.inj hview
  refine ⟨s, hs, hmain, by simp [hlinks], oneConnection (Reach.of_foldlM _ ?_ hs)⟩
  rintro s a ha env ⟨input, total, rfl, -, -, -, rfl⟩
  obtain rfl : input = .acknowledged := by simpa [session] using ha
  rfl

end AsyncSystem

/-- A receive thread that loses its connection, and has no memory for a DISCONNECT. -/
def HandlerInput.lost : HandlerInput :=
  ⟨some 1, .failed (-1) (by decide) 0, ⟨⟨false, 0⟩, fun _ => true⟩, 0, .accepted, true⟩

namespace AsyncSystem

/-- **A connection that is not closed stays open beside the next one.** -/
theorem not_oneConnection_refused :
    ¬ ∀ s : AsyncSystem Unit Unit,
      Reach (AsyncSystem.step .anonymous) (fun _ _ => True) init s → OneConnection s := by
  intro h
  have heval : (((List.replicate 3 (.main .plain) ++ List.replicate 10 (.handler .lost) :
      List (AsyncAction Unit Unit)).foldlM (AsyncSystem.step .anonymous) init).map fun s =>
      openSocks s.history.links) = some [1, 0] := by decide +kernel
  obtain ⟨s, hs, hopen⟩ := Option.map_eq_some_iff.mp heval
  have hsingle := (h s (Reach.of_foldlM _ (by simp) hs)).single.self
  rw [hopen] at hsingle
  exact absurd hsingle (by decide)

end AsyncSystem

end Tr50
