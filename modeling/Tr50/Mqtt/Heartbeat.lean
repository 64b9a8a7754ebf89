import Tr50.Mqtt.Links
import Tr50.Mqtt.Turns

/-!
# Mqtt/Heartbeat — whose pings break a connection

`outstanding_ping` should count the PINGREQs sent on the current connection since the last PINGRESP
(`unanswered`).  Nothing sets it back when a connection is replaced: pings left over from the old
one are held against the new one.  Where none are left over, a connection that is given up for its
heartbeat has two of its own unanswered (`heartbeat_unanswered`).
-/

namespace Tr50

open Machinery

variable {γ κ : Type}

/-! ## Unanswered pings -/

/-- The PINGREQs sent on a connection since the last PINGRESP received on it. -/
def unanswered (sock : ℕ) : List LinkEvent → ℕ
  | [] => 0
  | .opened sock' :: links => if sock' = sock then 0 else unanswered sock links
  | .sent sock' packet :: links =>
      unanswered sock links + if sock' = sock ∧ packet = pingreq then 1 else 0
  | .received sock' (some data) :: links =>
      if sock' = sock ∧ mqttMsgCmdGet data = some mqttMsgTypePingresp then 0
      else unanswered sock links
  | _ :: links => unanswered sock links

theorem unanswered_ping (sock : ℕ) (links : List LinkEvent) :
    unanswered sock (.sent sock pingreq :: links) = unanswered sock links + 1 := by
  rw [unanswered, if_pos ⟨rfl, rfl⟩]

/-- Only a PINGRESP takes pings away. -/
theorem unanswered_le_use {sock : ℕ} {e : LinkEvent} (links : List LinkEvent) (huse : e.isUse)
    (he : ∀ data, e = .received sock (some data) →
      mqttMsgCmdGet data ≠ some mqttMsgTypePingresp) :
    unanswered sock links ≤ unanswered sock (e :: links) := by
  cases e with
  | sent sock' packet => exact Nat.le_add_right _ _
  | received sock' data =>
    cases data with
    | none => exact le_refl _
    | some data =>
      rw [unanswered, if_neg]
      rintro ⟨rfl, hcmd⟩
      exact he data rfl hcmd
  | _ => cases huse

namespace AsyncSystem

variable {params : MqttConnectParams} {s t : AsyncSystem γ κ} {a : AsyncAction γ κ}

/-! ## What a step does with the pings -/

/-- A PINGRESP has been received, and not counted yet. -/
def Answering (s : AsyncSystem γ κ) : Prop :=
  ∃ data, s.handler = .process data ∧ mqttMsgCmdGet data = some mqttMsgTypePingresp

/-- What a step does with `outstanding_ping`. -/
inductive Pinged (s t : AsyncSystem γ κ) : Prop
  | none (hpings : t.client.outstandingPing = 0) (hpc' : t.handler ≠ .heartbeatLost)
  | one (mqtt mqtt' : MqttClient) (hmqtt : s.client.mqtt = some mqtt)
      (hmqtt' : t.client.mqtt = some mqtt') (hsock : mqtt'.sock = mqtt.sock)
      (hmain : t.main = s.main) (hpc : s.handler = .ping) (hpc' : t.handler ≠ .heartbeatLost)
      (hlinks : t.history.links = .sent mqtt.sock pingreq :: s.history.links)
      (hpings : t.client.outstandingPing = s.client.outstandingPing + 1)
  | same (hpings : t.client.outstandingPing = s.client.outstandingPing)
      (hanswering : s.Answering → t.Answering)
      (hpc' : t.handler = .heartbeatLost →
        s.handler = .heartbeatLost ∨ 1 < s.client.outstandingPing)

/-- Nobody but the receive thread does anything with them. -/
theorem Pinged.frame (hpings : t.client.outstandingPing = s.client.outstandingPing)
    (hpc : t.handler = s.handler) : Pinged s t :=
  .same hpings (by rintro ⟨data, hdata, hcmd⟩; exact ⟨data, hpc.trans hdata, hcmd⟩)
    fun h => Or.inl (hpc.symm.trans h)

theorem mqttAsyncBreak_pings (client : MqttAsyncClient γ κ) (error : ℤ) (why : String) :
    (mqttAsyncBreak client error why).outstandingPing = client.outstandingPing := by
  unfold mqttAsyncBreak
  split_ifs <;> rfl

theorem Turn.pings {input : HandlerInput} (h : Turn params s input t) : Pinged s t := by
  cases h with
  | answered data hpc hcmd => exact .none rfl (by simp [goto])
  | heartbeatLost hpc hfree => exact .none rfl (by simp [goto])
  | pinged hpc mqtt mqtt' hmqtt hdue hsock =>
    exact .one mqtt mqtt' hmqtt rfl hsock rfl hpc (by simp [goto]) rfl rfl
  | silent hpc hstate hkeepalive hping =>
    exact .same rfl (by rintro ⟨data, hdata, -⟩; simp [hpc] at hdata) fun _ => Or.inr hping
  | other hother hpc hdata =>
    refine .same hother.pings
      (by rintro ⟨data, hpc, hcmd⟩; exact absurd hcmd (hdata data hpc)) ?_
    intro h
    have hlead := hother.lead.1
    rw [h] at hlead
    cases hlead
  | scanned hpc found qos h =>
    refine .same rfl (by rintro ⟨data, hdata, -⟩; simp [hpc] at hdata) ?_
    simp only [goto]
    split_ifs <;> simp
  | recvFailed hpc | ackLost hpc | unneeded hpc | checked hpc | recent hpc | unpinged hpc
  | pingFailed hpc =>
    exact .same (by simp [goto, broken, mqttAsyncBreak_pings])
      (by rintro ⟨data, hdata, -⟩; simp [hpc] at hdata) (by simp [goto])

theorem step_pinged (hs : Phase s) (h : s.step params a = some t) : Pinged s t := by
  cases a with
  | main input =>
    obtain ⟨-, hpings, hpc | ⟨hmain, hpc⟩⟩ := main_turn h
    · exact .frame hpings hpc
    · refine .same hpings ?_ (by simp [hpc])
      rintro ⟨data, hdata, -⟩
      rw [hs.early (by rw [hmain]; rfl)] at hdata
      cases hdata
  | handler input => exact (handler_turn h).pings
  | request env req => rcases request_cases h with rfl | rfl <;> exact .frame rfl rfl
  | call =>
    obtain ⟨call, -, hstep⟩ := Option.bind_eq_some_iff.mp h
    obtain ⟨-, hpings, hpc⟩ := call_turn hstep
    exact .frame hpings hpc

/-! ## The count and the connection -/

/-- Where a connection is made to replace another one, no ping is outstanding. -/
def NoPingLeft (params : MqttConnectParams) (s : AsyncSystem γ κ) (a : AsyncAction γ κ) : Prop :=
  ∀ input total mqtt links, a = .handler input → s.handler = .connecting total →
    mqttConnect input.connect params s.nextSock s.history.links = some (.ok mqtt, links) →
    s.client.outstandingPing = 0

/-- The count is about the current connection. -/
structure Beating (s : AsyncSystem γ κ) : Prop where
  counted : ∀ sock ∈ s.current, ¬ s.Answering →
    s.client.outstandingPing ≤ unanswered sock s.history.links
  lost : s.handler = .heartbeatLost → 1 < s.client.outstandingPing
  absent : s.handler = .absent → s.client.outstandingPing = 0

theorem beating_init : Beating (init : AsyncSystem γ κ) where
  counted := by simp [current, init, MainPc.gone]
  lost := fun h => by cases h
  absent := fun _ => rfl

/-- Who connects with success had no pings. -/
theorem Beating.connects (hs : Beating s) (hphase : Phase s) (hgood : NoPingLeft params s a)
    (h : s.step params a = some t) {env : ConnectEnv} (hconnects : s.Connects a env)
    (hcurrent : t.current.isSome) : s.client.outstandingPing = 0 := by
  rcases hconnects with ⟨input, -, hmain, -⟩ | ⟨input, total, rfl, hpc, -⟩
  · exact hs.absent (hphase.early (by rw [hmain]; rfl))
  · simp only [step, hpc, handlerStep, reconnect] at h
    split at h
    · cases h
    · rename_i mqtt links hconnect
      exact hgood input total mqtt links rfl hpc hconnect
    · obtain rfl := Option.some.inj h
      obtain ⟨-, hnone⟩ := hphase.mux (by rw [hpc]; rfl)
      simp [current, goto, report, mqttAsyncStateChange, hnone] at hcurrent

/-- What has been received is processed next. -/
theorem Effect.answering {sock : ℕ} {data : List UInt8} (h : Effect params s a t)
    (hlinks : t.history.links = .received sock (some data) :: s.history.links) :
    t.handler = .process data := by
  have hsame : ∀ {e : LinkEvent}, s.history.links ≠ e :: s.history.links := fun h => by
    simpa using congrArg List.length h
  have hsent : ∀ {sock' : ℕ} {links : List LinkEvent}, SentOn sock' s.history.links links →
      links ≠ .received sock (some data) :: s.history.links := by
    rintro sock' links (rfl | ⟨packet, rfl⟩) h
    · exact hsame h
    · cases h
  have hmade : ∀ {env : ConnectEnv} {result : Except ℤ MqttClient} {links : List LinkEvent},
      mqttConnect env params s.nextSock s.history.links = some (result, links) →
      links ≠ .received sock (some data) :: s.history.links := by
    intro env result links hconnect h
    subst h
    generalize hlog : LinkEvent.received sock (some data) :: s.history.links = log at hconnect
    cases mqttConnect_outcome hconnect with
    | unopened ret => exact hsame hlog.symm
    | _ => cases hlog
  have hgone : ∀ {env : SendEnv} {mqtt : MqttClient} {ret : ℤ} {links : List LinkEvent},
      mqttDisconnect env mqtt s.history.links = some (ret, links) →
      links ≠ .received sock (some data) :: s.history.links := by
    intro env mqtt ret links hclose h
    by_cases hmalloc : env.malloc
    · rw [mqttDisconnect_granted hmalloc] at hclose
      obtain ⟨-, rfl⟩ := Prod.mk.inj (Option.some.inj hclose)
      cases h
    · rw [mqttDisconnect_refused (by simpa using hmalloc)] at hclose
      obtain ⟨-, rfl⟩ := Prod.mk.inj (Option.some.inj hclose)
      cases h
  cases h with
  | received mqtt hmqtt answer hpc =>
    cases answer with
    | failed ret hret taken => cases hlinks
    | packet data' hdata now =>
      cases hlinks
      rfl
  | requested _ _ _ _ _ _ _ _ h => exact absurd hlinks (hsent h)
  | sent _ _ _ _ _ h => exact absurd hlinks (hsent h)
  | connected hmain mqtt links h => exact absurd hlinks (hmade h)
  | unconnected hmain ret links h => exact absurd hlinks (hmade h)
  | reconnected total hpc mqtt links h => exact absurd hlinks (hmade h)
  | unreconnected total hpc ret links h => exact absurd hlinks (hmade h)
  | closed hmain mqtt hmqtt ret links h => exact absurd hlinks (hgone h)
  | reopened total hpc hfree hstate links h =>
    rcases h with ⟨-, rfl⟩ | ⟨mqtt, ret, -, h⟩
    · exact absurd hlinks hsame
    · exact absurd hlinks (hgone h)
  | _ => exact absurd hlinks hsame

/-- A receive thread does not go away again. -/
theorem Effect.absent (h : Effect params s a t) (hpc : t.handler = .absent) :
    s.handler = .absent := by
  have hplain : ∀ {pc : HandlerPc γ κ}, pc.plain → pc ≠ .absent := by
    rintro pc hplain rfl
    cases hplain
  cases h with
  | started hmain => cases hpc
  | moved pc threadId ping h =>
    obtain rfl : pc = .absent := hpc
    generalize habsent : (HandlerPc.absent : HandlerPc γ κ) = pc' at h
    generalize s.handler = pc at h
    cases h with
    | plain h h' => exact absurd habsent.symm (hplain h')
    | empty last => cases last <;> cases habsent
    | done last => cases last <;> cases habsent
    | _ => cases habsent
  | received mqtt hmqtt answer hpc' =>
    cases answer with
    | failed ret hret taken =>
      simp only [recv, goto] at hpc
      split_ifs at hpc
    | packet => cases hpc
  | broke error why pc ping hfree hplain' hpc' =>
    rcases hpc' with hpc' | rfl
    · exact absurd hpc (hplain hpc')
    · cases hpc
  | sent _ _ _ _ _ _ pc ping _ hpc' => exact absurd hpc (hplain hpc')
  | invoked r status pc h =>
    obtain rfl : pc = .absent := hpc
    generalize habsent : (HandlerPc.absent : HandlerPc γ κ) = pc' at h
    generalize s.handler = pc at h
    cases h <;> cases habsent
  | scanned _ _ _ pc _ _ hpc' => exact absurd hpc (hplain hpc')
  | signalled | cleared | reopened | reconnected | unreconnected => cases hpc
  | _ => exact hpc

/-- Where the count stays, it stays about the current connection. -/
theorem Beating.relinked (hs : Beating s) (hphase : Phase s) (hgood : NoPingLeft params s a)
    (h : s.step params a = some t) (hpings : t.client.outstandingPing = s.client.outstandingPing)
    (hanswering : s.Answering → t.Answering) {sock : ℕ} (hsock : t.current = some sock)
    (hnot : ¬ t.Answering) : t.client.outstandingPing ≤ unanswered sock t.history.links := by
  have hnot' : ¬ s.Answering := fun h => hnot (hanswering h)
  rw [hpings]
  cases hphase.relinked (step_effect h) with
  | same hlinks hnext hcurrent =>
    rw [hlinks]
    exact hs.counted sock (hcurrent.symm.trans hsock) hnot'
  | used e huse hcurrent hcurrent' hnext hlinks =>
    obtain rfl : e.sock = sock := Option.some.inj (hcurrent'.symm.trans hsock)
    refine (hs.counted e.sock hcurrent hnot').trans ?_
    rw [hlinks]
    refine Int.ofNat_le.mpr (unanswered_le_use _ huse fun data he hcmd => hnot ⟨data, ?_, hcmd⟩)
    exact (step_effect h).answering (hlinks.trans (by rw [he]))
  | made env hconnects result hcurrent hcurrent' hnext houtcome =>
    rw [hs.connects hphase hgood h hconnects (by rw [hsock]; rfl)]
    exact Int.natCast_nonneg _
  | gaveUp env hgives mqtt hcurrent hcurrent' =>
    rw [hsock] at hcurrent'
    cases hcurrent'

theorem Beating.step (hs : Beating s) (hphase : Phase s) (hgood : NoPingLeft params s a)
    (h : s.step params a = some t) : Beating t := by
  have hpinged := step_pinged hphase h
  constructor
  · intro sock hsock hnot
    cases hpinged with
    | none hpings => exact hpings ▸ Int.natCast_nonneg _
    | one mqtt mqtt' hmqtt hmqtt' hsock' hmain hpc hpc' hlinks hpings =>
      have hcurrent := current_of_some (hphase.not_gone_alive (by rw [hpc]; rfl)) hmqtt
      have hcounted := hs.counted mqtt.sock hcurrent (by
        rintro ⟨data, hdata, -⟩
        rw [hpc] at hdata
        cases hdata)
      obtain rfl : mqtt.sock = sock := by
        rw [current, hmqtt', hmain] at hsock
        rw [current, hmqtt] at hcurrent
        split_ifs at hsock hcurrent
        rw [← hsock']
        exact Option.some.inj hsock
      rw [hlinks, hpings, unanswered_ping]
      push_cast
      omega
    | same hpings hanswering => exact hs.relinked hphase hgood h hpings hanswering hsock hnot
  · intro hpc
    cases hpinged with
    | none hpings hpc' => exact absurd hpc hpc'
    | one _ _ _ _ _ _ _ hpc' => exact absurd hpc hpc'
    | same hpings hanswering hpc' =>
      rw [hpings]
      exact (hpc' hpc).elim hs.lost id
  · intro hpc
    have habsent := (step_effect h).absent hpc
    cases hpinged with
    | none hpings => exact hpings
    | one _ _ _ _ _ _ hpc => simp [habsent] at hpc
    | same hpings => exact hpings.trans (hs.absent habsent)

/-- **A connection that is given up for its heartbeat has two pings unanswered**, in every run that
makes new connections with none left over. -/
theorem heartbeat_unanswered (h : Reach (AsyncSystem.step params) (NoPingLeft params) init s)
    (hstep : s.step params a = some t) (hbreaks : s.Breaks t "MQTT Heartbeat no response.") :
    ∃ mqtt, s.client.mqtt = some mqtt ∧ 2 ≤ unanswered mqtt.sock s.history.links := by
  have hboth : Phase s ∧ Beating s := by
    refine h.invariant (I := fun s => Phase s ∧ Beating s) ⟨phase_init, beating_init⟩ ?_
    rintro s a t ⟨hphase, hs⟩ hgood hstep
    exact ⟨hphase.step (step_effect hstep), hs.step hphase hgood hstep⟩
  obtain ⟨hphase, hs⟩ := hboth
  rcases breaks_place hstep hbreaks with ⟨input, -, -, hwhy, hstate, -⟩ | ⟨-, hwhy⟩
  · have hpc : s.handler = .heartbeatLost := by
      unfold HandlerPc.why at hwhy
      split at hwhy <;> simp_all
    have hmain : s.main ≠ .created := hphase.main_ne (by rw [hpc]; rfl)
    obtain ⟨mqtt, hmqtt⟩ := Option.isSome_iff_exists.mp (hphase.connected hstate hmain)
    have hcurrent := current_of_some (hphase.not_gone_connected hstate) hmqtt
    have hcounted := hs.counted mqtt.sock hcurrent (by
      rintro ⟨data, hdata, -⟩
      rw [hpc] at hdata
      cases hdata)
    have hlost := hs.lost hpc
    exact ⟨mqtt, hmqtt, by omega⟩
  · exact absurd hwhy (by decide)

end AsyncSystem

/-! ## A silent broker -/

/-- A receive thread that gets nothing in time. -/
def HandlerInput.idle (now : ℤ) : HandlerInput :=
  ⟨some 1, .failed errTr50TcpTimeout (by decide) 0, ⟨⟨true, 0⟩, fun _ => true⟩, now, .accepted,
    true⟩

/-- …or loses its connection. -/
def HandlerInput.dropped : HandlerInput :=
  { HandlerInput.lost with env := ⟨⟨true, 0⟩, fun _ => true⟩, now := 60000 }

/-- A connection, and two pings on it. -/
def pings : List (AsyncAction Unit Unit) :=
  List.replicate 3 (.main .plain) ++ List.replicate 15 (.handler (.idle 60000))

/-- Nothing comes back… -/
def silence : List (AsyncAction Unit Unit) :=
  pings ++ List.replicate 5 (.handler (.idle 60000))

/-- …or the connection is lost, and replaced. -/
def replacement : List (AsyncAction Unit Unit) :=
  pings ++ List.replicate 9 (.handler .dropped) ++ List.replicate 5 (.handler (.idle 60000))

namespace AsyncSystem

/-- Both pings stay unanswered. -/
theorem heartbeat_unanswered_silent :
    ∃ s t : AsyncSystem Unit Unit,
      Reach (AsyncSystem.step .anonymous) (NoPingLeft .anonymous) init s
      ∧ s.step .anonymous (.handler (.idle 60000)) = some t
      ∧ s.Breaks t "MQTT Heartbeat no response."
      ∧ ∃ mqtt, s.client.mqtt = some mqtt ∧ 2 ≤ unanswered mqtt.sock s.history.links := by
  have heval : ((silence.foldlM (fun (s : AsyncSystem Unit Unit) a =>
      if s.handler.hasMux = false then AsyncSystem.step .anonymous s a else none) init).bind
      fun s => (AsyncSystem.step .anonymous s (.handler (.idle 60000))).map fun t =>
        decide (t.client.reports = s.client.reports
          ++ [⟨.connected, .broken, 0, "MQTT Heartbeat no response."⟩])) = some true := by
    decide +kernel
  obtain ⟨s, hs, hnext⟩ := Option.bind_eq_some_iff.mp heval
  obtain ⟨t, ht, hreports⟩ := Option.map_eq_some_iff.mp hnext
  have hbreaks : s.Breaks t "MQTT Heartbeat no response." := ⟨0, of_decide_eq_true hreports⟩
  have hmux : Reach (AsyncSystem.step .anonymous)
      (fun (s : AsyncSystem Unit Unit) _ => s.handler.hasMux = false) init s :=
    Reach.of_guarded silence hs
  have hreach : Reach (AsyncSystem.step .anonymous) (NoPingLeft .anonymous) init s := by
    refine hmux.mono fun s a hmux => ?_
    rintro input total mqtt links - hpc -
    rw [hpc] at hmux
    cases hmux
  exact ⟨s, t, hreach, ht, hbreaks, heartbeat_unanswered hreach ht hbreaks⟩

/-- **Pings left over from one connection break the next one.** -/
theorem not_heartbeat_unanswered_reconnect :
    ¬ ∀ s t : AsyncSystem Unit Unit, ∀ a,
      Reach (AsyncSystem.step .anonymous) (fun _ _ => True) init s →
      s.step .anonymous a = some t → s.Breaks t "MQTT Heartbeat no response." →
      ∃ mqtt, s.client.mqtt = some mqtt ∧ 2 ≤ unanswered mqtt.sock s.history.links := by
  intro h
  have heval : ((replacement.foldlM (AsyncSystem.step .anonymous) init).bind fun s =>
      (AsyncSystem.step .anonymous s (.handler (.idle 60000))).map fun t =>
        (decide (t.client.reports = s.client.reports
          ++ [⟨.connected, .broken, 0, "MQTT Heartbeat no response."⟩]),
          s.client.mqtt.map fun mqtt => unanswered mqtt.sock s.history.links))
      = some (true, some 0) := by
    decide +kernel
  obtain ⟨s, hs, hnext⟩ := Option.bind_eq_some_iff.mp heval
  obtain ⟨t, ht, hview⟩ := Option.map_eq_some_iff.mp hnext
  obtain ⟨hreports, hnone⟩ := Prod.mk.inj hview
  obtain ⟨mqtt, hmqtt, htwo⟩ := h s t _ (Reach.of_foldlM _ (by simp) hs) ht
    ⟨0, of_decide_eq_true hreports⟩
  rw [hmqtt, Option.map_some] at hnone
  rw [Option.some.inj hnone] at htwo
  exact absurd htwo (by decide)

end AsyncSystem

end Tr50
