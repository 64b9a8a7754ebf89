import Tr50.Machinery.Observed
import Tr50.Mqtt.Heartbeat

/-!
# Mqtt/Keepalive — whether the broker hears of the client in time

CONNECT promises the broker a packet within every keepalive.  The duty is about what the client has
sent; `_mqtt_async_handler_keepalive` looks at what it has received (`last_recv`).  `Duty` notes
when a packet was last sent on the current connection, whether that was too long ago when the
function was last entered (`Due`), and what it has done about it.  Where the test and the duty
agree, the function pings or gives the connection up whenever it has to (`keepalive_done`).
-/

namespace Tr50

open Machinery

variable {γ κ : Type}

/-- The note of an observer with a clock. -/
structure Duty where
  /-- When the last packet was sent. -/
  lastSent : ℤ
  /-- The client had to send something when `_mqtt_async_handler_keepalive` was last entered… -/
  due : Bool
  /-- …and has sent a PINGREQ since then, or given the connection up. -/
  done : Bool

namespace Duty

def none : Duty := ⟨0, false, false⟩

end Duty

namespace HandlerPc

/-- At the entry of `_mqtt_async_handler_keepalive`… -/
def enters : HandlerPc γ κ → Bool
  | keepalive => true
  | _ => false

/-- …at its test for a ping… -/
def tests : HandlerPc γ κ → Bool
  | ping => true
  | _ => false

/-- …and where it gives the connection up. -/
def gives : HandlerPc γ κ → Bool
  | heartbeatLost | pingFailed => true
  | _ => false

end HandlerPc

/-- A packet is sent. -/
def LinkEvent.isSent : LinkEvent → Bool
  | sent _ _ => true
  | _ => false

namespace AsyncSystem

variable {params : MqttConnectParams} {s t : AsyncSystem γ κ} {w : Duty}

/-- The client has sent nothing for a keepalive less its timeout. -/
def Due (params : MqttConnectParams) (s : AsyncSystem γ κ) (w : Duty) (now : ℤ) : Prop :=
  s.client.state = .connected ∧ 0 < params.keepaliveInMs
    ∧ params.keepaliveInMs - s.client.timeoutInMs ≤ now - w.lastSent

instance (w : Duty) (now : ℤ) : Decidable (Due params s w now) :=
  inferInstanceAs (Decidable (_ ∧ _ ∧ _))

/-- A step sends a PINGREQ on the current connection, or gives it up. -/
def beats (s t : AsyncSystem γ κ) : Bool :=
  (s.client.mqtt.any fun mqtt =>
      decide (t.history.links = .sent mqtt.sock pingreq :: s.history.links))
    || decide (s.client.state = .connected ∧ t.client.state = .broken)

/-- What is noted of a step. -/
def duty (params : MqttConnectParams) (s : AsyncSystem γ κ) (b : AsyncAction γ κ × ℤ)
    (t : AsyncSystem γ κ) (w : Duty) : Duty :=
  let links := t.history.links.take (t.history.links.length - s.history.links.length)
  let w := { w with lastSent := if links.any LinkEvent.isSent then b.2 else w.lastSent }
  match b.1 with
  | .handler _ =>
    if s.handler.enters then { w with due := decide (Due params s w b.2), done := false }
    else { w with done := w.done || s.handler.beating && beats s t }
  | _ => w

/-- Where the client has to send something, it has received nothing for a keepalive less its
timeout; and where it has to give the connection up, nobody else has. -/
def KeepsAlive (params : MqttConnectParams) (p : AsyncSystem γ κ × Duty) (b : AsyncAction γ κ × ℤ) :
    Prop :=
  match b.1 with
  | .handler input => p.2.due →
      (p.1.handler.tests → ∀ mqtt ∈ p.1.client.mqtt,
        mqtt.lastRecv + params.keepaliveInMs < input.now + p.1.client.timeoutInMs)
      ∧ (p.1.handler.gives → p.1.client.state = .connected)
  | _ => True

instance (p : AsyncSystem γ κ × Duty) (b : AsyncAction γ κ × ℤ) :
    Decidable (KeepsAlive params p b) :=
  match b with
  | (.handler _, _) => inferInstanceAs (Decidable (_ → _ ∧ _))
  | (.main _, _) | (.request _ _, _) | (.call, _) => .isTrue trivial

/-- Outside of `_mqtt_async_handler_keepalive` the duty is done. -/
def Dutiful (p : AsyncSystem γ κ × Duty) : Prop :=
  p.1.handler.beating = false → p.2.due → p.2.done

/-! ## What a step does with the duty -/

theorem enters_eq_false (hpc : s.handler ≠ .keepalive) : s.handler.enters = false := by
  unfold HandlerPc.enters
  split <;> simp_all

/-- Nobody but the receive thread has it. -/
theorem Dutiful.frame {b : AsyncAction γ κ × ℤ} (hw : Dutiful (s, w))
    (hpc : t.handler.beating = s.handler.beating) (hb : ∀ input, b.1 ≠ .handler input) :
    Dutiful (t, duty params s b t w) := by
  intro hbeating hdue
  rw [hpc] at hbeating
  unfold duty at hdue ⊢
  split at hdue
  · exact absurd ‹_› (hb _)
  · exact hw hbeating hdue

/-- Neither has the receive thread outside of the function. -/
theorem Dutiful.elsewhere {input : HandlerInput} {now : ℤ} (hw : Dutiful (s, w))
    (hpc : s.handler ≠ .keepalive) (hbeating : s.handler.beating = false) :
    Dutiful (t, duty params s (.handler input, now) t w) := by
  intro _ hdue
  simp only [duty, enters_eq_false hpc, hbeating, Bool.false_and, Bool.or_false] at hdue ⊢
  exact hw hbeating hdue

/-- Inside, a ping or a break will do. -/
theorem dutiful_beats {input : HandlerInput} {now : ℤ} (hpc : s.handler ≠ .keepalive)
    (hbeating : s.handler.beating) (hdone : w.due → beats s t) :
    Dutiful (t, duty params s (.handler input, now) t w) := by
  intro _ hdue
  simp only [duty, enters_eq_false hpc, hbeating, Bool.true_and] at hdue ⊢
  simp [hdone hdue]

theorem beats_broken {error : ℤ} {why : String} (hstate : s.client.state = .connected)
    (ht : t.client.state = (s.broken error why).client.state) : beats s t := by
  have hbroken : t.client.state = .broken := by
    rw [ht]
    simp [broken, mqttAsyncBreak, hstate, mqttAsyncStateChange]
  simp [beats, hstate, hbroken]

theorem Dutiful.handler {input : HandlerInput} {now : ℤ} (hw : Dutiful (s, w))
    (hgood : KeepsAlive params (s, w) (.handler input, now))
    (h : s.handlerStep params input s.handler = some t) :
    Dutiful (t, duty params s (.handler input, now) t w) := by
  cases handler_turn h with
  | recvFailed hpc | answered _ hpc | scanned hpc | ackLost hpc =>
    exact hw.elsewhere (by simp [hpc]) (by rw [hpc]; rfl)
  | other hother hpc hdata => exact hw.elsewhere hpc.2.2.1 hpc.1
  | unneeded hpc hidle =>
    intro _ hdue
    simp only [duty, hpc, HandlerPc.enters, if_true, Due, decide_eq_true_eq] at hdue
    rcases hidle with hstate | hkeepalive
    · exact absurd hdue.1 hstate
    · exact absurd hdue.2.1 (not_lt.mpr hkeepalive)
  | silent | checked | unpinged => exact fun hbeating => by cases hbeating
  | recent hpc mqtt hmqtt hrecent =>
    -- the test is about what has been received
    refine dutiful_beats (by simp [hpc]) (by rw [hpc]; rfl) fun hdue => ?_
    exact absurd ((hgood hdue).1 (by rw [hpc]; rfl) mqtt hmqtt) (not_lt.mpr hrecent)
  | pinged hpc mqtt mqtt' hmqtt =>
    exact dutiful_beats (by simp [hpc]) (by rw [hpc]; rfl) fun _ => by simp [beats, hmqtt, goto]
  | heartbeatLost hpc =>
    exact dutiful_beats (by simp [hpc]) (by rw [hpc]; rfl) fun hdue =>
      beats_broken ((hgood hdue).2 (by rw [hpc]; rfl)) rfl
  | pingFailed hpc =>
    exact dutiful_beats (by simp [hpc]) (by rw [hpc]; rfl) fun hdue =>
      beats_broken ((hgood hdue).2 (by rw [hpc]; rfl)) rfl

theorem Dutiful.step {b : AsyncAction γ κ × ℤ} (hw : Dutiful (s, w)) (hphase : Phase s)
    (hgood : KeepsAlive params (s, w) b) (h : s.step params b.1 = some t) :
    Dutiful (t, duty params s b t w) := by
  obtain ⟨a, now⟩ := b
  cases a with
  | main input =>
    refine hw.frame ?_ (by simp)
    obtain ⟨-, -, hpc | ⟨hmain, hpc⟩⟩ := main_turn h
    · rw [hpc]
    · rw [hpc, hphase.early (by rw [hmain]; rfl)]
      rfl
  | handler input => exact hw.handler hgood h
  | request env req =>
    refine hw.frame ?_ (by simp)
    rcases request_cases h with rfl | rfl <;> rfl
  | call =>
    obtain ⟨call, -, hstep⟩ := Option.bind_eq_some_iff.mp h
    exact hw.frame (by rw [(call_turn hstep).2.2]) (by simp)

/-- **A client that has sent nothing for too long pings or gives up**, in every run in which it has
received nothing, either. -/
theorem keepalive_done {p : AsyncSystem γ κ × Duty}
    (h : Reach (observe (AsyncSystem.step params) Prod.fst (duty params)) (KeepsAlive params)
      (init, .none) p)
    (hpc : p.1.handler.beating = false) (hdue : p.2.due) : p.2.done := by
  have hboth : Phase p.1 ∧ Dutiful p := by
    refine h.invariant (I := fun p => Phase p.1 ∧ Dutiful p) ⟨phase_init, fun _ h => by cases h⟩ ?_
    rintro ⟨s, w⟩ b ⟨t, w'⟩ ⟨hphase, hw⟩ hgood hobserve
    obtain ⟨hstep, hnote⟩ := observe_eq_some.mp hobserve
    obtain rfl : w' = duty params s b t w := hnote
    exact ⟨hphase.step (step_effect hstep), hw.step hphase hgood hstep⟩
  exact hboth.2 hpc hdue

end AsyncSystem

/-! ## A client that only receives -/

/-- A receive thread that gets a PUBLISH at `now`. -/
def HandlerInput.message (now : ℤ) : HandlerInput :=
  { HandlerInput.idle now with
    answer := .packet [0x30, 4, 0, 1, 97, 98]
      ⟨0x30, [4], [0, 1, 97, 98], rfl, .last (by decide), by decide⟩ now }

/-- A connection at `0`, and nothing until `60000`… -/
def idling : List (AsyncAction Unit Unit × ℤ) :=
  List.replicate 3 (.main .plain, 0) ++ List.replicate 7 (.handler (.idle 60000), 60000)

/-- …or a message shortly before. -/
def listening : List (AsyncAction Unit Unit × ℤ) :=
  List.replicate 3 (.main .plain, 0) ++ List.replicate 9 (.handler (.message 59000), 59000)

namespace AsyncSystem

/-- Who is idle pings. -/
theorem keepalive_done_idling :
    ∃ p : AsyncSystem Unit Unit × Duty,
      Reach (observe (AsyncSystem.step .anonymous) Prod.fst (duty .anonymous))
        (KeepsAlive .anonymous) (init, .none) p
      ∧ p.1.handler.beating = false ∧ p.2.due ∧ p.2.done := by
  have heval : (idling.foldlM (fun (p : AsyncSystem Unit Unit × Duty) b =>
      if KeepsAlive .anonymous p b then
        observe (AsyncSystem.step .anonymous) Prod.fst (duty .anonymous) p b
      else none) (init, .none)).map (fun p => (p.1.handler.beating, p.2.due))
      = some (false, true) := by
    decide +kernel
  obtain ⟨p, hp, hview⟩ := Option.map_eq_some_iff.mp heval
  obtain ⟨hpc, hdue⟩ := Prod.mk.inj hview
  have hreach := Reach.of_guarded idling hp
  exact ⟨p, hreach, hpc, hdue, keepalive_done hreach hpc hdue⟩

/-- **A client that only receives leaves its broker without a packet.** -/
theorem not_keepalive_done_listening :
    ¬ ∀ p : AsyncSystem Unit Unit × Duty,
      Reach (observe (AsyncSystem.step .anonymous) Prod.fst (duty .anonymous))
        (fun _ _ => True) (init, .none) p →
      p.1.handler.beating = false → p.2.due → p.2.done := by
  intro h
  have heval : (listening.foldlM (observe (AsyncSystem.step .anonymous) Prod.fst (duty .anonymous))
      (init, .none)).map (fun (p : AsyncSystem Unit Unit × Duty) =>
        (p.1.handler.beating, p.2.due, p.2.done)) = some (false, true, false) := by
    decide +kernel
  obtain ⟨p, hp, hview⟩ := Option.map_eq_some_iff.mp heval
  obtain ⟨hpc, hview⟩ := Prod.mk.inj hview
  obtain ⟨hdue, hdone⟩ := Prod.mk.inj hview
  have hpinged := h p (Reach.of_foldlM _ (by simp) hp) hpc hdue
  rw [hdone] at hpinged
  cases hpinged

end AsyncSystem

end Tr50
