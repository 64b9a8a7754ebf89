import Tr50.Mqtt.Links

/-!
# Mqtt/Handshake — CONNECT first, then CONNACK, then the rest

No code checks the order.  It follows from when the connection is handed to the client: a packet
other than CONNECT goes over the connection that the client has (`Relinked.used`), and it has it
only once `mqtt_connect` has accepted its CONNACK (`Introduced`).

What `mqtt_msg_process_connack` accepts is four bytes long, but not always a CONNACK: with a length
field of two or three bytes its last byte is no return code (`LongConnack`).
-/

namespace Tr50

open Machinery

variable {γ κ : Type}

/-! ## Packets over one connection -/

/-- The first packet sent on a connection. -/
def firstSent (sock : ℕ) : List LinkEvent → Option (List UInt8)
  | [] => none
  | .sent sock' packet :: log =>
      (firstSent sock log).or (if sock' = sock then some packet else none)
  | _ :: log => firstSent sock log

/-- The first packet received on a connection. -/
def firstReceived (sock : ℕ) : List LinkEvent → Option (List UInt8)
  | [] => none
  | .received sock' packet :: log =>
      (firstReceived sock log).or (if sock' = sock then packet else none)
  | _ :: log => firstReceived sock log

/-- A PUBLISH, PUBACK, SUBSCRIBE, UNSUBSCRIBE or PINGREQ. -/
def IsData (packet : List UInt8) : Prop :=
  ∃ b ∈ packet.head?, b &&& mqttGetMsgType ∈ [mqttMsgTypePublish, mqttMsgTypePuback,
    mqttMsgTypeSubscribe, mqttMsgTypeUnsubscribe, mqttMsgTypePingreq]

/-- A CONNACK with the return code `0`. -/
def IsConnack (rsp : List UInt8) : Prop :=
  ∃ b0 flags, rsp = [b0, 2, flags, 0] ∧ b0 &&& mqttGetMsgType = mqttMsgTypeConnack

/-- Four bytes that end in `0`, behind a length field of more than one byte. -/
def LongConnack (rsp : List UInt8) : Prop :=
  ∃ b0 d x, rsp = [b0, d, x, 0] ∧ b0 &&& mqttGetMsgType = mqttMsgTypeConnack ∧ 128 ≤ d.toNat

/-- What is accepted has four bytes, the type of a CONNACK, and ends in `0`. -/
theorem mqttMsgProcessConnack_eq_zero {rsp : List UInt8} (h : mqttMsgProcessConnack rsp = some 0) :
    ∃ b0 d x, rsp = [b0, d, x, 0] ∧ b0 &&& mqttGetMsgType = mqttMsgTypeConnack := by
  have hlength : rsp.length = 4 := by
    by_contra hlength
    rw [mqttMsgProcessConnack, if_pos hlength] at h
    revert h
    decide
  obtain ⟨b0, d, x, c, rfl⟩ := List.length_eq_four.mp hlength
  change (if b0 &&& mqttGetMsgType ≠ mqttMsgTypeConnack then some errMqttMsgConnackType
    else if c = mqttConnackAccepted then some 0
    else if c = mqttConnackRefusedVersion then some (mqttConnackRefusedVersion.toNat : ℤ)
    else if c = mqttConnackRefusedId then some errMqttMsgConnackId
    else if c = mqttConnackRefusedBroker then some errMqttMsgConnackBroker
    else if c = mqttConnackRefusedBadUserPassword then some errMqttMsgConnackLogin
    else if c = mqttConnackRefusedNotAuthorized then some errMqttMsgConnackNotAuthorized
    else some errMqttMsgConnackUnknownReturn) = some 0 at h
  split_ifs at h with htype haccepted
  · exact absurd h (by decide)
  · exact ⟨b0, d, x, by rw [haccepted]; rfl, not_not.mp htype⟩
  all_goals exact absurd h (by decide)

/-- **What is accepted is a CONNACK**, or has a long length field. -/
theorem isConnack_of_accepted {rsp : List UInt8} (hrsp : IsPacket rsp)
    (h : mqttMsgProcessConnack rsp = some 0) (hlong : ¬ LongConnack rsp) : IsConnack rsp := by
  obtain ⟨b0, d, x, rfl, htype⟩ := mqttMsgProcessConnack_eq_zero h
  have hd : d.toNat < 128 := by
    by_contra hd
    exact hlong ⟨b0, d, x, rfl, htype, by omega⟩
  obtain ⟨b0', f, body, heq, hf, -⟩ := hrsp
  obtain ⟨rfl, htail⟩ := List.cons.inj heq
  generalize hlen : body.length = v at hf
  cases hf with
  | last hd' =>
    obtain ⟨rfl, rfl⟩ := List.cons.inj htail
    obtain rfl : d = 2 := UInt8.toNat.inj (by simpa using hlen.symm)
    exact ⟨b0, x, rfl, htype⟩
  | more hd' hf =>
    obtain ⟨rfl, -⟩ := List.cons.inj htail
    omega

/-- Data is sent where the first packet received is a CONNACK. -/
def Greeted (e : LinkEvent) (past : List LinkEvent) : Prop :=
  ∀ sock packet, e = .sent sock packet → IsData packet →
    ∃ rsp ∈ firstReceived sock past, IsConnack rsp

/-- The first packet on every connection is a CONNECT, and data comes behind a CONNACK. -/
structure Handshaken (links : List LinkEvent) : Prop where
  first : ∀ sock, ∀ packet ∈ firstSent sock links, packet.head? = some mqttMsgTypeConnect
  greeted : Always Greeted links

/-- …and the connection at hand is one that has had both. -/
structure Introduced (links : List LinkEvent) (next : ℕ) (current : Option ℕ) : Prop
    extends Handshaken links where
  fresh : ∀ e ∈ links, e.sock < next
  started : ∀ sock ∈ current, sock < next ∧ (firstSent sock links).isSome
  accepted : ∀ sock ∈ current, ∃ rsp ∈ firstReceived sock links, IsConnack rsp

theorem firstSent_cons {e : LinkEvent} {links : List LinkEvent} {sock : ℕ} {packet : List UInt8}
    (h : firstSent sock links = some packet) : firstSent sock (e :: links) = some packet := by
  cases e <;> simp [firstSent, h]

theorem firstReceived_cons {e : LinkEvent} {links : List LinkEvent} {sock : ℕ} {packet : List UInt8}
    (h : firstReceived sock links = some packet) :
    firstReceived sock (e :: links) = some packet := by
  cases e <;> simp [firstReceived, h]

/-- Nothing has been received on a connection that has not been opened. -/
theorem firstReceived_fresh {links : List LinkEvent} {sock : ℕ} (h : ∀ e ∈ links, e.sock < sock) :
    firstReceived sock links = none := by
  induction links with
  | nil => rfl
  | cons e links ih =>
    obtain ⟨he, hlinks⟩ := List.forall_mem_cons.mp h
    cases e with
    | received sock' packet =>
      have hne : sock' ≠ sock := he.ne
      simp [firstReceived, ih hlinks, hne]
    | _ => exact ih hlinks

namespace Introduced

variable {links links' : List LinkEvent} {next : ℕ} {current : Option ℕ} {e : LinkEvent}

theorem nil : Introduced [] 0 none where
  first := by simp [firstSent]
  greeted := always_nil
  fresh := by simp
  started := by simp
  accepted := by simp

/-- No connection is at hand. -/
theorem drop (h : Introduced links next current) : Introduced links next none :=
  { h with started := by simp, accepted := by simp }

/-- A CONNECT may be sent anywhere, and anything on the connection at hand. -/
theorem cons (h : Introduced links next current) (hsock : e.sock < next)
    (hsent : ∀ sock packet, e = .sent sock packet →
      packet.head? = some mqttMsgTypeConnect ∨ current = some sock) :
    Introduced (e :: links) next current where
  first := by
    intro sock packet hpacket
    cases hold : firstSent sock links with
    | some packet' =>
      rw [firstSent_cons hold] at hpacket
      exact h.first sock packet (hold.trans hpacket)
    | none =>
      cases e with
      | sent sock' packet' =>
        rw [firstSent, hold, Option.none_or] at hpacket
        split_ifs at hpacket with heq
        · subst heq
          obtain rfl := Option.some.inj hpacket
          refine (hsent _ _ rfl).resolve_right fun hcurrent => ?_
          have hsome := (h.started _ hcurrent).2
          rw [hold] at hsome
          cases hsome
        · cases hpacket
      | _ => exact h.first sock packet hpacket
  greeted := by
    refine always_cons.mpr ⟨fun sock packet he hdata => ?_, h.greeted⟩
    rcases hsent sock packet he with hconnect | hcurrent
    · obtain ⟨b, hb, hmem⟩ := hdata
      rw [hconnect] at hb
      obtain rfl := Option.some.inj hb
      exact absurd hmem (by decide)
    · exact h.accepted sock hcurrent
  fresh := List.forall_mem_cons.mpr ⟨hsock, h.fresh⟩
  started := by
    intro sock hsock
    obtain ⟨hlt, hstarted⟩ := h.started sock hsock
    obtain ⟨packet, hpacket⟩ := Option.isSome_iff_exists.mp hstarted
    rw [firstSent_cons hpacket]
    exact ⟨hlt, rfl⟩
  accepted := by
    intro sock hsock
    obtain ⟨rsp, hrsp, hconnack⟩ := h.accepted sock hsock
    exact ⟨rsp, firstReceived_cons hrsp, hconnack⟩

/-- …and whatever is no packet may happen anywhere. -/
theorem other (h : Introduced links next current) (e : LinkEvent) (hsock : e.sock < next)
    (he : ∀ sock packet, e ≠ .sent sock packet) : Introduced (e :: links) next current :=
  h.cons hsock fun sock packet heq => absurd heq (he sock packet)

/-- **A connection is introduced once its CONNACK has been accepted.** -/
theorem connect {answer : RecvAnswer} {result : Except ℤ MqttClient}
    (h : Introduced links next none)
    (hanswer : ∀ rsp hrsp now, answer = .packet rsp hrsp now → ¬ LongConnack rsp)
    (hconnect : ConnectOutcome answer next links result links') :
    Introduced links' (next + 1) (result.toOption.map (·.sock)) := by
  have hlt : next < next + 1 := Nat.lt_succ_self next
  have hnext : Introduced links (next + 1) none :=
    { h with fresh := fun e he => (h.fresh e he).trans hlt, started := by simp }
  cases hconnect with
  | unopened ret => exact hnext
  | unsent ret =>
    exact (hnext.other (.opened next) hlt (by simp)).other (.closed next) hlt (by simp)
  | @refused ret req hreq rsp =>
    have hsent := (hnext.other (.opened next) hlt (by simp)).cons (e := .sent next req) hlt
      fun sock packet heq => Or.inl (by cases heq; exact hreq)
    exact (hsent.other (.received next rsp) hlt (by simp)).other (.closed next) hlt (by simp)
  | @accepted client hsock req rsp hreq hrsp now heq hconnack =>
    have hsent := (hnext.other (.opened next) hlt (by simp)).cons (e := .sent next req) hlt
      fun sock packet heq => Or.inl (by cases heq; exact hreq)
    have hmade := (hsent.other (.received next (some rsp)) hlt (by simp)).other (.connected next)
      hlt (by simp)
    subst hsock
    refine { hmade with started := fun sock hsock => ?_, accepted := fun sock hsock => ?_ } <;>
      obtain rfl := Option.some.inj hsock
    · refine ⟨hlt, ?_⟩
      cases hold : firstSent client.sock links <;> simp [firstSent, hold]
    · refine ⟨rsp, ?_, isConnack_of_accepted hrsp hconnack (hanswer rsp hrsp now heq)⟩
      simp [firstReceived, firstReceived_fresh h.fresh]

/-- …and is not used any more once it is given up. -/
theorem disconnect {env : SendEnv} {mqtt : MqttClient} {ret : ℤ}
    (h : Introduced links next (some mqtt.sock))
    (hdisconnect : mqttDisconnect env mqtt links = some (ret, links')) :
    Introduced links' next none := by
  have hlt := (h.started mqtt.sock rfl).1
  by_cases hmalloc : env.malloc
  · rw [mqttDisconnect_granted hmalloc] at hdisconnect
    obtain ⟨-, rfl⟩ := Prod.mk.inj (Option.some.inj hdisconnect)
    have hsent := h.cons (e := .sent mqtt.sock [mqttMsgTypeDisconnect, 0]) hlt
      fun sock packet heq => Or.inr (by cases heq; rfl)
    exact ((hsent.other (.closed mqtt.sock) hlt (by simp)).other (.disconnected mqtt.sock) hlt
      (by simp)).drop
  · rw [mqttDisconnect_refused (by simpa using hmalloc)] at hdisconnect
    obtain ⟨-, rfl⟩ := Prod.mk.inj (Option.some.inj hdisconnect)
    exact (h.other (.disconnected mqtt.sock) hlt (by simp)).drop

end Introduced

namespace AsyncSystem

variable {params : MqttConnectParams} {s t : AsyncSystem γ κ} {a : AsyncAction γ κ}

/-- No CONNECT is answered by four bytes behind a long length field. -/
def ConnackFramed (s : AsyncSystem γ κ) (a : AsyncAction γ κ) : Prop :=
  ∀ env, s.Connects a env → ∀ rsp hrsp now, env.answer = .packet rsp hrsp now → ¬ LongConnack rsp

/-- The connections of a client, and what has gone over them. -/
def Greets (s : AsyncSystem γ κ) : Prop := Introduced s.history.links s.nextSock s.current

theorem Greets.step (hgreets : Greets s) (hs : Phase s) (hgood : ConnackFramed s a)
    (h : Effect params s a t) : Greets t := by
  unfold Greets at hgreets ⊢
  cases hs.relinked h with
  | same hlinks hnext hcurrent =>
    rw [hlinks, hnext, hcurrent]
    exact hgreets
  | used e huse hcurrent hcurrent' hnext hlinks =>
    rw [hcurrent] at hgreets
    rw [hlinks, hnext, hcurrent']
    refine hgreets.cons (hgreets.started _ rfl).1 fun sock packet he => Or.inr ?_
    rw [he]
    rfl
  | made env hconnects result hcurrent hcurrent' hnext h =>
    rw [hcurrent] at hgreets
    rw [hnext, hcurrent']
    exact hgreets.connect (hgood env hconnects) h
  | gaveUp env hgives mqtt hcurrent hcurrent' hnext ret h =>
    rw [hcurrent] at hgreets
    rw [hnext, hcurrent']
    exact hgreets.disconnect h

/-- **CONNECT first, then CONNACK, then the rest**, in every run in which no CONNACK has a long
length field. -/
theorem handshaken (h : Reach (AsyncSystem.step params) ConnackFramed init s) :
    Handshaken s.history.links := by
  have hboth : Phase s ∧ Greets s := by
    refine h.invariant (I := fun s => Phase s ∧ Greets s) ⟨phase_init, Introduced.nil⟩ ?_
    rintro s a t ⟨hs, hgreets⟩ hgood hstep
    exact ⟨hs.step (step_effect hstep), hgreets.step hs hgood (step_effect hstep)⟩
  exact hboth.2.toHandshaken

theorem connackFramed_session : ∀ s, ∀ a ∈ session, ConnackFramed s a := by
  have hshort : ∀ rsp hrsp now, ConnectEnv.accepted.answer = .packet rsp hrsp now →
      ¬ LongConnack rsp := by
    rintro rsp hrsp now heq ⟨b0, d, x, rfl, -, hd⟩
    obtain ⟨hrsp, -⟩ := RecvAnswer.packet.inj heq
    obtain rfl : (2 : UInt8) = d := by simpa using (List.cons.inj (List.cons.inj hrsp).2).1
    exact absurd hd (by decide)
  rintro s a ha env (⟨input, rfl, -, rfl⟩ | ⟨input, total, rfl, -, rfl⟩)
  · obtain rfl : input = .plain := by simpa [session] using ha
    exact hshort
  · obtain rfl : input = .acknowledged := by simpa [session] using ha
    exact hshort

/-- …such as the session, which sends a PUBLISH. -/
theorem handshaken_session :
    ∃ s, session.foldlM (AsyncSystem.step .anonymous) init = some s
      ∧ .sent 0 [0x32, 6, 0, 1, 97, 0, 0, 98] ∈ s.history.links
      ∧ IsData [0x32, 6, 0, 1, 97, 0, 0, 98] ∧ Handshaken s.history.links := by
  have heval : ((session.foldlM (AsyncSystem.step .anonymous) init).map fun s =>
      decide (.sent 0 [0x32, 6, 0, 1, 97, 0, 0, 98] ∈ s.history.links)) = some true := by
    decide +kernel
  obtain ⟨s, hs, hview⟩ := Option.map_eq_some_iff.mp heval
  exact ⟨s, hs, of_decide_eq_true hview, ⟨0x32, rfl, by decide⟩,
    handshaken (Reach.of_foldlM _ connackFramed_session hs)⟩

end AsyncSystem

/-- The answer `20 81 00 00`: its remaining length is `1`, and its last byte is no return code. -/
def ConnectEnv.long : ConnectEnv :=
  ⟨true, 0, 0, ⟨true, 0⟩, .packet [0x20, 0x81, 0, 0]
    ⟨0x20, [0x81, 0], [0], rfl, .more (by decide) (.last (by decide)), by decide⟩ 0⟩

namespace AsyncSystem

/-- **A PUBLISH goes over a connection that has had no CONNACK.** -/
theorem not_handshaken_long :
    ¬ ∀ s : AsyncSystem Unit Unit,
      Reach (AsyncSystem.step .anonymous) (fun _ _ => True) init s →
        Handshaken s.history.links := by
  intro h
  have heval : ((([.main .plain, .main ⟨.long, 0, ⟨true, 0⟩⟩, .main .plain,
      .request ⟨⟨true, 0⟩, some 2, 0⟩ (.publish [97] [98] 0), .call, .call] :
      List (AsyncAction Unit Unit)).foldlM (AsyncSystem.step .anonymous) init).map fun s =>
      s.history.links) = some [.sent 0 [0x30, 4, 0, 1, 97, 98], .connected 0,
        .received 0 (some [0x20, 0x81, 0, 0]),
        .sent 0 [0x10, 14, 0, 6, 77, 81, 73, 115, 100, 112, 3, 0, 0, 60, 0, 0], .opened 0] := by
    decide +kernel
  obtain ⟨s, hs, hlinks⟩ := Option.map_eq_some_iff.mp heval
  have hgreeted := (h s (Reach.of_foldlM _ (by simp) hs)).greeted
  rw [hlinks] at hgreeted
  obtain ⟨rsp, hrsp, b0, flags, rfl, -⟩ :=
    (always_cons.mp hgreeted).1 0 _ rfl ⟨0x30, rfl, by decide⟩
  exact absurd (Option.some.inj hrsp) (by simp)

end AsyncSystem

end Tr50
