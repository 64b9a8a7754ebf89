import Tr50.Mqtt.Effects

/-!
# Mqtt/States — the states an asynchronous client goes through

`Phase` says in which state the client is, by where its threads stand.  Whoever changes the state
has tested it under the lock, and nobody else could have changed it since: so what
`_mqtt_async_state_change` reports is a walk along `MqttAsyncState.Edge`, from CREATED on, and
DELETING is left for DELETED only (`stateChange_chain`).
-/

namespace Tr50

open Machinery

variable {γ κ : Type}

/-! ## Edges -/

/-- The changes of state that are reported. -/
inductive MqttAsyncState.Edge : MqttAsyncState → MqttAsyncState → Prop
  | created : Edge .created .connecting
  | connected : Edge .connecting .connected
  | unconnected : Edge .connecting .broken
  | broken : Edge .connected .broken
  | stop : Edge .connected .deleting
  | reconnecting : Edge .broken .reconnecting
  | stopBroken : Edge .broken .deleting
  | reconnected : Edge .reconnecting .connected
  | unreconnected : Edge .reconnecting .broken
  | deleted : Edge .deleting .deleted

/-- Reports that lead from CREATED to a state, edge by edge. -/
inductive Walk : List StateReport → MqttAsyncState → Prop
  | start : Walk [] .created
  | report {reports : List StateReport} {oldState newState : MqttAsyncState}
      (h : Walk reports oldState) (hedge : oldState.Edge newState) (error : ℤ) (why : String) :
      Walk (reports ++ [⟨oldState, newState, error, why⟩]) newState

namespace Walk

variable {reports : List StateReport} {state : MqttAsyncState}

/-- A walk ends where its last report says. -/
theorem last (h : Walk reports state) : ∀ r ∈ reports.getLast?, r.newState = state := by
  cases h with
  | start => simp
  | report h hedge error why => simp

/-- …which is where it has started, if there is none. -/
theorem state_of_nil (h : Walk reports state) (hnil : reports = []) : state = .created := by
  cases h with
  | start => rfl
  | report h hedge error why => simp at hnil

theorem first (h : Walk reports state) : ∀ r ∈ reports.head?, r.oldState = .created := by
  induction h with
  | start => simp
  | @report reports oldState newState h hedge error why ih =>
    rw [List.head?_append]
    cases hhead : reports.head? with
    | none => simpa using h.state_of_nil (List.head?_eq_none_iff.mp hhead)
    | some r => simpa [hhead] using ih

theorem edge (h : Walk reports state) : ∀ r ∈ reports, r.oldState.Edge r.newState := by
  induction h with
  | start => simp
  | report h hedge error why ih =>
    intro r hr
    rcases List.mem_append.mp hr with hr | hr
    · exact ih r hr
    · obtain rfl := List.mem_singleton.mp hr
      exact hedge

/-- **Each report goes on from the one before it.** -/
theorem isChain (h : Walk reports state) :
    reports.IsChain fun r r' => r'.oldState = r.newState := by
  induction h with
  | start => exact List.isChain_nil
  | report h hedge error why ih =>
    refine ih.append (List.isChain_singleton _) fun r hr r' hr' => ?_
    obtain rfl : _ = r' := by simpa using hr'
    exact (h.last r hr).symm

end Walk

/-! ## Phases -/

/-- The thread has seen the client stop. -/
def HandlerPc.stopping : HandlerPc γ κ → Bool
  | .clearEntry last | .clear last _ | .clearCallback last _ _ => last
  | .ended => true
  | _ => false

theorem HandlerPc.stopping_of_plain {pc : HandlerPc γ κ} (h : pc.plain) : pc.stopping = false := by
  cases pc <;> simp_all [plain, stopping]

namespace MainPc

/-- `mqtt_async_connect` has not got a thread yet. -/
def early : MainPc → Bool
  | created | connecting | starting => true
  | _ => false

/-- `mqtt_async_disconnect` has joined the thread. -/
def late : MainPc → Bool
  | close | delete | deleted => true
  | _ => false

/-- The state the client is in, where the receive thread has the lock (`mux`) or not. -/
def Allows (mux : Bool) : MainPc → MqttAsyncState → Prop
  | created, state => state = .connected
  | connecting, state => state = .connecting
  | starting, state => state = .connected ∨ state = .broken
  | running, state | disconnect, state =>
      if mux then state = .reconnecting else state = .connected ∨ state = .broken
  | join, state | close, state | delete, state => state = .deleting
  | deleted, state => state = .deleted

end MainPc

section Moves

variable {client : MqttAsyncClient γ κ} {pc pc' : HandlerPc γ κ}

/-- Who moves is alive, and without the lock on both sides. -/
theorem Moves.alive (h : Moves client pc pc') :
    pc.alive ∧ pc.hasMux = false ∧ pc'.hasMux = false := by
  cases h with
  | plain hplain hplain' huse =>
    exact ⟨HandlerPc.alive_of_plain hplain, HandlerPc.hasMux_of_plain hplain,
      HandlerPc.hasMux_of_plain hplain'⟩
  | empty last hsize => cases last <;> exact ⟨rfl, rfl, rfl⟩
  | done last i hi => cases last <;> exact ⟨rfl, rfl, rfl⟩
  | _ => exact ⟨rfl, rfl, rfl⟩

/-- A connection is only going to be used where the client has been seen CONNECTED. -/
theorem Moves.uses (h : Moves client pc pc') (huse : pc'.usesMqtt) :
    pc.usesMqtt ∨ client.state = .connected := by
  cases h with
  | plain hplain hplain' hmove => exact hmove huse
  | empty last hsize => cases last <;> cases huse
  | done last i hi => cases last <;> cases huse
  | _ => cases huse

/-- The thread stops once it has seen the client stop. -/
theorem Moves.stopping (h : Moves client pc pc') (hstop : pc'.stopping) :
    pc.stopping ∨ client.state = .deleting ∨ client.state = .disabled := by
  cases h with
  | plain hplain hplain' hmove =>
    rw [HandlerPc.stopping_of_plain hplain'] at hstop
    cases hstop
  | stop hstate => exact Or.inr hstate
  | empty last hsize => cases last <;> simp_all [HandlerPc.afterClear, HandlerPc.stopping]
  | done last i hi => cases last <;> simp_all [HandlerPc.afterClear, HandlerPc.stopping]
  | _ => exact Or.inl hstop

/-- …and so does who invokes a callback. -/
theorem Invokes.alive {r : MqttQosRecord γ κ} {status : ℤ} (h : Invokes pc r status pc') :
    pc.alive ∧ pc.hasMux = false ∧ pc'.hasMux = false ∧ pc'.usesMqtt = false
      ∧ (pc'.stopping → pc.stopping) := by
  cases h with
  | signal => exact ⟨rfl, rfl, rfl, rfl, id⟩
  | clear last r i => exact ⟨rfl, rfl, rfl, rfl, id⟩

end Moves

namespace AsyncSystem

/-- Where everybody stands. -/
structure Phase (s : AsyncSystem γ κ) : Prop where
  state : s.main.Allows s.handler.hasMux s.client.state
  early : s.main.early → s.handler = .absent
  mux : s.handler.hasMux → (s.main = .running ∨ s.main = .disconnect) ∧ s.client.mqtt = none
  /-- A request has tested the state, and keeps the lock. -/
  call : s.call.isSome → s.client.state = .connected ∧ s.main ≠ .created
  unopened : s.main = .created ∨ s.main = .connecting → s.client.mqtt = none
  connected : s.client.state = .connected → s.main ≠ .created → s.client.mqtt.isSome
  uses : s.handler.usesMqtt → s.client.mqtt.isSome
  late : s.main.late → s.handler.alive = false
  stopping : s.handler.stopping → s.client.state = .deleting ∨ s.client.state = .deleted

variable {params : MqttConnectParams} {s t : AsyncSystem γ κ} {a : AsyncAction γ κ}

theorem phase_init : Phase (init : AsyncSystem γ κ) := by
  constructor <;> simp [init, MainPc.Allows, HandlerPc.hasMux, HandlerPc.usesMqtt,
    MainPc.late, HandlerPc.stopping]

/-- The last thing a client is told is never that it is disabled. -/
theorem Phase.enabled (hs : Phase s) : s.client.state ≠ .disabled := by
  intro hstate
  have hallows := hs.state
  rw [hstate] at hallows
  unfold MainPc.Allows at hallows
  split at hallows <;> (try split_ifs at hallows) <;> simp at hallows

/-- Where there is a thread, the client has been reported. -/
theorem Phase.main_ne (hs : Phase s) (halive : s.handler.alive) : s.main ≠ .created := by
  intro hmain
  rw [hs.early (by rw [hmain]; rfl)] at halive
  cases halive

theorem eq_none {o o' : Option MqttClient} (h : o'.isSome = o.isSome) (ho : o = none) :
    o' = none := by
  subst ho
  simpa using h

/-- The receive thread goes on, the client staying in its state, and with a connection or
without. -/
theorem Phase.next (hs : Phase s) (pc : HandlerPc γ κ) (hpc : t.handler = pc)
    (hmain : t.main = s.main) (hcall : t.call.isSome → s.call.isSome)
    (hstate : t.client.state = s.client.state)
    (hmqtt : t.client.mqtt.isSome = s.client.mqtt.isSome) (halive : s.handler.alive)
    (hmux : s.handler.hasMux = false) (hmux' : pc.hasMux = false)
    (huse : pc.usesMqtt → s.handler.usesMqtt ∨ s.client.state = .connected)
    (hstop : pc.stopping → s.handler.stopping ∨ s.client.state = .deleting) :
    Phase t := by
  subst hpc
  have hearly : s.main.early = false := by
    by_contra h
    rw [hs.early (by simpa using h)] at halive
    cases halive
  have hlate : s.main.late = false := by
    by_contra h
    rw [hs.late (by simpa using h)] at halive
    cases halive
  constructor
  · rw [hmain, hstate, hmux', ← hmux]
    exact hs.state
  · rw [hmain, hearly]
    exact fun h => nomatch h
  · rw [hmux']
    exact fun h => nomatch h
  · rw [hstate, hmain]
    exact fun h => hs.call (hcall h)
  · rw [hmain]
    exact fun h => eq_none hmqtt (hs.unopened h)
  · rw [hstate, hmain, hmqtt]
    exact hs.connected
  · intro h
    rw [hmqtt]
    rcases huse h with h | h
    · exact hs.uses h
    · refine hs.connected h fun hcreated => ?_
      rw [hcreated] at hearly
      cases hearly
  · rw [hmain, hlate]
    exact fun h => nomatch h
  · rw [hstate]
    intro h
    rcases hstop h with h | h
    · exact hs.stopping h
    · exact Or.inl h

/-- The receive thread that has the lock has told the client so. -/
theorem Phase.reconnecting (hs : Phase s) (hmux : s.handler.hasMux) :
    s.client.state = .reconnecting := by
  have hallows := hs.state
  rw [hmux] at hallows
  rcases (hs.mux hmux).1 with hmain | hmain <;> rw [hmain] at hallows <;> exact hallows

/-- Another thread goes on: the receive thread stays where it is. -/
theorem Phase.stay (hs : Phase s) (hmain : t.main = s.main) (hhandler : t.handler = s.handler)
    (hcall : t.call.isSome → s.call.isSome) (hstate : t.client.state = s.client.state)
    (hmqtt : t.client.mqtt.isSome = s.client.mqtt.isSome) : Phase t where
  state := by
    rw [hmain, hhandler, hstate]
    exact hs.state
  early := by
    rw [hmain, hhandler]
    exact hs.early
  mux := by
    rw [hmain, hhandler]
    exact fun h => ⟨(hs.mux h).1, eq_none hmqtt (hs.mux h).2⟩
  call := by
    rw [hmain, hstate]
    exact fun h => hs.call (hcall h)
  unopened := by
    rw [hmain]
    exact fun h => eq_none hmqtt (hs.unopened h)
  connected := by
    rw [hmain, hstate, hmqtt]
    exact hs.connected
  uses := by
    rw [hhandler, hmqtt]
    exact hs.uses
  late := by
    rw [hmain, hhandler]
    exact hs.late
  stopping := by
    rw [hhandler, hstate]
    exact hs.stopping

/-- …from one plain place to another. -/
theorem Phase.plain (hs : Phase s) (pc : HandlerPc γ κ) (hhandler : t.handler = pc)
    (hmain : t.main = s.main) (hcall : t.call = s.call) (hstate : t.client.state = s.client.state)
    (hmqtt : t.client.mqtt.isSome = s.client.mqtt.isSome) (hpc : s.handler.plain)
    (hpc' : pc.plain) (huse : pc.usesMqtt = false) : Phase t := by
  refine hs.next pc hhandler hmain (by rw [hcall]; exact id) hstate hmqtt
    (HandlerPc.alive_of_plain hpc) (HandlerPc.hasMux_of_plain hpc)
    (HandlerPc.hasMux_of_plain hpc') (fun h => ?_) (fun h => ?_)
  · rw [huse] at h
    cases h
  · rw [HandlerPc.stopping_of_plain hpc'] at h
    cases h

/-- The connection is found gone by whoever has the lock and sees the client CONNECTED. -/
theorem Phase.breaks (hs : Phase s) (hstate : s.client.state = .connected)
    (hcreated : s.main ≠ .created) (hmain : t.main = s.main) (hhandler : t.handler = s.handler)
    (hcall : t.call = none) (hstate' : t.client.state = .broken)
    (hmqtt : t.client.mqtt.isSome = s.client.mqtt.isSome) : Phase t := by
  have hsome := hs.connected hstate hcreated
  obtain ⟨hallows, hearly, hmux, -, hunopened, hconnected, huses, hlate, hstopping⟩ := hs
  have hfree : s.handler.hasMux = false := by
    by_contra h
    rw [(hmux (by simpa using h)).2] at hsome
    cases hsome
  constructor
  · rw [hmain, hhandler, hstate', hfree]
    rw [hstate, hfree] at hallows
    revert hallows hcreated
    cases s.main <;> simp [MainPc.Allows]
  · rw [hmain, hhandler]
    exact hearly
  · rw [hhandler, hfree]
    exact fun h => nomatch h
  · simp [hcall]
  · rw [hmain]
    exact fun h => eq_none hmqtt (hunopened h)
  · simp [hstate']
  · rw [hmqtt]
    exact fun _ => hsome
  · rw [hmain, hhandler]
    exact hlate
  · rw [hhandler]
    intro h
    rcases hstopping h with h | h <;> rw [hstate] at h <;> cases h

/-- A request is under way in a client CONNECTED only. -/
theorem Phase.call_none (hs : Phase s) (hstate : s.client.state ≠ .connected ∨ s.main = .created) :
    s.call = none := by
  by_contra h
  obtain ⟨hconnected, hcreated⟩ := hs.call (Option.isSome_iff_ne_none.mpr h)
  rcases hstate with hstate | hmain
  · exact hstate hconnected
  · exact hcreated hmain

/-- Who is alive in a client that is not told to stop runs. -/
theorem Phase.main_running (hs : Phase s) (halive : s.handler.alive)
    (hstate : s.client.state ≠ .deleting) : s.main = .running ∨ s.main = .disconnect := by
  obtain ⟨hallows, hearly, -, -, -, -, -, hlate, -⟩ := hs
  revert hallows hearly hlate
  cases s.main <;> simp only [MainPc.Allows, MainPc.early, MainPc.late, reduceCtorEq, or_true,
    true_or, false_or, implies_true, true_implies]
  case join => exact fun h => absurd h hstate
  case close | delete | deleted =>
    intro hallows hearly hlate
    rw [hlate] at halive
    cases halive
  all_goals
    intro hallows hearly
    rw [hearly] at halive
    cases halive

/-- There is no receive thread yet, and no request. -/
theorem Phase.of_absent (hhandler : t.handler = .absent) (hcall : t.call = none)
    (hstate : t.main.Allows false t.client.state)
    (hunopened : t.main = .created ∨ t.main = .connecting → t.client.mqtt = none)
    (hconnected : t.client.state = .connected → t.client.mqtt.isSome) : Phase t := by
  constructor
  case state =>
    rw [hhandler]
    exact hstate
  case call => simp [hcall]
  case unopened => exact hunopened
  case connected => exact fun h _ => hconnected h
  all_goals simp [hhandler, HandlerPc.hasMux, HandlerPc.usesMqtt, HandlerPc.alive,
    HandlerPc.stopping]

/-- The client runs, and is not told to stop. -/
theorem Phase.of_running (hmain : t.main = .running ∨ t.main = .disconnect)
    (hstate : if t.handler.hasMux then t.client.state = .reconnecting ∧ t.client.mqtt = none
      else t.client.state = .connected ∨ t.client.state = .broken)
    (hcall : t.call.isSome → t.client.state = .connected)
    (hconnected : t.client.state = .connected → t.client.mqtt.isSome)
    (huses : t.handler.usesMqtt → t.client.mqtt.isSome) (hstop : t.handler.stopping = false) :
    Phase t := by
  have hcreated : t.main ≠ .created := by rcases hmain with h | h <;> simp [h]
  constructor
  case state =>
    rcases hmain with h | h <;> rw [h] <;> unfold MainPc.Allows <;> split_ifs at hstate ⊢
    exacts [hstate.1, hstate, hstate.1, hstate]
  case mux =>
    intro hmux
    rw [if_pos hmux] at hstate
    exact ⟨hmain, hstate.2⟩
  case call => exact fun h => ⟨hcall h, hcreated⟩
  case connected => exact fun h _ => hconnected h
  case uses => exact huses
  case stopping => simp [hstop]
  all_goals rcases hmain with h | h <;> simp [h, MainPc.early, MainPc.late]

/-- The client is told to stop. -/
theorem Phase.of_stopping (hmain : t.main = .join ∨ t.main.late) (hcall : t.call = none)
    (hmux : t.handler.hasMux = false) (hstate : t.main.Allows false t.client.state)
    (huses : t.handler.usesMqtt → t.client.mqtt.isSome)
    (hdead : t.main.late → t.handler.alive = false) : Phase t := by
  have hstopping : t.client.state = .deleting ∨ t.client.state = .deleted := by
    revert hmain hstate
    cases t.main <;> simp [MainPc.late, MainPc.Allows] <;> intro h <;> simp [h]
  constructor
  case state =>
    rw [hmux]
    exact hstate
  case mux => simp [hmux]
  case call => simp [hcall]
  case connected => rcases hstopping with h | h <;> simp [h]
  case uses => exact huses
  case late => exact hdead
  case stopping => exact fun _ => hstopping
  all_goals
    revert hmain
    cases t.main <;> simp [MainPc.early, MainPc.late]

/-- …and the receive thread has returned. -/
theorem Phase.of_late (hs : Phase s) (hstate : s.client.state = .deleting)
    (hdead : s.handler.alive = false) (hmain : t.main.late) (hhandler : t.handler = s.handler)
    (hcall : t.call = s.call) (hmqtt : t.client.mqtt = s.client.mqtt)
    (hallows : t.main.Allows false t.client.state) : Phase t := by
  have hmux : s.handler.hasMux = false := by
    by_contra h
    have hreconnecting := hs.reconnecting (by simpa using h)
    rw [hstate] at hreconnecting
    cases hreconnecting
  refine .of_stopping (Or.inr hmain) ?_ (by rw [hhandler, hmux]) hallows ?_ ?_
  · rw [hcall]
    exact hs.call_none (Or.inl (by simp [hstate]))
  · rw [hhandler, hmqtt]
    exact hs.uses
  · rw [hhandler]
    exact fun _ => hdead

theorem Phase.step (hs : Phase s) (h : Effect params s a t) : Phase t := by
  have hallows := hs.state
  cases h with
  | idle => exact hs
  | created hmain =>
    exact .of_absent (hs.early (by rw [hmain]; rfl)) (hs.call_none (Or.inr hmain)) rfl
      (fun _ => hs.unopened (Or.inl hmain)) (fun h => by cases h)
  | connected hmain mqtt links h =>
    rw [hmain] at hallows
    have hstate : s.client.state = .connecting := hallows
    exact .of_absent (hs.early (by rw [hmain]; rfl)) (hs.call_none (Or.inl (by simp [hstate])))
      (Or.inl rfl) (fun h => by rcases h with h | h <;> cases h) (fun _ => rfl)
  | unconnected hmain ret links h =>
    rw [hmain] at hallows
    have hstate : s.client.state = .connecting := hallows
    exact .of_absent (hs.early (by rw [hmain]; rfl)) (hs.call_none (Or.inl (by simp [hstate])))
      (Or.inr rfl) (fun h => by rcases h with h | h <;> cases h) (fun h => by cases h)
  | started hmain =>
    rw [hmain] at hallows
    exact .of_running (Or.inl rfl) hallows (fun h => (hs.call h).1)
      (fun h => hs.connected h (by simp [hmain])) (fun h => by cases h) rfl
  | disconnect hmain =>
    rcases hmain with hmain | hmain <;> rw [hmain] at hallows
    · have hhandler := hs.early (by rw [hmain]; rfl)
      exact .of_running (Or.inr rfl) (by rw [hhandler]; exact hallows) (fun h => (hs.call h).1)
        (fun h => hs.connected h (by simp [hmain])) hs.uses (by rw [hhandler]; rfl)
    · exact { hs with
        state := hallows
        early := fun h => by cases h
        mux := fun h => ⟨Or.inr rfl, (hs.mux h).2⟩
        call := fun h => ⟨(hs.call h).1, by simp⟩
        unopened := fun h => by rcases h with h | h <;> cases h
        connected := fun h _ => hs.connected h (by simp [hmain])
        late := fun h => by cases h }
  | deleting hmain hfree =>
    exact .of_stopping (Or.inl rfl) (Option.isNone_iff_eq_none.mp hfree.1) hfree.2 rfl hs.uses
      (fun h => by cases h)
  | joined hmain hdead =>
    rw [hmain] at hallows
    exact hs.of_late hallows hdead rfl rfl rfl rfl hallows
  | unopened hmain hmqtt =>
    rw [hmain] at hallows
    exact hs.of_late hallows (hs.late (by rw [hmain]; rfl)) rfl rfl rfl rfl hallows
  | closed hmain mqtt hmqtt ret links h =>
    rw [hmain] at hallows
    exact hs.of_late hallows (hs.late (by rw [hmain]; rfl)) rfl rfl rfl rfl hallows
  | deleted hmain =>
    rw [hmain] at hallows
    exact hs.of_late hallows (hs.late (by rw [hmain]; rfl)) rfl rfl rfl rfl rfl
  | enter call hfree hstate hmqtt hpc =>
    have hcreated : s.main ≠ .created := fun hmain => by
      rw [hs.unopened (Or.inl hmain)] at hmqtt
      cases hmqtt
    exact { hs with call := fun _ => ⟨hstate, hcreated⟩ }
  | full call hcall => exact hs.stay rfl rfl (by simp) rfl rfl
  | counted call call' hcall => exact hs.stay rfl rfl (by simp [hcall]) rfl rfl
  | added call call' hcall now record qos hqos h => exact hs.stay rfl rfl (by simp [hcall]) rfl rfl
  | requested call hcall mqtt mqtt' hmqtt hsock ret links h =>
    obtain ⟨hstate, hcreated⟩ := hs.call (by simp [hcall])
    unfold mqttAsyncSent
    split_ifs with hret
    · exact hs.breaks hstate hcreated rfl rfl rfl rfl (by simp [mqttAsyncStateChange, hmqtt])
    · exact hs.stay rfl rfl (by simp) rfl (by simp [hmqtt])
  | moved pc threadId ping h =>
    obtain ⟨halive, hmux, hmux'⟩ := h.alive
    refine hs.next pc rfl rfl id rfl rfl halive hmux hmux' h.uses fun hstop => ?_
    rcases h.stopping hstop with h | h | h
    · exact Or.inl h
    · exact Or.inr h
    · exact absurd h hs.enabled
  | received mqtt hmqtt answer hpc =>
    cases answer with
    | failed ret hret taken =>
      refine hs.plain (if ret = errTr50TcpTimeout then .expired else .recvFailed) rfl rfl rfl rfl
        (by simp [recv, hmqtt]) (by rw [hpc]; rfl) ?_ ?_ <;> split_ifs <;> rfl
    | packet data hdata now =>
      exact hs.next (.process data) rfl rfl id rfl (by simp [recv, hmqtt]) (by rw [hpc]; rfl)
        (by rw [hpc]; rfl) rfl (fun _ => Or.inl (by rw [hpc]; rfl)) (fun h => by cases h)
  | broke error why pc ping hfree hpc hpc' huse =>
    have hbroken : Phase (s.broken error why) := by
      unfold broken mqttAsyncBreak
      split_ifs with hstate
      · exact hs.breaks hstate (hs.main_ne (HandlerPc.alive_of_plain hpc)) rfl rfl
          (Option.isNone_iff_eq_none.mp hfree.1) rfl rfl
      · exact hs
    rcases hpc' with hpc' | rfl
    · exact hbroken.plain pc rfl rfl rfl rfl rfl hpc hpc' huse
    · exact hbroken.next (.clearEntry false) rfl rfl id rfl rfl (HandlerPc.alive_of_plain hpc)
        (HandlerPc.hasMux_of_plain hpc) rfl (fun h => by cases h) (fun h => by cases h)
  | sent mqtt mqtt' hmqtt hsock links h pc ping hpc hpc' huse =>
    exact hs.plain pc rfl rfl rfl rfl (by simp [hmqtt]) hpc hpc' huse
  | signalled data hpc msgId r ret qos h =>
    exact hs.next (.signalCallback r) rfl rfl id rfl rfl (by rw [hpc]; rfl) (by rw [hpc]; rfl) rfl
      (fun h => by cases h) (fun h => by cases h)
  | invoked r status pc h =>
    obtain ⟨halive, hmux, hmux', huse, hstop⟩ := h.alive
    exact hs.next pc rfl rfl id rfl rfl halive hmux hmux' (fun h => by rw [huse] at h; cases h)
      (fun h => Or.inl (hstop h))
  | scanned now found qos pc h hpc hpc' huse =>
    exact hs.plain pc rfl rfl rfl rfl rfl hpc hpc' huse
  | cleared last i hpc r qos h =>
    exact hs.next (.clearCallback last r i) rfl rfl id rfl rfl (by rw [hpc]; rfl) (by rw [hpc]; rfl)
      rfl (fun h => by cases h) (fun h => Or.inl (by rw [hpc]; exact h))
  | reopened total hpc hfree hstate links h =>
    have hmain := hs.main_running (by rw [hpc]; rfl) (by simp [hstate])
    have hcall : s.call = none := Option.isNone_iff_eq_none.mp hfree.1
    exact .of_running hmain ⟨rfl, rfl⟩ (fun h => by simp [report, goto, hcall] at h)
      (fun h => by cases h) (fun h => by cases h) rfl
  | reconnected total hpc mqtt links h =>
    obtain ⟨hmain, -⟩ := hs.mux (by rw [hpc]; rfl)
    exact .of_running hmain (Or.inl rfl) (fun _ => rfl) (fun _ => rfl) (fun h => by cases h) rfl
  | unreconnected total hpc ret links h =>
    have hmux : s.handler.hasMux := by rw [hpc]; rfl
    obtain ⟨hmain, -⟩ := hs.mux hmux
    have hcall := hs.call_none (Or.inl (by simp [hs.reconnecting hmux]))
    exact .of_running hmain (Or.inr rfl) (fun h => by simp [report, goto, hcall] at h)
      (fun h => by cases h) (fun h => by cases h) rfl

theorem phase_reach (h : Reach (AsyncSystem.step params) (fun _ _ => True) init s) : Phase s :=
  h.invariant phase_init fun _ _ _ hs _ hstep => hs.step (step_effect hstep)

/-! ## Reports -/

/-- The state last reported. -/
def reported (s : AsyncSystem γ κ) : MqttAsyncState :=
  if s.main = .created then .created else s.client.state

/-- Whoever has not changed the state has not reported one. -/
def Quiet (s t : AsyncSystem γ κ) : Prop :=
  t.client.reports = s.client.reports ∧ t.reported = s.reported

/-- What is reported is the state before and after. -/
def Reports (s t : AsyncSystem γ κ) : Prop :=
  s.reported.Edge t.reported ∧ ∃ error why,
    t.client.reports = s.client.reports ++ [⟨s.reported, t.reported, error, why⟩]

theorem reported_of_ne (h : s.main ≠ .created) : s.reported = s.client.state := if_neg h

/-- Nobody changes the state behind the back of the one who has tested it. -/
theorem Reports.of {oldState newState : MqttAsyncState} (hold : s.reported = oldState)
    (hedge : oldState.Edge newState) (hmain : t.main ≠ .created)
    (hstate : t.client.state = newState) (error : ℤ) (why : String)
    (hreports : t.client.reports = s.client.reports ++ [⟨oldState, newState, error, why⟩]) :
    Reports s t := by
  subst hold hstate
  unfold Reports
  rw [reported_of_ne hmain]
  exact ⟨hedge, error, why, hreports⟩

/-- **Every step that changes the state reports it**, and along an edge. -/
theorem Phase.reports (hs : Phase s) (h : Effect params s a t) : Quiet s t ∨ Reports s t := by
  have hallows := hs.state
  cases h with
  | created hmain =>
    exact Or.inr (.of (by simp [reported, hmain]) .created (by simp) rfl _ _ rfl)
  | connected hmain mqtt links h =>
    rw [hmain] at hallows
    have hold : s.reported = .connecting := (reported_of_ne (by simp [hmain])).trans hallows
    exact Or.inr (.of hold .connected (by simp [report]) rfl _ _ rfl)
  | unconnected hmain ret links h =>
    rw [hmain] at hallows
    have hold : s.reported = .connecting := (reported_of_ne (by simp [hmain])).trans hallows
    exact Or.inr (.of hold .unconnected (by simp [report]) rfl _ _ rfl)
  | started hmain => exact Or.inl ⟨rfl, by simp [reported, hmain]⟩
  | disconnect hmain =>
    exact Or.inl ⟨rfl, by rcases hmain with hmain | hmain <;> simp [reported, hmain]⟩
  | deleting hmain hfree =>
    rw [hmain, hfree.2] at hallows
    have hne : s.main ≠ .created := by simp [hmain]
    rcases hallows with hstate | hstate
    · exact Or.inr (.of ((reported_of_ne hne).trans hstate) .stop (by simp) rfl 0
        "MQTT Client disconnecting..." (by simp [report, mqttAsyncStateChange, hstate]))
    · exact Or.inr (.of ((reported_of_ne hne).trans hstate) .stopBroken (by simp) rfl 0
        "MQTT Client disconnecting..." (by simp [report, mqttAsyncStateChange, hstate]))
  | joined hmain hdead => exact Or.inl ⟨rfl, by simp [reported, hmain]⟩
  | unopened hmain hmqtt => exact Or.inl ⟨rfl, by simp [reported, hmain]⟩
  | closed hmain mqtt hmqtt ret links h => exact Or.inl ⟨rfl, by simp [reported, hmain]⟩
  | deleted hmain =>
    rw [hmain] at hallows
    have hstate : s.client.state = .deleting := hallows
    exact Or.inr (.of ((reported_of_ne (by simp [hmain])).trans hstate) .deleted (by simp) rfl 0
      "MQTT Client disconnected." (by simp [report, mqttAsyncStateChange, hstate]))
  | requested call hcall mqtt mqtt' hmqtt hsock ret links h =>
    obtain ⟨hstate, hne⟩ := hs.call (by simp [hcall])
    unfold mqttAsyncSent
    split_ifs with hret
    · exact Or.inr (.of ((reported_of_ne hne).trans hstate) .broken hne rfl _ _ rfl)
    · exact Or.inl ⟨rfl, rfl⟩
  | received mqtt hmqtt answer hpc => cases answer <;> exact Or.inl ⟨rfl, rfl⟩
  | broke error why pc ping hfree hpc hpc' huse =>
    unfold broken mqttAsyncBreak
    split_ifs with hstate
    · have hne : s.main ≠ .created := hs.main_ne (HandlerPc.alive_of_plain hpc)
      exact Or.inr (.of ((reported_of_ne hne).trans hstate) .broken hne rfl _ _ rfl)
    · exact Or.inl ⟨rfl, rfl⟩
  | reopened total hpc hfree hstate links h =>
    have hne : s.main ≠ .created := hs.main_ne (by rw [hpc]; rfl)
    exact Or.inr (.of ((reported_of_ne hne).trans hstate) .reconnecting hne rfl _ _ rfl)
  | reconnected total hpc mqtt links h =>
    have hne : s.main ≠ .created := hs.main_ne (by rw [hpc]; rfl)
    have hstate := hs.reconnecting (by rw [hpc]; rfl)
    exact Or.inr (.of ((reported_of_ne hne).trans hstate) .reconnected hne rfl _ _ rfl)
  | unreconnected total hpc ret links h =>
    have hne : s.main ≠ .created := hs.main_ne (by rw [hpc]; rfl)
    have hstate := hs.reconnecting (by rw [hpc]; rfl)
    exact Or.inr (.of ((reported_of_ne hne).trans hstate) .unreconnected hne rfl _ _ rfl)
  | _ => exact Or.inl ⟨rfl, rfl⟩

/-- What has been reported is a walk to the state last reported. -/
def Walked (s : AsyncSystem γ κ) : Prop := Walk s.client.reports s.reported

theorem Walked.step (hwalk : Walked s) (hs : Phase s) (h : Effect params s a t) : Walked t := by
  unfold Walked at hwalk ⊢
  rcases hs.reports h with ⟨hreports, hstate⟩ | ⟨hedge, error, why, hreports⟩
  · rw [hreports, hstate]
    exact hwalk
  · rw [hreports]
    exact hwalk.report hedge error why

/-- A client that is stopping, or has stopped. -/
def Stopping (s : AsyncSystem γ κ) : Prop := s.reported = .deleting ∨ s.reported = .deleted

theorem Stopping.step (hstop : Stopping s) (hs : Phase s) (h : Effect params s a t) :
    Stopping t := by
  unfold Stopping at hstop ⊢
  rcases hs.reports h with ⟨-, hstate⟩ | ⟨hedge, -⟩
  · rwa [hstate]
  · generalize t.reported = state at hedge ⊢
    rcases hstop with hstop | hstop <;> rw [hstop] at hedge <;> cases hedge
    exact Or.inr rfl

/-- **The states reported are a chain** along the edges, from CREATED to the state the client is in,
and once it is DELETING it stays so until it is DELETED. -/
theorem stateChange_chain
    (h : Reach (AsyncSystem.step params) (fun _ _ => True) init s) :
    (∀ r ∈ s.client.reports.head?, r.oldState = .created)
    ∧ (s.client.reports.IsChain fun r r' => r'.oldState = r.newState)
    ∧ (∀ r ∈ s.client.reports, r.oldState.Edge r.newState)
    ∧ (∀ r ∈ s.client.reports.getLast?, r.newState = s.client.state)
    ∧ (s.client.state = .deleting → ∀ t, Reach (AsyncSystem.step params) (fun _ _ => True) s t →
        t.client.state = .deleting ∨ t.client.state = .deleted) := by
  have hs := phase_reach h
  have hwalk : Walked s := by
    refine And.right (h.invariant (I := fun s => Phase s ∧ Walked s) ⟨phase_init, .start⟩ ?_)
    rintro s a t ⟨hs, hwalk⟩ - hstep
    exact ⟨hs.step (step_effect hstep), hwalk.step hs (step_effect hstep)⟩
  refine ⟨hwalk.first, hwalk.isChain, hwalk.edge, fun r hr => ?_, fun hstate t ht => ?_⟩
  · have hne : s.main ≠ .created := fun hmain => by
      have hedge := hwalk.edge r (List.mem_of_mem_getLast? hr)
      rw [hwalk.last r hr, reported, if_pos hmain] at hedge
      generalize r.oldState = oldState at hedge
      cases hedge
    rw [hwalk.last r hr, reported_of_ne hne]
  · have hne : s.main ≠ .created := fun hmain => by
      have hallows := hs.state
      rw [hmain, hstate] at hallows
      cases hallows
    have hstop : Phase t ∧ Stopping t := by
      refine ht.invariant (I := fun s => Phase s ∧ Stopping s)
        ⟨hs, Or.inl ((reported_of_ne hne).trans hstate)⟩ ?_
      rintro s a t ⟨hs, hstop⟩ - hstep
      exact ⟨hs.step (step_effect hstep), hstop.step hs (step_effect hstep)⟩
    obtain ⟨-, hstop⟩ := hstop
    have hne : t.main ≠ .created := fun hmain => by
      rcases hstop with h | h <;> rw [reported, if_pos hmain] at h <;> cases h
    rwa [Stopping, reported_of_ne hne] at hstop

end AsyncSystem

/-! ### A session

One connection, one publish that is acknowledged, and the end. -/

/-- A client without a name. -/
def MqttConnectParams.anonymous : MqttConnectParams :=
  ⟨[], none, none, 60, false, by decide, by decide⟩

/-- A packet with a one-byte length field. -/
def RecvAnswer.short (b0 len : UInt8) (body : List UInt8)
    (h : len.toNat < 128 ∧ body.length = len.toNat) : RecvAnswer :=
  .packet (b0 :: ([len] ++ body)) ⟨b0, [len], body, rfl, h.2 ▸ .last h.1, by simp⟩ 0

/-- The CONNACK of a connection that is accepted. -/
def ConnectEnv.accepted : ConnectEnv :=
  ⟨true, 0, 0, ⟨true, 0⟩, .short 0x20 2 [0, 0] ⟨by decide, rfl⟩⟩

def MainInput.plain : MainInput := ⟨.accepted, 0, ⟨true, 0⟩⟩

/-- A receive thread that gets the PUBACK with the id `0`. -/
def HandlerInput.acknowledged : HandlerInput :=
  ⟨some 1, .short 0x40 2 [0, 0] ⟨by decide, rfl⟩, ⟨⟨true, 0⟩, fun _ => true⟩, 0, .accepted, true⟩

def session : List (AsyncAction Unit Unit) :=
  List.replicate 3 (AsyncAction.main .plain)
    ++ [AsyncAction.handler .acknowledged,
      .request ⟨⟨true, 0⟩, some 2, 0⟩ (.publishQos1 [97] [98] 0 (some ()) none), .call, .call]
    ++ List.replicate 8 (AsyncAction.handler .acknowledged)
    ++ List.replicate 2 (AsyncAction.main .plain)
    ++ List.replicate 3 (AsyncAction.handler .acknowledged)
    ++ List.replicate 3 (AsyncAction.main .plain)

namespace AsyncSystem

theorem stateChange_chain_session :
    ∃ s, session.foldlM (AsyncSystem.step .anonymous) init = some s
      ∧ s.client.reports.map (fun r => (r.oldState, r.newState))
        = [(.created, .connecting), (.connecting, .connected), (.connected, .deleting),
          (.deleting, .deleted)]
      ∧ s.client.reports.IsChain fun r r' => r'.oldState = r.newState := by
  have heval : ((session.foldlM (AsyncSystem.step .anonymous) init).map fun s =>
      s.client.reports.map fun r => (r.oldState, r.newState))
      = some [(.created, .connecting), (.connecting, .connected), (.connected, .deleting),
        (.deleting, .deleted)] := by decide +kernel
  obtain ⟨s, hs, hreports⟩ := Option.map_eq_some_iff.mp heval
  exact ⟨s, hs, hreports, (stateChange_chain (Reach.of_foldlM _ (by simp) hs)).2.1⟩

end AsyncSystem

end Tr50
