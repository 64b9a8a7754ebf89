import Tr50.Machinery.Runs
import Tr50.Util.Error
import Tr50.Util.Memory

/-!
# Api/Handle — who may use the asynchronous client

`tr50_start2` and `tr50_stop` (`src/tr50.c`), and the statistics functions that look at
`client->mqtt` (`src/tr50.stats.c`), called by any number of threads.  A handle is live from the
`_memory_malloc` of `mqtt_async_connect` until `mqtt_async_disconnect` frees it (`live`).

The field is to name a live handle wherever it is passed on, and to be NULL while the client is
stopped (`Named`).  Nothing takes the handle back out of the field where `_thread_create` fails, and
the statistics functions look at the field without `client->mux`: `Orderly` is what remains.
-/

namespace Tr50

open Machinery

/-! ## Places -/

/-- `TR50_STATE_…` -/
inductive Tr50State
  | stopped | started
deriving DecidableEq, Repr

/-- Where `tr50_start2` stands. -/
inductive StartPc
  | lock
  /-- At `tr50_stats_clear_compression_ratio`, the state tested. -/
  | ratio
  /-- At `mqtt_async_connect`… -/
  | connect
  /-- …the handle being there, at `*async_client`… -/
  | publish (handle : ℕ)
  /-- …at `mqtt_connect`, and at the report of what became of it… -/
  | connecting (handle : ℕ)
  | report (handle : ℕ)
  /-- …at `_thread_create`… -/
  | thread (handle : ℕ)
  /-- …and, where that has failed, at `mqtt_async_disconnect`. -/
  | disconnect (handle : ℕ) (ret : ℤ)
  /-- `mqtt_async_connect` has failed. -/
  | failed (ret : ℤ)
deriving DecidableEq, Repr

/-- Where `tr50_stop` stands. -/
inductive StopPc
  | lock
  /-- At `mqtt_async_stats_byte_sent`, the state tested, and at `mqtt_async_stats_byte_recv`. -/
  | sent
  | recv (lastSent : ℤ)
  /-- Without the lock at `mqtt_async_disconnect`, and inside at its `_memory_free`. -/
  | disconnect (lastSent lastRecv : ℤ)
  | free (handle : Option ℕ) (lastSent lastRecv : ℤ)
  /-- At the lock again, and with it at `client->mqtt = NULL`. -/
  | relock (lastSent lastRecv : ℤ)
  | clear (lastSent lastRecv : ℤ)
  | finish (lastSent lastRecv : ℤ)
deriving DecidableEq, Repr

/-- `tr50_stats_byte_recv`, `tr50_stats_byte_sent`, `tr50_stats_reconnect_count` and
`tr50_stats_clear_send_recv`. -/
inductive StatsFn
  | byteRecv | byteSent | reconnectCount | clearSendRecv
deriving DecidableEq, Repr

/-- Where one of them stands. -/
inductive StatsPc
  /-- `tr50_stats_clear_send_recv` at the lock of the statistics. -/
  | lock
  /-- At `if (client->mqtt)`… -/
  | test
  /-- …and behind it, at the call that the handle is passed to. -/
  | pass
  /-- `tr50_stats_clear_send_recv` at the counters. -/
  | reset
deriving DecidableEq, Repr

/-- A call. -/
inductive Tr50Fn
  | start
  | stop
  | stats (fn : StatsFn)
deriving DecidableEq, Repr

/-- Where a thread stands. -/
inductive Tr50Pc
  /-- In none of the functions, the last one having returned `ret`. -/
  | idle (ret : ℤ)
  | start (pc : StartPc)
  | stop (pc : StopPc)
  | stats (fn : StatsFn) (pc : StatsPc)
deriving DecidableEq, Repr

/-- The first place of a call. -/
def Tr50Fn.entry : Tr50Fn → Tr50Pc
  | start => .start .lock
  | stop => .stop .lock
  | stats .clearSendRecv => .stats .clearSendRecv .lock
  | stats fn => .stats fn .test

namespace Tr50Pc

/-- The place has `client->mux`. -/
def hasMux : Tr50Pc → Bool
  | start .lock => false
  | start _ => true
  | stop .sent | stop (.recv _) | stop (.clear _ _) | stop (.finish _ _) => true
  | _ => false

/-- `tr50_start2` behind its test. -/
def starting : Tr50Pc → Bool
  | start .lock => false
  | start _ => true
  | _ => false

/-- `tr50_stop` behind its tests. -/
def stopping : Tr50Pc → Bool
  | stop .lock => false
  | stop _ => true
  | _ => false

/-- A statistics function has found a handle. -/
def uses : Tr50Pc → Bool
  | stats _ .pass => true
  | _ => false

/-- `tr50_stop` has freed the handle, and the field still names it. -/
def freed : Tr50Pc → Bool
  | stop (.relock _ _) | stop (.clear _ _) => true
  | _ => false

/-- At `_thread_create`… -/
def creates : Tr50Pc → Bool
  | start (.thread _) => true
  | _ => false

/-- …at the `_memory_free` of `tr50_stop`… -/
def frees : Tr50Pc → Bool
  | stop (.free _ _ _) => true
  | _ => false

/-- …and at the test of a statistics function. -/
def tests : Tr50Pc → Bool
  | stats _ .test => true
  | _ => false

/-- `client->mqtt` is passed on. -/
def passes : Tr50Pc → Bool
  | stop .sent | stop (.recv _) | stop (.disconnect _ _) => true
  | stats _ .pass => true
  | _ => false

end Tr50Pc

/-! ## The system -/

/-- The client, as far as these functions use it, and the handles. -/
structure HandleClient where
  mqtt : Option ℕ
  state : Tr50State
  isStopping : Bool
  totalSent : ℤ
  totalRecv : ℤ
  live : List ℕ
  nextHandle : ℕ
deriving DecidableEq, Repr

structure HandleSystem (τ : Type) where
  client : HandleClient
  /-- The owner of `client->mux`… -/
  mux : Option τ
  /-- …and of the lock of the statistics. -/
  statsMux : Option τ
  pc : τ → Tr50Pc

/-- What a step meets: the allocations of `mqtt_async_connect`, `mqtt_connect`, `_thread_create`,
and the count that a function of the asynchronous client returns. -/
structure HandleEnv where
  malloc : Bool
  mutexCreate : ℤ
  qosCreate : ℤ
  mqttConnect : ℤ
  threadCreate : ℤ
  count : ℤ

/-- `mqtt_async_connect` up to `*async_client`. -/
def mqttAsyncOpen (env : HandleEnv) : ℤ :=
  if ¬ env.malloc then errTr50Malloc
  else if env.mutexCreate ≠ 0 then env.mutexCreate
  else env.qosCreate

/-- A thread calls one of the functions, or goes on in it. -/
inductive HandleAction
  | call (fn : Tr50Fn)
  | go (env : HandleEnv)

namespace HandleSystem

variable {τ : Type}

def init : HandleSystem τ :=
  ⟨⟨none, .stopped, false, 0, 0, [], 0⟩, none, none, fun _ => .idle 0⟩

variable [DecidableEq τ]

/-- The thread `i` goes on at `pc`. -/
def goto (s : HandleSystem τ) (i : τ) (pc : Tr50Pc) : HandleSystem τ :=
  { s with pc := Function.update s.pc i pc }

variable (s : HandleSystem τ) (i : τ)

/-- `tr50_start2`, from one place to the next. -/
def tr50Start2 (env : HandleEnv) : StartPc → Option (HandleSystem τ)
  | .lock =>
      if s.mux.isSome then none
      else if s.client.state = .started then some (s.goto i (.idle errTr50AlreadyStarted))
      else some ({ s with mux := some i }.goto i (.start .ratio))
  | .ratio =>
      if s.statsMux.isSome then none
      else some ({ s with client.state := .started }.goto i (.start .connect))
  | .connect =>
      if mqttAsyncOpen env ≠ 0 then some (s.goto i (.start (.failed (mqttAsyncOpen env))))
      else some ({ s with
          client.live := s.client.nextHandle :: s.client.live
          client.nextHandle := s.client.nextHandle + 1 }.goto i
        (.start (.publish s.client.nextHandle)))
  | .publish handle =>
      some ({ s with client.mqtt := some handle }.goto i (.start (.connecting handle)))
  | .connecting handle =>
      let s := if env.mqttConnect ≠ 0 then { s with client.mqtt := some handle } else s
      some (s.goto i (.start (.report handle)))
  | .report handle =>
      if s.statsMux.isSome then none else some (s.goto i (.start (.thread handle)))
  | .thread handle =>
      if env.threadCreate ≠ 0 then
        some (s.goto i (.start (.disconnect handle env.threadCreate)))
      else some ({ s with mux := none }.goto i (.idle 0))
  | .disconnect handle ret =>
      some ({ s with client.live := s.client.live.erase handle }.goto i (.start (.failed ret)))
  | .failed ret => some ({ s with client.state := .stopped, mux := none }.goto i (.idle ret))

/-- `tr50_stop`. -/
def tr50Stop (env : HandleEnv) : StopPc → Option (HandleSystem τ)
  | .lock =>
      if s.mux.isSome then none
      else if s.client.state = .stopped then some (s.goto i (.idle errTr50AlreadyStopped))
      else if s.client.isStopping then some (s.goto i (.idle errTr50Stopping))
      else some ({ s with client.isStopping := true, mux := some i }.goto i (.stop .sent))
  | .sent => some (s.goto i (.stop (.recv (toInt32 env.count))))
  | .recv lastSent =>
      some ({ s with mux := none }.goto i (.stop (.disconnect lastSent (toInt32 env.count))))
  | .disconnect lastSent lastRecv =>
      some (s.goto i (.stop (.free s.client.mqtt lastSent lastRecv)))
  | .free handle lastSent lastRecv =>
      some ({ s with client.live := handle.elim s.client.live s.client.live.erase }.goto i
        (.stop (.relock lastSent lastRecv)))
  | .relock lastSent lastRecv =>
      if s.mux.isSome then none
      else some ({ s with mux := some i }.goto i (.stop (.clear lastSent lastRecv)))
  | .clear lastSent lastRecv =>
      some ({ s with client.mqtt := none }.goto i (.stop (.finish lastSent lastRecv)))
  | .finish lastSent lastRecv =>
      some ({ s with
          client.state := .stopped
          client.isStopping := false
          client.totalSent := s.client.totalSent + lastSent
          client.totalRecv := s.client.totalRecv + lastRecv
          mux := none }.goto i (.idle 0))

/-- What a statistics function returns, `count` being what it has been told of the handle. -/
def statsValue (fn : StatsFn) (count : ℤ) : ℤ :=
  match fn with
  | .byteRecv => s.client.totalRecv + count
  | .byteSent => s.client.totalSent + count
  | .reconnectCount => count
  | .clearSendRecv => 0

/-- Behind the test, or behind the call that the handle is passed to. -/
def statsNext (fn : StatsFn) (count : ℤ) : Tr50Pc :=
  if fn = .clearSendRecv then .stats fn .reset else .idle (toInt32 (s.statsValue fn count))

/-- The statistics functions. -/
def tr50Stats (env : HandleEnv) (fn : StatsFn) : StatsPc → Option (HandleSystem τ)
  | .lock =>
      if s.statsMux.isSome then none
      else some ({ s with statsMux := some i }.goto i (.stats fn .test))
  | .test => some (s.goto i (if s.client.mqtt.isSome then .stats fn .pass else s.statsNext fn 0))
  | .pass => some (s.goto i (s.statsNext fn env.count))
  | .reset =>
      some ({ s with client.totalSent := 0, client.totalRecv := 0, statsMux := none }.goto i
        (.idle 0))

def step (s : HandleSystem τ) (a : τ × HandleAction) : Option (HandleSystem τ) :=
  match s.pc a.1, a.2 with
  | .idle _, .call fn => some (s.goto a.1 fn.entry)
  | .idle _, .go _ => none
  | .start pc, .go env => s.tr50Start2 a.1 env pc
  | .stop pc, .go env => s.tr50Stop a.1 env pc
  | .stats fn pc, .go env => s.tr50Stats a.1 env fn pc
  | _, .call _ => none

/-! ## What is to hold -/

end HandleSystem

/-- The field names a live handle. -/
def HandleClient.Live (c : HandleClient) : Prop := ∃ handle ∈ c.live, c.mqtt = some handle

namespace HandleSystem

variable {τ : Type} {s t : HandleSystem τ} {i : τ}

/-- The field names a live handle wherever it is passed on, and is NULL while the client is
stopped. -/
def Named (s : HandleSystem τ) : Prop :=
  (∀ i, (s.pc i).passes → s.client.Live) ∧ (s.client.state = .stopped → s.client.mqtt = none)

/-- A thread can be created; a handle is freed only where no statistics function is about to pass it
on; and none looks at the field between that and `client->mqtt = NULL`. -/
def Orderly (s : HandleSystem τ) (a : τ × HandleAction) : Prop :=
  match a.2 with
  | .call _ => True
  | .go env =>
      ((s.pc a.1).creates → env.threadCreate = 0)
      ∧ ((s.pc a.1).frees → ∀ j, (s.pc j).uses = false)
      ∧ ((s.pc a.1).tests → ∀ j, (s.pc j).freed = false)

instance [Fintype τ] (s : HandleSystem τ) (a : τ × HandleAction) : Decidable (Orderly s a) :=
  match a with
  | (_, .call _) => .isTrue trivial
  | (_, .go _) => inferInstanceAs (Decidable (_ ∧ _ ∧ _))

/-! ## The invariant -/

/-- What a thread knows of the client where it stands. -/
def Placed (c : HandleClient) : Tr50Pc → Prop
  | .start .ratio => c.state = .stopped ∧ c.isStopping = false
  | .start .connect | .start (.failed _) =>
      c.state = .started ∧ c.isStopping = false ∧ c.mqtt = none
  | .start (.publish handle) =>
      c.state = .started ∧ c.isStopping = false ∧ c.mqtt = none ∧ handle ∈ c.live
  | .start (.connecting handle) | .start (.report handle) | .start (.thread handle) =>
      c.state = .started ∧ c.isStopping = false ∧ c.mqtt = some handle ∧ handle ∈ c.live
  | .start (.disconnect _ _) => False
  | .stop .sent | .stop (.recv _) | .stop (.disconnect _ _) =>
      c.state = .started ∧ c.isStopping ∧ c.Live
  | .stop (.free _ _ _) | .stop (.relock _ _) | .stop (.clear _ _) =>
      c.state = .started ∧ c.isStopping
  | .stop (.finish _ _) => c.state = .started ∧ c.isStopping ∧ c.mqtt = none
  | .stats _ .pass => c.Live
  | _ => True

section Placed

variable {c c' : HandleClient} {pc : Tr50Pc}

theorem Placed.stopping (h : Placed c pc) (hpc : pc.stopping) :
    c.state = .started ∧ c.isStopping := by
  cases pc with
  | stop pc => cases pc <;> first | exact ⟨h.1, h.2⟩ | exact ⟨h.1, h.2.1⟩ | cases hpc
  | _ => cases hpc

theorem Placed.starting (h : Placed c pc) (hpc : pc.starting) : c.isStopping = false := by
  cases pc with
  | start pc => cases pc <;> first | exact h.2 | exact h.2.1 | exact h.elim | cases hpc
  | _ => cases hpc

theorem Placed.uses (h : Placed c pc) (hpc : pc.uses) : c.Live := by
  cases pc with
  | stats fn pc => cases pc <;> first | exact h | cases hpc
  | _ => cases hpc

theorem Placed.passes (h : Placed c pc) (hpc : pc.passes) : c.Live := by
  cases pc with
  | stop pc => cases pc <;> first | exact h.2.2 | cases hpc
  | stats fn pc => cases pc <;> first | exact h | cases hpc
  | _ => cases hpc

theorem Placed.congr (h : Placed c pc) (hmqtt : c'.mqtt = c.mqtt) (hstate : c'.state = c.state)
    (hstop : c'.isStopping = c.isStopping) (hlive : c'.live = c.live) : Placed c' pc := by
  obtain ⟨mqtt, state, isStopping, _, _, live, _⟩ := c
  obtain ⟨mqtt', state', isStopping', _, _, live', _⟩ := c'
  dsimp only at hmqtt hstate hstop hlive
  subst hmqtt hstate hstop hlive
  exact h

/-- Who is in none of these places knows nothing. -/
theorem placed_of_outside (hstart : pc.starting = false) (hstop : pc.stopping = false)
    (huses : pc.uses → c.Live) : Placed c pc := by
  cases pc with
  | idle ret => trivial
  | start pc => cases pc <;> trivial
  | stop pc => cases pc <;> trivial
  | stats fn pc => cases pc <;> first | trivial | exact huses rfl

end Placed

structure HandleInv (s : HandleSystem τ) : Prop where
  mux : ∀ i, (s.pc i).hasMux → s.mux = some i
  placed : ∀ i, Placed s.client (s.pc i)
  one : ∀ i j, (s.pc i).stopping → (s.pc j).stopping → i = j
  quiet : ∀ i j, (s.pc i).freed → (s.pc j).uses = false
  stopped : s.client.state = .stopped → s.client.mqtt = none ∧ s.client.isStopping = false
  running : s.client.state = .started → s.client.isStopping = false →
    (∀ i, (s.pc i).starting = false) → s.client.Live
  field : s.client.mqtt ≠ none → (∀ i, (s.pc i).freed = false) → s.client.Live

theorem handleInv_init : HandleInv (init : HandleSystem τ) where
  mux := fun i h => by cases h
  placed := fun i => trivial
  one := fun i j h => by cases h
  quiet := fun i j h => by cases h
  stopped := fun _ => ⟨rfl, rfl⟩
  running := fun h => by cases h
  field := fun h => absurd rfl h

theorem HandleInv.named (hs : HandleInv s) : Named s :=
  ⟨fun i hi => (hs.placed i).passes hi, fun h => (hs.stopped h).1⟩

theorem hasMux_of_starting {pc : Tr50Pc} (h : pc.starting) : pc.hasMux := by
  cases pc with
  | start pc => cases pc <;> first | rfl | cases h
  | _ => cases h

theorem stopping_of_freed {pc : Tr50Pc} (h : pc.freed) : pc.stopping := by
  cases pc with
  | stop pc => cases pc <;> first | rfl | cases h
  | _ => cases h

/-- Nobody else has the lock. -/
theorem HandleInv.alone (hs : HandleInv s) (hmux : s.mux = none ∨ s.mux = some i) {j : τ}
    (hj : j ≠ i) : (s.pc j).hasMux = false := by
  by_contra h
  have hmux' := hs.mux j (by simpa using h)
  rcases hmux with hmux | hmux <;> rw [hmux] at hmux'
  · cases hmux'
  · exact hj (Option.some.inj hmux').symm

theorem starting_of_not_hasMux {pc : Tr50Pc} (h : pc.hasMux = false) : pc.starting = false := by
  by_contra hstart
  rw [hasMux_of_starting (by simpa using hstart)] at h
  cases h

variable [DecidableEq τ]

/-- What the thread `i` has to show when it goes on at `pc`. -/
structure Goes (s : HandleSystem τ) (i : τ) (c : HandleClient) (owner : Option τ) (pc : Tr50Pc) :
    Prop where
  mux : pc.hasMux → owner = some i
  muxOthers : ∀ j ≠ i, s.mux = some j → owner = some j
  placed : Placed c pc
  placedOthers : ∀ j ≠ i, Placed c (s.pc j)
  one : pc.stopping → ∀ j ≠ i, (s.pc j).stopping = false
  freed : pc.freed → ∀ j ≠ i, (s.pc j).uses = false
  uses : pc.uses → ∀ j ≠ i, (s.pc j).freed = false
  stopped : c.state = .stopped → c.mqtt = none ∧ c.isStopping = false
  running : c.state = .started → c.isStopping = false → pc.starting = false →
    (∀ j ≠ i, (s.pc j).starting = false) → c.Live
  field : c.mqtt ≠ none → pc.freed = false → (∀ j ≠ i, (s.pc j).freed = false) → c.Live

theorem HandleInv.goes (hs : HandleInv s) {c : HandleClient} {mux statsMux : Option τ}
    {pc : Tr50Pc} (h : Goes s i c mux pc) :
    HandleInv ⟨c, mux, statsMux, Function.update s.pc i pc⟩ := by
  have hself : Function.update s.pc i pc i = pc := Function.update_self ..
  have hother : ∀ j, j ≠ i → Function.update s.pc i pc j = s.pc j := fun j hj =>
    Function.update_of_ne hj ..
  constructor
  · intro j hj
    by_cases hji : j = i
    · subst hji
      exact h.mux (hself ▸ hj)
    · exact h.muxOthers j hji (hs.mux j (hother j hji ▸ hj))
  · intro j
    by_cases hji : j = i
    · subst hji
      change Placed c (Function.update s.pc j pc j)
      rw [hself]
      exact h.placed
    · change Placed c (Function.update s.pc i pc j)
      rw [hother j hji]
      exact h.placedOthers j hji
  · intro j k hj hk
    dsimp only at hj hk
    by_cases hji : j = i <;> by_cases hki : k = i
    · rw [hji, hki]
    · subst hji
      rw [hself] at hj
      rw [hother k hki, h.one hj k hki] at hk
      cases hk
    · subst hki
      rw [hself] at hk
      rw [hother j hji, h.one hk j hji] at hj
      cases hj
    · rw [hother j hji] at hj
      rw [hother k hki] at hk
      exact hs.one j k hj hk
  · intro j k hj
    dsimp only at hj ⊢
    by_cases hji : j = i <;> by_cases hki : k = i
    · subst hji
      rw [hki, hself]
      rw [hself] at hj
      by_contra huses
      have hstop := stopping_of_freed hj
      cases pc <;> first | cases hstop | exact huses rfl
    · subst hji
      rw [hself] at hj
      rw [hother k hki]
      exact h.freed hj k hki
    · subst hki
      rw [hother j hji] at hj
      rw [hself]
      by_contra huses
      rw [h.uses (by simpa using huses) j hji] at hj
      cases hj
    · rw [hother j hji] at hj
      rw [hother k hki]
      exact hs.quiet j k hj
  · exact h.stopped
  · intro hstate hstop hstarting
    refine h.running hstate hstop ?_ fun j hj => ?_
    · have hi := hstarting i
      dsimp only at hi
      rwa [hself] at hi
    · have hj' := hstarting j
      dsimp only at hj'
      rwa [hother j hj] at hj'
  · intro hmqtt hfreed
    refine h.field hmqtt ?_ fun j hj => ?_
    · have hi := hfreed i
      dsimp only at hi
      rwa [hself] at hi
    · have hj' := hfreed j
      dsimp only at hj'
      rwa [hother j hj] at hj'

/-- A step inside `tr50_start2`: nobody else starts or stops. -/
theorem HandleInv.start (hs : HandleInv s) {pc pc' : Tr50Pc} (hi : s.pc i = pc)
    (hstarting : pc.starting) {c : HandleClient} {mux statsMux : Option τ}
    (hplaced : Placed c pc') (hlive : s.client.Live → c.Live)
    (hmux : pc'.hasMux → mux = some i) (hpc' : pc'.stopping = false ∧ pc'.uses = false)
    (hstopped : c.state = .stopped → c.mqtt = none ∧ c.isStopping = false)
    (hrunning : c.state = .started → pc'.starting = false → c.Live)
    (hfield : c.mqtt ≠ none → c.Live) :
    HandleInv ⟨c, mux, statsMux, Function.update s.pc i pc'⟩ := by
  subst hi
  have hmine := hs.mux i (hasMux_of_starting hstarting)
  have hstop := (hs.placed i).starting hstarting
  refine hs.goes ⟨hmux, fun j hj hown => ?_, hplaced, fun j hj => ?_, ?_, ?_, ?_, hstopped,
    (fun hstate _ hstart _ => hrunning hstate hstart), fun hmqtt _ _ => hfield hmqtt⟩
  · rw [hmine] at hown
    exact absurd (Option.some.inj hown).symm hj
  · refine placed_of_outside (starting_of_not_hasMux (hs.alone (Or.inr hmine) hj)) ?_
      fun huses => hlive ((hs.placed j).uses huses)
    by_contra h
    rw [((hs.placed j).stopping (by simpa using h)).2] at hstop
    cases hstop
  · rw [hpc'.1]
    exact fun h => nomatch h
  · intro h
    rw [stopping_of_freed h] at hpc'
    exact nomatch hpc'.1
  · rw [hpc'.2]
    exact fun h => nomatch h

/-- A step inside `tr50_stop`: nobody else starts or stops. -/
theorem HandleInv.stop (hs : HandleInv s) {pc pc' : Tr50Pc} (hi : s.pc i = pc)
    (hstopping : pc.stopping) {c : HandleClient} {mux statsMux : Option τ}
    (hplaced : Placed c pc') (huses : ∀ j ≠ i, (s.pc j).uses → c.Live)
    (hmux : pc'.hasMux → mux = some i) (hmuxOthers : ∀ j ≠ i, s.mux = some j → mux = some j)
    (hfreed : pc'.freed → ∀ j ≠ i, (s.pc j).uses = false) (hpc' : pc'.uses = false)
    (hstopped : c.state = .stopped → c.mqtt = none ∧ c.isStopping = false)
    (hrunning : c.state = .started → c.isStopping)
    (hfield : c.mqtt ≠ none → pc'.freed = false → c.Live) :
    HandleInv ⟨c, mux, statsMux, Function.update s.pc i pc'⟩ := by
  subst hi
  have hstop := ((hs.placed i).stopping hstopping).2
  have hone : ∀ j ≠ i, (s.pc j).stopping = false := by
    intro j hj
    by_contra h
    exact hj (hs.one j i (by simpa using h) hstopping)
  refine hs.goes ⟨hmux, hmuxOthers, hplaced, fun j hj => ?_, fun _ => hone, hfreed, ?_, hstopped,
    fun hstate hnot => ?_, fun hmqtt hpc _ => hfield hmqtt hpc⟩
  · refine placed_of_outside ?_ (hone j hj) (huses j hj)
    by_contra h
    rw [(hs.placed j).starting (by simpa using h)] at hstop
    cases hstop
  · rw [hpc']
    exact fun h => nomatch h
  · rw [hrunning hstate] at hnot
    cases hnot

/-- A step outside: the client stays as it is. -/
theorem HandleInv.stay (hs : HandleInv s) {pc pc' : Tr50Pc} (hi : s.pc i = pc)
    (hpc : pc.starting = false ∧ pc.freed = false) {c : HandleClient} {statsMux : Option τ}
    (hmqtt : c.mqtt = s.client.mqtt) (hstate : c.state = s.client.state)
    (hstop : c.isStopping = s.client.isStopping) (hlive : c.live = s.client.live)
    (hplaced : Placed c pc') (hpc' : pc'.stopping = false ∧ pc'.hasMux = false)
    (huses : pc'.uses → ∀ j ≠ i, (s.pc j).freed = false) :
    HandleInv ⟨c, s.mux, statsMux, Function.update s.pc i pc'⟩ := by
  subst hi
  refine hs.goes ⟨?_, fun _ _ => id, hplaced,
    fun j _ => (hs.placed j).congr hmqtt hstate hstop hlive, ?_, ?_, huses, ?_, ?_, ?_⟩
  · rw [hpc'.2]
    exact fun h => nomatch h
  · rw [hpc'.1]
    exact fun h => nomatch h
  · intro h
    rw [stopping_of_freed h] at hpc'
    exact nomatch hpc'.1
  · rw [hmqtt, hstate, hstop]
    exact hs.stopped
  · rw [HandleClient.Live, hmqtt, hstate, hstop, hlive]
    intro hstarted hnot _ hothers
    refine hs.running hstarted hnot fun j => ?_
    by_cases hj : j = i
    · rw [hj]
      exact hpc.1
    · exact hothers j hj
  · rw [HandleClient.Live, hmqtt, hlive]
    intro hnull _ hothers
    refine hs.field hnull fun j => ?_
    by_cases hj : j = i
    · rw [hj]
      exact hpc.2
    · exact hothers j hj

/-! ## Steps -/

theorem HandleInv.tr50Start2 (hs : HandleInv s) {pc : StartPc} (hi : s.pc i = .start pc)
    {env : HandleEnv} (hgood : Orderly s (i, .go env)) (h : s.tr50Start2 i env pc = some t) :
    HandleInv t := by
  have hplaced := hs.placed i
  rw [hi] at hplaced
  cases pc with
  | lock =>
    simp only [HandleSystem.tr50Start2] at h
    split_ifs at h with hmux hstate <;> obtain rfl := Option.some.inj h
    · exact hs.stay hi ⟨rfl, rfl⟩ rfl rfl rfl rfl trivial ⟨rfl, rfl⟩ (fun h => nomatch h)
    · have hnone : s.mux = none := by simpa using hmux
      have hstopped : s.client.state = .stopped := by
        cases hs' : s.client.state
        · rfl
        · exact absurd hs' hstate
      exact hs.goes ⟨fun _ => rfl, fun j _ hj => (by rw [hnone] at hj; cases hj),
        ⟨hstopped, (hs.stopped hstopped).2⟩, fun j _ => hs.placed j, (fun h => nomatch h),
        (fun h => nomatch h), (fun h => nomatch h), hs.stopped, (fun _ _ h => nomatch h),
        fun hmqtt => absurd (hs.stopped hstopped).1 hmqtt⟩
  | ratio =>
    simp only [HandleSystem.tr50Start2] at h
    split_ifs at h
    obtain rfl := Option.some.inj h
    exact hs.start hi rfl ⟨rfl, hplaced.2, (hs.stopped hplaced.1).1⟩ id
      (fun _ => hs.mux i (by rw [hi]; rfl)) ⟨rfl, rfl⟩ (fun h => nomatch h) (fun _ h => nomatch h)
      (absurd (hs.stopped hplaced.1).1)
  | connect =>
    obtain ⟨hstate, hstop, hmqtt⟩ := hplaced
    simp only [HandleSystem.tr50Start2] at h
    split_ifs at h <;> obtain rfl := Option.some.inj h
    · exact hs.start hi rfl ⟨hstate, hstop, hmqtt⟩ id (fun _ => hs.mux i (by rw [hi]; rfl))
        ⟨rfl, rfl⟩ hs.stopped (fun _ h => nomatch h) (absurd hmqtt)
    · refine hs.start hi rfl ⟨hstate, hstop, hmqtt, List.mem_cons_self ..⟩ ?_
        (fun _ => hs.mux i (by rw [hi]; rfl)) ⟨rfl, rfl⟩ hs.stopped (fun _ h => nomatch h)
        (absurd hmqtt)
      rintro ⟨handle, hlive, hfield⟩
      exact ⟨handle, List.mem_cons_of_mem _ hlive, hfield⟩
  | publish handle =>
    obtain ⟨hstate, hstop, hmqtt, hlive⟩ := hplaced
    obtain rfl := Option.some.inj h
    exact hs.start hi rfl ⟨hstate, hstop, rfl, hlive⟩ (fun _ => ⟨handle, hlive, rfl⟩)
      (fun _ => hs.mux i (by rw [hi]; rfl)) ⟨rfl, rfl⟩
      (fun h => by rw [hstate] at h; cases h) (fun _ h => nomatch h) (fun _ => ⟨handle, hlive, rfl⟩)
  | connecting handle =>
    obtain ⟨hstate, hstop, hmqtt, hlive⟩ := hplaced
    simp only [HandleSystem.tr50Start2] at h
    obtain rfl := Option.some.inj h
    -- `*async_client` is what it is already
    split_ifs
    · exact hs.start hi rfl ⟨hstate, hstop, rfl, hlive⟩ (fun _ => ⟨handle, hlive, rfl⟩)
        (fun _ => hs.mux i (by rw [hi]; rfl)) ⟨rfl, rfl⟩
        (fun h => by rw [hstate] at h; cases h) (fun _ h => nomatch h)
        (fun _ => ⟨handle, hlive, rfl⟩)
    · exact hs.start hi rfl ⟨hstate, hstop, hmqtt, hlive⟩ id
        (fun _ => hs.mux i (by rw [hi]; rfl)) ⟨rfl, rfl⟩ hs.stopped (fun _ h => nomatch h)
        (fun _ => ⟨handle, hlive, hmqtt⟩)
  | report handle =>
    obtain ⟨hstate, hstop, hmqtt, hlive⟩ := hplaced
    simp only [HandleSystem.tr50Start2] at h
    split_ifs at h
    obtain rfl := Option.some.inj h
    exact hs.start hi rfl ⟨hstate, hstop, hmqtt, hlive⟩ id
      (fun _ => hs.mux i (by rw [hi]; rfl)) ⟨rfl, rfl⟩ hs.stopped (fun _ h => nomatch h)
      (fun _ => ⟨handle, hlive, hmqtt⟩)
  | thread handle =>
    obtain ⟨hstate, hstop, hmqtt, hlive⟩ := hplaced
    have hcreate : env.threadCreate = 0 := hgood.1 (by rw [hi]; rfl)
    simp only [HandleSystem.tr50Start2, if_neg (not_not.mpr hcreate)] at h
    obtain rfl := Option.some.inj h
    exact hs.start hi rfl trivial id (fun h => nomatch h) ⟨rfl, rfl⟩ hs.stopped
      (fun _ _ => ⟨handle, hlive, hmqtt⟩) (fun _ => ⟨handle, hlive, hmqtt⟩)
  | disconnect handle ret => exact hplaced.elim
  | failed ret =>
    obtain ⟨hstate, hstop, hmqtt⟩ := hplaced
    obtain rfl := Option.some.inj h
    exact hs.start hi rfl trivial id (fun h => nomatch h) ⟨rfl, rfl⟩ (fun _ => ⟨hmqtt, hstop⟩)
      (fun h => nomatch h) (absurd hmqtt)

theorem HandleInv.tr50Stop (hs : HandleInv s) {pc : StopPc} (hi : s.pc i = .stop pc)
    {env : HandleEnv} (hgood : Orderly s (i, .go env)) (h : s.tr50Stop i env pc = some t) :
    HandleInv t := by
  have hplaced := hs.placed i
  rw [hi] at hplaced
  have hstate' : ∀ {c : HandleClient}, c.state = .started → c.state = .stopped →
      c.mqtt = none ∧ c.isStopping = false := by
    intro c h h'
    rw [h] at h'
    cases h'
  cases pc with
  | lock =>
    simp only [HandleSystem.tr50Stop] at h
    split_ifs at h with hmux hstate hstop <;> obtain rfl := Option.some.inj h
    · exact hs.stay hi ⟨rfl, rfl⟩ rfl rfl rfl rfl trivial ⟨rfl, rfl⟩ (fun h => nomatch h)
    · exact hs.stay hi ⟨rfl, rfl⟩ rfl rfl rfl rfl trivial ⟨rfl, rfl⟩ (fun h => nomatch h)
    · have hnone : s.mux = none := by simpa using hmux
      have hstarted : s.client.state = .started := by
        cases hs' : s.client.state
        · exact absurd hs' hstate
        · rfl
      have hstarting : ∀ j, (s.pc j).starting = false := by
        intro j
        by_contra h
        have hown := hs.mux j (hasMux_of_starting (by simpa using h))
        rw [hnone] at hown
        cases hown
      have hstopping : ∀ j, (s.pc j).stopping = false := by
        intro j
        by_contra h
        exact hstop ((hs.placed j).stopping (by simpa using h)).2
      have hlive := hs.running hstarted (by simpa using hstop) hstarting
      exact hs.goes ⟨fun _ => rfl, fun j _ hj => (by rw [hnone] at hj; cases hj),
        ⟨hstarted, rfl, hlive⟩,
        fun j _ => placed_of_outside (hstarting j) (hstopping j) fun _ => hlive,
        fun _ j _ => hstopping j, (fun h => nomatch h), (fun h => nomatch h), hstate' hstarted,
        (fun _ h => nomatch h), fun _ _ _ => hlive⟩
  | sent =>
    obtain rfl := Option.some.inj h
    exact hs.stop hi rfl hplaced (fun j _ huses => (hs.placed j).uses huses)
      (fun _ => hs.mux i (by rw [hi]; rfl)) (fun _ _ => id) (fun h => nomatch h) rfl hs.stopped
      (fun _ => hplaced.2.1) (fun _ _ => hplaced.2.2)
  | recv lastSent =>
    have hmine := hs.mux i (by rw [hi]; rfl)
    obtain rfl := Option.some.inj h
    exact hs.stop hi rfl hplaced (fun j _ huses => (hs.placed j).uses huses) (fun h => nomatch h)
      (fun j hj hown => absurd (Option.some.inj (hown.symm.trans hmine)) hj)
      (fun h => nomatch h) rfl hs.stopped (fun _ => hplaced.2.1) (fun _ _ => hplaced.2.2)
  | disconnect lastSent lastRecv =>
    obtain rfl := Option.some.inj h
    exact hs.stop hi rfl ⟨hplaced.1, hplaced.2.1⟩ (fun j _ huses => (hs.placed j).uses huses)
      (fun h => nomatch h) (fun _ _ => id) (fun h => nomatch h) rfl hs.stopped
      (fun _ => hplaced.2.1) (fun _ _ => hplaced.2.2)
  | free handle lastSent lastRecv =>
    have hquiet : ∀ j, (s.pc j).uses = false := hgood.2.1 (by rw [hi]; rfl)
    obtain rfl := Option.some.inj h
    exact hs.stop hi rfl hplaced (fun j _ huses => (by rw [hquiet j] at huses; cases huses))
      (fun h => nomatch h) (fun _ _ => id) (fun _ j _ => hquiet j) rfl hs.stopped
      (fun _ => hplaced.2) (fun _ h => nomatch h)
  | relock lastSent lastRecv =>
    simp only [HandleSystem.tr50Stop] at h
    split_ifs at h with hmux
    obtain rfl := Option.some.inj h
    have hnone : s.mux = none := by simpa using hmux
    have hquiet : ∀ j, (s.pc j).uses = false := fun j => hs.quiet i j (by rw [hi]; rfl)
    exact hs.stop hi rfl hplaced (fun j _ huses => (hs.placed j).uses huses) (fun _ => rfl)
      (fun j _ hj => (by rw [hnone] at hj; cases hj)) (fun _ j _ => hquiet j) rfl hs.stopped
      (fun _ => hplaced.2) (fun _ h => nomatch h)
  | clear lastSent lastRecv =>
    obtain rfl := Option.some.inj h
    have hquiet : ∀ j, (s.pc j).uses = false := fun j => hs.quiet i j (by rw [hi]; rfl)
    exact hs.stop hi rfl ⟨hplaced.1, hplaced.2, rfl⟩
      (fun j _ huses => (by rw [hquiet j] at huses; cases huses))
      (fun _ => hs.mux i (by rw [hi]; rfl)) (fun _ _ => id) (fun h => nomatch h) rfl
      (hstate' hplaced.1) (fun _ => hplaced.2) (absurd rfl)
  | finish lastSent lastRecv =>
    have hmine := hs.mux i (by rw [hi]; rfl)
    obtain ⟨hstarted, hstop, hmqtt⟩ := hplaced
    obtain rfl := Option.some.inj h
    refine hs.stop hi rfl trivial (fun j _ huses => ?_) (fun h => nomatch h)
      (fun j hj hown => absurd (Option.some.inj (hown.symm.trans hmine)) hj)
      (fun h => nomatch h) rfl (fun _ => ⟨hmqtt, rfl⟩) (fun h => nomatch h) (absurd hmqtt)
    obtain ⟨handle, -, hfield⟩ := (hs.placed j).uses huses
    rw [hmqtt] at hfield
    cases hfield

theorem HandleInv.tr50Stats (hs : HandleInv s) {fn : StatsFn} {pc : StatsPc}
    (hi : s.pc i = .stats fn pc) {env : HandleEnv} (hgood : Orderly s (i, .go env))
    (h : s.tr50Stats i env fn pc = some t) : HandleInv t := by
  have hnext : ∀ count, HandleInv (s.goto i (s.statsNext fn count)) := by
    intro count
    unfold statsNext
    split_ifs <;>
      exact hs.stay hi ⟨rfl, rfl⟩ rfl rfl rfl rfl trivial ⟨rfl, rfl⟩ (fun h => nomatch h)
  cases pc with
  | lock =>
    simp only [HandleSystem.tr50Stats] at h
    split_ifs at h
    obtain rfl := Option.some.inj h
    exact hs.stay hi ⟨rfl, rfl⟩ rfl rfl rfl rfl trivial ⟨rfl, rfl⟩ (fun h => nomatch h)
  | test =>
    have hnot : ∀ j, (s.pc j).freed = false := hgood.2.2 (by rw [hi]; rfl)
    simp only [HandleSystem.tr50Stats] at h
    obtain rfl := Option.some.inj h
    split_ifs with hmqtt
    · exact hs.stay hi ⟨rfl, rfl⟩ rfl rfl rfl rfl
        (hs.field (Option.isSome_iff_ne_none.mp hmqtt) hnot) ⟨rfl, rfl⟩ (fun _ j _ => hnot j)
    · exact hnext 0
  | pass =>
    obtain rfl := Option.some.inj h
    exact hnext env.count
  | reset =>
    obtain rfl := Option.some.inj h
    exact hs.stay hi ⟨rfl, rfl⟩ rfl rfl rfl rfl trivial ⟨rfl, rfl⟩ (fun h => nomatch h)

theorem HandleInv.step (hs : HandleInv s) {a : τ × HandleAction} (hgood : Orderly s a)
    (h : s.step a = some t) : HandleInv t := by
  obtain ⟨i, a⟩ := a
  unfold HandleSystem.step at h
  split at h
  · rename_i ret fn hi ha
    obtain rfl := Option.some.inj h
    refine hs.stay hi ⟨rfl, rfl⟩ rfl rfl rfl rfl ?_ ?_ ?_ <;> cases fn with
    | stats fn => cases fn <;> first | trivial | exact ⟨rfl, rfl⟩ | exact fun h => nomatch h
    | _ => first | trivial | exact ⟨rfl, rfl⟩ | exact fun h => nomatch h
  · cases h
  · rename_i pc env hi ha
    obtain rfl : a = .go env := ha
    exact hs.tr50Start2 hi hgood h
  · rename_i pc env hi ha
    obtain rfl : a = .go env := ha
    exact hs.tr50Stop hi hgood h
  · rename_i fn pc env hi ha
    obtain rfl : a = .go env := ha
    exact hs.tr50Stats hi hgood h
  · cases h

/-- **The field names a live handle wherever it is passed on**, and is NULL while the client is
stopped, in every orderly run. -/
theorem handle_named (h : Reach HandleSystem.step Orderly init s) : Named s :=
  (h.invariant (I := HandleInv) handleInv_init fun _ _ _ hs hgood hstep =>
    hs.step hgood hstep).named

end HandleSystem

/-! ## A start that fails -/

/-- Everything is granted. -/
def HandleEnv.plain : HandleEnv := ⟨true, 0, 0, 0, 0, 0⟩

/-- A start… -/
def started : List (Unit × HandleAction) :=
  ((), .call .start) :: List.replicate 7 ((), .go .plain)

/-- …a look at the counters, and a stop… -/
def stopped : List (Unit × HandleAction) :=
  started ++ ((), .call (.stats .byteSent)) :: List.replicate 2 ((), .go .plain)
    ++ ((), .call .stop) :: List.replicate 8 ((), .go .plain)

/-- …or a start without a thread. -/
def threadless : List (Unit × HandleAction) :=
  ((), .call .start) :: List.replicate 9 ((), .go { HandleEnv.plain with threadCreate := -1 })

namespace HandleSystem

/-- The run is orderly, and ends in a client without a handle. -/
theorem handle_named_stopped :
    ∃ s : HandleSystem Unit, Reach HandleSystem.step Orderly init s
      ∧ s.client.nextHandle = 1 ∧ s.client.state = .stopped ∧ Named s := by
  have heval : (stopped.foldlM (fun s a => if Orderly s a then HandleSystem.step s a else none)
      (init : HandleSystem Unit)).map (fun s => (s.client.nextHandle, s.client.state))
      = some (1, .stopped) := by
    decide +kernel
  obtain ⟨s, hs, hview⟩ := Option.map_eq_some_iff.mp heval
  obtain ⟨hnext, hstate⟩ := Prod.mk.inj hview
  have hreach := Reach.of_guarded stopped hs
  exact ⟨s, hreach, hnext, hstate, handle_named hreach⟩

/-- **The handle of a start that fails stays in the field.** -/
theorem not_handle_named_threadless :
    ¬ ∀ s : HandleSystem Unit, Reach HandleSystem.step (fun _ _ => True) init s → Named s := by
  intro h
  have heval : (threadless.foldlM HandleSystem.step (init : HandleSystem Unit)).map
      (fun s => (s.client.state, s.client.mqtt)) = some (.stopped, some 0) := by
    decide +kernel
  obtain ⟨s, hs, hview⟩ := Option.map_eq_some_iff.mp heval
  obtain ⟨hstate, hmqtt⟩ := Prod.mk.inj hview
  have hnull := (h s (Reach.of_foldlM _ (by simp) hs)).2 hstate
  rw [hnull] at hmqtt
  cases hmqtt

end HandleSystem

end Tr50
