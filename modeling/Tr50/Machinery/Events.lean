import Mathlib.Tactic

/-!
# Machinery/Events — an event made of a mutex and a condition variable

An event is locked until it is signalled, and open from then on.  A waiter looks at the flag under
the mutex and goes to sleep while the event is locked; a signal clears the flag and wakes all
sleepers under the mutex.  A sleeper may also wake for no reason at all, and looks again.

No wake-up is lost: nobody sleeps at an open event (`Sound.awake`), and nothing keeps a waiter there
(`Sound.open_moves`).
-/

namespace Tr50.Machinery

/-- Where a thread is in the functions of an event. -/
inductive EventPc
  | out
  /-- A wait: before the mutex, at the flag, asleep, and awake without the mutex. -/
  | entry
  | flag
  | asleep
  | awake
  /-- A signal: before the mutex, and behind the broadcast. -/
  | signal
  | broadcast
deriving DecidableEq, Repr

/-- It has the mutex. -/
def EventPc.holds : EventPc → Bool
  | .flag => true
  | .broadcast => true
  | _ => false

inductive EventMove
  | wait
  | signal
  /-- On to the next place. -/
  | go
  /-- A sleeper wakes for no reason. -/
  | wake
deriving DecidableEq, Repr

/-- An event, and where every thread is in its functions. -/
structure Event (τ : Type*) where
  isLocked : Bool
  mux : Option τ
  pc : τ → EventPc

namespace Event

variable {τ : Type*}

/-- Locked, and nobody there. -/
def create : Event τ := ⟨true, none, fun _ => .out⟩

variable [DecidableEq τ]

def goTo (e : Event τ) (mux : Option τ) (t : τ) (pc : EventPc) : Event τ :=
  { e with mux, pc := Function.update e.pc t pc }

/-- The flag is cleared, and all sleepers are woken. -/
def opened (e : Event τ) (t : τ) : Event τ where
  isLocked := false
  mux := some t
  pc := Function.update (fun u => if e.pc u = .asleep then .awake else e.pc u) t .broadcast

/-- The next place of a thread in a function. -/
def go (e : Event τ) (t : τ) : Option (Event τ) :=
  match e.pc t with
  | .entry => if e.mux.isNone then some (e.goTo (some t) t .flag) else none
  | .awake => if e.mux.isNone then some (e.goTo (some t) t .flag) else none
  | .flag => some (e.goTo none t (if e.isLocked then .asleep else .out))
  | .signal => if e.mux.isNone then some (e.opened t) else none
  | .broadcast => some (e.goTo none t .out)
  | .out => none
  | .asleep => none

def step (e : Event τ) (t : τ) : EventMove → Option (Event τ)
  | .wait => if e.pc t = .out then some (e.goTo e.mux t .entry) else none
  | .signal => if e.pc t = .out then some (e.goTo e.mux t .signal) else none
  | .go => e.go t
  | .wake => if e.pc t = .asleep then some (e.goTo e.mux t .awake) else none

/-! ## Soundness -/

/-- The mutex is with the thread that has taken it, and nobody sleeps at an open event. -/
structure Sound (e : Event τ) : Prop where
  holder : ∀ t, e.mux = some t ↔ (e.pc t).holds
  awake : e.isLocked = false → ∀ t, e.pc t ≠ .asleep

omit [DecidableEq τ] in
theorem sound_create : Sound (create : Event τ) :=
  ⟨fun _ => iff_of_false nofun Bool.false_ne_true, fun _ _ => nofun⟩

variable {e e' : Event τ} {t u : τ} {move : EventMove}

theorem pc_goTo_self (mux : Option τ) (pc : EventPc) : (e.goTo mux t pc).pc t = pc :=
  Function.update_self ..

theorem pc_goTo_of_ne (mux : Option τ) (pc : EventPc) (h : u ≠ t) :
    (e.goTo mux t pc).pc u = e.pc u := Function.update_of_ne h ..

/-- A thread that neither has the mutex nor takes it. -/
theorem Sound.outside (h : Sound e) {pc : EventPc} (hpc : (e.pc t).holds = false)
    (hpc' : pc.holds = false) (hawake : e.isLocked = false → pc ≠ .asleep) :
    Sound (e.goTo e.mux t pc) := by
  refine ⟨fun u => ?_, fun hopen u => ?_⟩ <;> rcases eq_or_ne u t with rfl | hu
  · rw [pc_goTo_self, hpc']
    refine iff_of_false (fun hmux => ?_) Bool.false_ne_true
    rw [(h.holder u).mp hmux] at hpc
    exact Bool.true_eq_false_eq_False hpc
  · rw [pc_goTo_of_ne _ _ hu]
    exact h.holder u
  · rw [pc_goTo_self]
    exact hawake hopen
  · rw [pc_goTo_of_ne _ _ hu]
    exact h.awake hopen u

/-- A thread takes the mutex… -/
theorem Sound.take (h : Sound e) (hmux : e.mux = none) : Sound (e.goTo (some t) t .flag) := by
  refine ⟨fun u => ?_, fun hopen u => ?_⟩ <;> rcases eq_or_ne u t with rfl | hu
  · rw [pc_goTo_self]
    exact iff_of_true rfl rfl
  · rw [pc_goTo_of_ne _ _ hu, ← h.holder u, hmux]
    exact iff_of_false (fun heq => hu (Option.some.inj heq).symm) nofun
  · rw [pc_goTo_self]
    exact nofun
  · rw [pc_goTo_of_ne _ _ hu]
    exact h.awake hopen u

/-- …and gives it back. -/
theorem Sound.give (h : Sound e) {pc : EventPc} (hpc : (e.pc t).holds) (hpc' : pc.holds = false)
    (hawake : e.isLocked = false → pc ≠ .asleep) : Sound (e.goTo none t pc) := by
  have hmux := (h.holder t).mpr hpc
  refine ⟨fun u => ?_, fun hopen u => ?_⟩ <;> rcases eq_or_ne u t with rfl | hu
  · rw [pc_goTo_self, hpc']
    exact iff_of_false nofun Bool.false_ne_true
  · rw [pc_goTo_of_ne _ _ hu, ← h.holder u, hmux]
    exact iff_of_false nofun fun heq => hu (Option.some.inj heq).symm
  · rw [pc_goTo_self]
    exact hawake hopen
  · rw [pc_goTo_of_ne _ _ hu]
    exact h.awake hopen u

theorem pc_opened_self : (e.opened t).pc t = .broadcast := by
  simp only [opened, Function.update_self]

theorem pc_opened_of_ne (h : u ≠ t) :
    (e.opened t).pc u = if e.pc u = .asleep then .awake else e.pc u := by
  simp only [opened, Function.update_of_ne h]

theorem Sound.signalled (h : Sound e) (hmux : e.mux = none) : Sound (e.opened t) := by
  refine ⟨fun u => ?_, fun _ u => ?_⟩ <;> rcases eq_or_ne u t with rfl | hu
  · rw [pc_opened_self]
    exact iff_of_true rfl rfl
  · have hnot : (e.pc u).holds = false := by
      rw [Bool.eq_false_iff, ne_eq, ← h.holder u, hmux]
      exact nofun
    rw [pc_opened_of_ne hu]
    refine iff_of_false (fun heq => hu (Option.some.inj heq).symm) ?_
    split_ifs
    · exact Bool.false_ne_true
    · exact hnot ▸ Bool.false_ne_true
  · rw [pc_opened_self]
    exact nofun
  · rw [pc_opened_of_ne hu]
    split_ifs with hasleep
    · exact nofun
    · exact hasleep

/-- **Every step keeps the event sound.** -/
theorem Sound.step (h : Sound e) (hstep : e.step t move = some e') : Sound e' := by
  cases move with
  | wait =>
    obtain ⟨hpc, heq⟩ := Option.ite_none_right_eq_some.mp hstep
    obtain rfl := Option.some.inj heq
    exact h.outside (by rw [hpc]; rfl) rfl fun _ => nofun
  | signal =>
    obtain ⟨hpc, heq⟩ := Option.ite_none_right_eq_some.mp hstep
    obtain rfl := Option.some.inj heq
    exact h.outside (by rw [hpc]; rfl) rfl fun _ => nofun
  | wake =>
    obtain ⟨hpc, heq⟩ := Option.ite_none_right_eq_some.mp hstep
    obtain rfl := Option.some.inj heq
    exact h.outside (by rw [hpc]; rfl) rfl fun _ => nofun
  | go =>
    simp only [Event.step, go] at hstep
    split at hstep
    · obtain ⟨hmux, heq⟩ := Option.ite_none_right_eq_some.mp hstep
      obtain rfl := Option.some.inj heq
      exact h.take (Option.isNone_iff_eq_none.mp hmux)
    · obtain ⟨hmux, heq⟩ := Option.ite_none_right_eq_some.mp hstep
      obtain rfl := Option.some.inj heq
      exact h.take (Option.isNone_iff_eq_none.mp hmux)
    · rename_i hpc
      obtain rfl := Option.some.inj hstep
      refine h.give (by rw [hpc]; rfl) (by split_ifs <;> rfl) fun hopen => ?_
      rw [hopen]
      exact nofun
    · obtain ⟨hmux, heq⟩ := Option.ite_none_right_eq_some.mp hstep
      obtain rfl := Option.some.inj heq
      exact h.signalled (Option.isNone_iff_eq_none.mp hmux)
    · rename_i hpc
      obtain rfl := Option.some.inj hstep
      exact h.give (by rw [hpc]; rfl) rfl fun _ => nofun
    · cases hstep
    · cases hstep

/-! ## Waking up -/

/-- Nothing keeps the thread that has the mutex… -/
theorem Sound.holder_moves (h : Sound e) (hmux : e.mux = some u) : (e.step u .go).isSome := by
  have hholds := (h.holder u).mp hmux
  simp only [Event.step, go]
  cases hpc : e.pc u <;> rw [hpc] at hholds <;> first | rfl | exact absurd hholds (by decide)

/-- …and then nothing keeps another, unless it sleeps. -/
theorem Sound.moves (h : Sound e) (ht : e.pc t ≠ .out) (hawake : e.pc t ≠ .asleep) :
    ∃ u, (e.step u .go).isSome := by
  cases hmux : e.mux with
  | some u => exact ⟨u, h.holder_moves hmux⟩
  | none =>
    refine ⟨t, ?_⟩
    simp only [Event.step, go, hmux]
    cases hpc : e.pc t with
    | out => exact absurd hpc ht
    | asleep => exact absurd hpc hawake
    | _ => rfl

/-- **At an open event a wait goes on.** -/
theorem Sound.open_moves (h : Sound e) (hopen : e.isLocked = false) (ht : e.pc t ≠ .out) :
    ∃ u, (e.step u .go).isSome := h.moves ht (h.awake hopen t)

end Event

end Tr50.Machinery
