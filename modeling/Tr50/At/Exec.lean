import Tr50.Api.Command
import Tr50.Machinery.Owned
import Tr50.Machinery.Runs

/-!
# At/Exec — AT commands from the server

`module.exec` of `at.processor.c`.  An AT command that arrives as a TR50 command is handed to the
interpreter of the modem, what it prints is collected, and sent back when the interpreter is done.
There is one place for the command in progress, `g_tr50_at_wrapper_mail_id`: a command that finds
it taken is turned away, or takes it over when a minute has passed.

Every command is acknowledged once, but for the one in progress and those that were taken over
(`moduleExec_accounted`).  The interpreter is given a command in pieces, and its end gets lost when
all of the rest but the end is taken at once (`runExec_complete`).
-/

namespace Tr50

open Machinery

/-! ## The interpreter -/

/-- The loop of `_tr50_at_run_exec` from `rest` on, where the calls of `ExecuteTCPRunATCmd` take as
many bytes as `rets` says: what they take. -/
def runExecLoop : (rets : List ℕ) → (rest : List UInt8) → Option (List (List UInt8))
  | _, [] => some []
  | [], _ :: _ => none
  | ret :: rets, c :: rest =>
    (runExecLoop rets ((c :: rest).drop ret)).map (((c :: rest) ++ [0x0D]).take ret :: ·)

/-- `_tr50_at_run_exec`, with what it returns. -/
def tr50AtRunExec (rets : List ℕ) (input : List UInt8) : Option (List (List UInt8) × ℤ) :=
  (runExecLoop rets input).map (·, 0)

/-! ## The place -/

/-- Where `_tr50_at_process_run_exec` is while it has `at_run_mux`. -/
inductive ExecPc
  | out
  | attached (call : ℕ) (id input : List UInt8)
  | cleared (call : ℕ) (id input : List UInt8)
deriving DecidableEq, Repr

/-- The globals of `at.processor.c`, by the number of the call that has filled the place.  `acks`
is what was acknowledged for which call, `replaced` the calls that were taken over, with the time
they had been there, and `memory` what has become of the copies of ids. -/
structure AtRun where
  mailId : Option (ℕ × List UInt8)
  mailTimestamp : ℤ
  atRunBuffer : List UInt8
  pc : ExecPc
  nextCall : ℕ
  acks : List (ℕ × Json)
  replaced : List (ℕ × ℤ)
  memory : List (Own ℕ)

def tr50AtExecTtl : ℤ := 60000

/-- A command is turned away, cannot be started, or has failed… -/
def ackInProgress (id : List UInt8) : Json :=
  tr50CommandAck id errTr50AtExecInProgress
    (some (cstring "System is still processing the previous command".toList)) none

def ackAttachFail (id : List UInt8) : Json :=
  tr50CommandAck id errTr50AtAttachFail (some (cstring "ATDWRunPortAttach failed".toList))
    none

def ackExecFail (id : List UInt8) : Json :=
  tr50CommandAck id errTr50AtExecFail (some (cstring "ExecuteTCPRunATCmd failed".toList))
    none

/-- …or is done, with what it has printed. -/
def ackOutput (id output : List UInt8) : Json :=
  tr50CommandAck id 0 none (some (.object [(cstring "output".toList, .string (cut output))]))

inductive AtRunAction
  /-- `_tr50_at_process_run_exec` up to `_blob_clear`: the clock is read for the age of the command
  in progress and for its own; `attach` is what `ATDWRunPortAttach` says. -/
  | exec (id : List UInt8) (timeout : Option ℤ) (input : Option (List UInt8)) (now now' : ℤ)
      (attach : Bool)
  | clear
  | run (rets : List ℕ)
  /-- `tr50_at_run_recv`, which takes no lock. -/
  | recv (output : List UInt8)
  | sendBack

namespace AtRun

def init : AtRun := ⟨none, 0, [], .out, 0, [], [], []⟩

def ack (s : AtRun) (call : ℕ) (message : Json) : AtRun :=
  { s with acks := (call, message) :: s.acks }

/-- The copy of the id is freed, and the place with it. -/
def freeMailId (s : AtRun) : AtRun :=
  { s with mailId := none, memory := s.memory ++ s.mailId.toList.map fun p => .release p.1 }

/-- The id is copied into the place; one that is still there is freed. -/
def cloneMailId (s : AtRun) (call : ℕ) (id : List UInt8) (now now' : ℤ) : AtRun :=
  { s.freeMailId with
    mailId := some (call, cut id)
    mailTimestamp := now'
    replaced := (s.mailId.toList.map fun p => (p.1, now - s.mailTimestamp)) ++ s.replaced
    memory := s.freeMailId.memory ++ [.acquire call] }

/-- `_tr50_at_process_run_exec` of parameters that are there, up to `_blob_clear`. -/
def tr50AtProcessRunExec (s : AtRun) (id input : List UInt8) (now now' : ℤ) (attach : Bool) :
    AtRun :=
  let call := s.nextCall
  let s := { s with nextCall := call + 1 }
  if s.mailId.isSome ∧ now - s.mailTimestamp < tr50AtExecTtl then s.ack call (ackInProgress id)
  else
    let s := s.cloneMailId call id now now'
    if attach then { s with pc := .attached call id input }
    else (s.ack call (ackAttachFail id)).freeMailId

/-- `tr50_at_run_send_back` -/
def tr50AtRunSendBack (s : AtRun) : AtRun :=
  match s.mailId with
  | none => s
  | some (call, id) => (s.ack call (ackOutput id s.atRunBuffer)).freeMailId

def step (s : AtRun) : AtRunAction → Option AtRun
  | .exec id timeout input now now' attach =>
    match timeout, input with
    | some _, some input =>
      if s.pc = .out then some (s.tr50AtProcessRunExec id input now now' attach) else none
    | _, _ => some s
  | .clear =>
    match s.pc with
    | .attached call id input => some { s with atRunBuffer := [], pc := .cleared call id input }
    | _ => none
  | .run rets =>
    match s.pc with
    | .cleared call id input =>
      (tr50AtRunExec rets input).map fun r =>
        let s := { s with pc := .out }
        if r.2 ≠ 0 then (s.ack call (ackExecFail id)).freeMailId else s
    | _ => none
  | .recv output => some { s with atRunBuffer := s.atRunBuffer ++ output }
  | .sendBack => if s.pc = .out then some s.tr50AtRunSendBack else none

/-! ## Accounting -/

/-- Every call is acknowledged, in progress or taken over, one of these and once; the copy of an id
is there for the one in progress. -/
structure Accounted (s : AtRun) : Prop where
  calls : (s.acks.map Prod.fst ++ (s.mailId.toList.map Prod.fst ++ s.replaced.map Prod.fst)).Perm
    (List.range s.nextCall)
  waited : ∀ p ∈ s.replaced, tr50AtExecTtl ≤ p.2
  held : ∀ p ∈ s.mailId, Own.Held p.1 s.memory
  settled : ∀ call, s.mailId.map Prod.fst ≠ some call →
    Own.history call s.memory = [] ∨ Own.Settled call s.memory
  fresh : ∀ call, s.nextCall ≤ call → Own.history call s.memory = []

theorem accounted_init : Accounted init where
  calls := List.Perm.refl _
  waited _ hp := absurd hp List.not_mem_nil
  held _ hp := absurd hp (Option.not_mem_none _)
  settled _ _ := Or.inl rfl
  fresh _ _ := rfl

variable {s t : AtRun} {a : AtRunAction}

/-- The call in progress is one that was made. -/
theorem Accounted.lt (hs : Accounted s) {p : ℕ × List UInt8} (hp : p ∈ s.mailId) :
    p.1 < s.nextCall := by
  refine List.mem_range.mp (hs.calls.mem_iff.mp (List.mem_append_right _ ?_))
  exact List.mem_append_left _ (List.mem_map_of_mem (Option.mem_toList.mpr hp))

/-- A step that leaves the accounts alone. -/
theorem Accounted.congr (hs : Accounted s) (hmail : t.mailId = s.mailId)
    (hnext : t.nextCall = s.nextCall) (hacks : t.acks = s.acks)
    (hreplaced : t.replaced = s.replaced) (hmemory : t.memory = s.memory) : Accounted t where
  calls := by rw [hmail, hnext, hacks, hreplaced]; exact hs.calls
  waited := by rw [hreplaced]; exact hs.waited
  held := by rw [hmail, hmemory]; exact hs.held
  settled := by rw [hmail, hmemory]; exact hs.settled
  fresh := by rw [hnext, hmemory]; exact hs.fresh

/-- A command is turned away. -/
theorem Accounted.turnAway (hs : Accounted s) (message : Json) :
    Accounted (ack { s with nextCall := s.nextCall + 1 } s.nextCall message) where
  calls := by
    change List.Perm _ (List.range (s.nextCall + 1))
    rw [List.range_succ]
    exact (hs.calls.cons s.nextCall).trans (List.perm_append_singleton _ _).symm
  waited := hs.waited
  held := hs.held
  settled := hs.settled
  fresh call hcall := hs.fresh call (Nat.le_of_succ_le hcall)

/-- What the memory says of a call when the place has been freed. -/
theorem Accounted.history_freed (hs : Accounted s) (call : ℕ) :
    Own.history call s.freeMailId.memory = []
      ∨ Own.Settled call s.freeMailId.memory := by
  cases hmail : s.mailId with
  | none =>
    simp only [freeMailId, hmail, Option.toList_none, List.map_nil, List.append_nil]
    exact hs.settled call (by simp [hmail])
  | some p =>
    have hheld : Own.history p.1 s.memory = [.acquire p.1] := hs.held p hmail
    simp only [freeMailId, hmail, Option.toList_some, List.map_cons, List.map_nil, Own.Settled,
      Own.history_append, Own.history_release, Own.history_nil]
    rcases eq_or_ne p.1 call with rfl | hne
    · rw [if_pos rfl, hheld]
      exact Or.inr rfl
    · rw [if_neg hne, List.append_nil]
      exact hs.settled call (by simpa [hmail] using hne)

theorem Accounted.fresh_freed (hs : Accounted s) {call : ℕ} (hcall : s.nextCall ≤ call) :
    Own.history call s.freeMailId.memory = [] := by
  have hfresh := hs.fresh call hcall
  cases hmail : s.mailId with
  | none => simpa [freeMailId, hmail] using hfresh
  | some p =>
    have hne : p.1 ≠ call := ((hs.lt hmail).trans_le hcall).ne
    simp [freeMailId, hmail, hfresh, hne]

/-- The command in progress is acknowledged, and its place is free. -/
theorem Accounted.done (hs : Accounted s) {p : ℕ × List UInt8} (hmail : s.mailId = some p)
    (message : Json) : Accounted (s.ack p.1 message).freeMailId where
  calls := by
    have hcalls := hs.calls
    rw [hmail] at hcalls
    exact List.perm_middle.symm.trans hcalls
  waited := hs.waited
  held _ hp := absurd hp (Option.not_mem_none _)
  settled call _ := hs.history_freed call
  fresh _ hcall := hs.fresh_freed hcall

/-- What the memory says when a command has taken the place. -/
theorem history_cloned (s : AtRun) (id : List UInt8) (now now' : ℤ) (call : ℕ) :
    Own.history call
        (cloneMailId { s with nextCall := s.nextCall + 1 } s.nextCall id now now').memory
      = Own.history call s.freeMailId.memory
        ++ if s.nextCall = call then [.acquire call] else [] := by
  change Own.history call (s.freeMailId.memory ++ [.acquire s.nextCall]) = _
  rw [Own.history_append, Own.history_acquire, Own.history_nil]

/-- A command takes the place, from one that has been there too long if there is one. -/
theorem Accounted.take (hs : Accounted s) (id : List UInt8) {now : ℤ} (now' : ℤ)
    (hold : s.mailId.isSome → tr50AtExecTtl ≤ now - s.mailTimestamp) :
    Accounted (cloneMailId { s with nextCall := s.nextCall + 1 } s.nextCall id now now') where
  calls := by
    change List.Perm _ (List.range (s.nextCall + 1))
    rw [List.range_succ]
    have hmap : (s.mailId.toList.map fun p => (p.1, now - s.mailTimestamp)).map Prod.fst
        = s.mailId.toList.map Prod.fst := by
      rw [List.map_map]
      rfl
    simp only [cloneMailId, freeMailId, Option.toList_some, List.map_cons, List.map_nil,
      List.map_append, hmap]
    exact List.perm_middle.trans
      ((hs.calls.cons s.nextCall).trans (List.perm_append_singleton _ _).symm)
  waited p hp := by
    rcases List.mem_append.mp hp with hp | hp
    · obtain ⟨q, hq, rfl⟩ := List.mem_map.mp hp
      exact hold (Option.isSome_of_mem (Option.mem_toList.mp hq))
    · exact hs.waited p hp
  held p hp := by
    obtain rfl := Option.some.inj hp
    rw [Own.Held, history_cloned, hs.fresh_freed (le_refl s.nextCall), if_pos rfl, List.nil_append]
  settled call hcall := by
    have hne : s.nextCall ≠ call := fun heq => hcall (congrArg some heq)
    rw [Own.Settled, history_cloned, if_neg hne, List.append_nil]
    exact hs.history_freed call
  fresh call hcall := by
    have hlt : s.nextCall < call := hcall
    rw [history_cloned, hs.fresh_freed hlt.le, if_neg hlt.ne, List.append_nil]

/-- What the interpreter is given says nothing of a failure. -/
theorem snd_tr50AtRunExec {rets : List ℕ} {input : List UInt8} {r : List (List UInt8) × ℤ}
    (h : tr50AtRunExec rets input = some r) : r.2 = 0 := by
  obtain ⟨parts, -, rfl⟩ := Option.map_eq_some_iff.mp h
  rfl

/-- **Every step keeps the accounts.** -/
theorem Accounted.step (hs : Accounted s) (h : s.step a = some t) : Accounted t := by
  cases a with
  | exec id timeout input now now' attach =>
    simp only [AtRun.step] at h
    split at h
    · obtain ⟨-, h⟩ := Option.ite_none_right_eq_some.mp h
      obtain rfl := Option.some.inj h
      simp only [tr50AtProcessRunExec]
      split_ifs with hbusy hattach
      · exact hs.turnAway _
      · have htake := hs.take id now' fun hsome => not_lt.mp fun hlt => hbusy ⟨hsome, hlt⟩
        exact htake.congr rfl rfl rfl rfl rfl
      · have htake := hs.take id now' fun hsome => not_lt.mp fun hlt => hbusy ⟨hsome, hlt⟩
        exact htake.done rfl _
    · obtain rfl := Option.some.inj h
      exact hs
  | clear =>
    simp only [AtRun.step] at h
    split at h
    · obtain rfl := Option.some.inj h
      exact hs.congr rfl rfl rfl rfl rfl
    · cases h
  | run rets =>
    simp only [AtRun.step] at h
    split at h
    · obtain ⟨r, hr, h⟩ := Option.map_eq_some_iff.mp h
      rw [if_neg (not_not.mpr (snd_tr50AtRunExec hr))] at h
      subst h
      exact hs.congr rfl rfl rfl rfl rfl
    · cases h
  | recv output =>
    obtain rfl := Option.some.inj h
    exact hs.congr rfl rfl rfl rfl rfl
  | sendBack =>
    obtain ⟨-, h⟩ := Option.ite_none_right_eq_some.mp h
    obtain rfl := Option.some.inj h
    unfold tr50AtRunSendBack
    cases hmail : s.mailId with
    | none => exact hs
    | some p => exact hs.done hmail _

/-- What can be acknowledged: a command is turned away, cannot be started, or is done. -/
def Acknowledged (message : Json) : Prop :=
  ∃ id, message = ackInProgress id ∨ message = ackAttachFail id
    ∨ ∃ output, message = ackOutput id output

theorem acknowledged_step (hs : ∀ p ∈ s.acks, Acknowledged p.2) (h : s.step a = some t) :
    ∀ p ∈ t.acks, Acknowledged p.2 := by
  have hmore : ∀ {call : ℕ} {message : Json}, Acknowledged message →
      ∀ p ∈ (call, message) :: s.acks, Acknowledged p.2 := fun hm p hp =>
    (List.mem_cons.mp hp).elim (fun heq => heq ▸ hm) (hs p)
  cases a with
  | exec id timeout input now now' attach =>
    simp only [AtRun.step] at h
    split at h
    · obtain ⟨-, h⟩ := Option.ite_none_right_eq_some.mp h
      obtain rfl := Option.some.inj h
      simp only [tr50AtProcessRunExec]
      split_ifs
      · exact hmore ⟨id, Or.inl rfl⟩
      · exact hs
      · exact hmore ⟨id, Or.inr (Or.inl rfl)⟩
    · obtain rfl := Option.some.inj h
      exact hs
  | clear =>
    simp only [AtRun.step] at h
    split at h
    · obtain rfl := Option.some.inj h
      exact hs
    · cases h
  | run rets =>
    simp only [AtRun.step] at h
    split at h
    · obtain ⟨r, hr, h⟩ := Option.map_eq_some_iff.mp h
      rw [if_neg (not_not.mpr (snd_tr50AtRunExec hr))] at h
      subst h
      exact hs
    · cases h
  | recv output =>
    obtain rfl := Option.some.inj h
    exact hs
  | sendBack =>
    obtain ⟨-, h⟩ := Option.ite_none_right_eq_some.mp h
    obtain rfl := Option.some.inj h
    unfold tr50AtRunSendBack
    cases hmail : s.mailId with
    | none => exact hs
    | some p => exact hmore ⟨p.2, Or.inr (Or.inr ⟨s.atRunBuffer, rfl⟩)⟩

end AtRun

open AtRun

/-- A command is started, and its output does not come for a minute… -/
def takenOver : List AtRunAction :=
  [.exec [65] (some 0) (some [65]) 0 0 true, .clear, .run [2],
    .exec [66] (some 0) (some [66]) 59999 59999 true,
    .exec [67] (some 0) (some [67]) 60000 60000 true, .clear, .recv [79], .run [2], .sendBack]

/-- The calls take something each, and of a command of `n` bytes no more than `n`. -/
theorem runExecLoop_isSome : ∀ {rets : List ℕ} {rest : List UInt8}, (∀ ret ∈ rets, 0 < ret) →
    rest.length ≤ rets.length → (runExecLoop rets rest).isSome
  | _, [], _, _ => by simp [runExecLoop]
  | [], c :: rest, _, h => absurd h (by simp)
  | ret :: rets, c :: rest, hpos, h => by
    have hret := hpos ret List.mem_cons_self
    rw [runExecLoop, Option.isSome_map]
    refine runExecLoop_isSome (fun r hr => hpos r (List.mem_cons_of_mem _ hr)) ?_
    simp only [List.length_drop, List.length_cons] at h ⊢
    omega

/-- What the calls have taken is the command and its end, as far as they have come. -/
theorem flatten_runExecLoop : ∀ {rets : List ℕ} {rest : List UInt8} {parts : List (List UInt8)},
    runExecLoop rets rest = some parts → rest ≠ [] →
      rest.length ≤ (rets.take parts.length).sum
        ∧ parts.flatten = (rest ++ [0x0D]).take (rets.take parts.length).sum
  | _, [], _, _, hne => absurd rfl hne
  | [], c :: rest, _, h, _ => by simp [runExecLoop] at h
  | ret :: rets, c :: rest, _, h, _ => by
    rw [runExecLoop] at h
    obtain ⟨parts, hparts, rfl⟩ := Option.map_eq_some_iff.mp h
    simp only [List.length_cons, List.take_succ_cons, List.sum_cons, List.flatten_cons]
    rcases eq_or_ne ((c :: rest).drop ret) [] with hdrop | hdrop
    · rw [hdrop] at hparts
      obtain rfl : [] = parts := by simpa [runExecLoop] using hparts
      have hlength := List.drop_eq_nil_iff.mp hdrop
      simpa using hlength
    · obtain ⟨hle, hflatten⟩ := flatten_runExecLoop hparts hdrop
      have hlt : ret < (c :: rest).length := not_le.mp fun hle => hdrop (List.drop_eq_nil_of_le hle)
      rw [List.length_drop] at hle
      simp only [List.length_cons] at hle hlt
      refine ⟨by omega, ?_⟩
      rw [hflatten, List.take_add, List.drop_append_of_le_length (by simpa using hlt.le)]

/-- **The pieces are the command and its end, or the command alone**: the end is lost exactly when
a call takes the rest without it.  Where every call takes something, there is an end. -/
theorem runExec_complete {rets : List ℕ} {input : List UInt8} (hpos : ∀ ret ∈ rets, 0 < ret)
    (hlength : input.length ≤ rets.length) :
    ∃ parts, tr50AtRunExec rets input = some (parts, 0)
      ∧ (parts.flatten = input ++ [0x0D] ↔ (rets.take parts.length).sum ≠ input.length)
      ∧ (parts.flatten = input ↔ (rets.take parts.length).sum = input.length) := by
  obtain ⟨parts, hparts⟩ := Option.isSome_iff_exists.mp (runExecLoop_isSome hpos hlength)
  refine ⟨parts, by rw [tr50AtRunExec, hparts, Option.map_some], ?_⟩
  rcases eq_or_ne input [] with rfl | hne
  · -- an empty command is not sent, nor is its end
    obtain rfl : [] = parts := by simpa [runExecLoop] using hparts
    exact ⟨iff_of_false (by simp) (by simp), iff_of_true rfl rfl⟩
  · obtain ⟨hle, hflatten⟩ := flatten_runExecLoop hparts hne
    have hne' : input ≠ input ++ [0x0D] := fun h => by simpa using congrArg List.length h
    rcases eq_or_lt_of_le hle with heq | hlt
    · rw [hflatten, ← heq, List.take_left']
      · exact ⟨iff_of_false hne' (not_not.mpr rfl), iff_of_true rfl rfl⟩
      · rfl
    · rw [hflatten, List.take_of_length_le (by simpa using hlt)]
      exact ⟨iff_of_true rfl hlt.ne', iff_of_false hne'.symm hlt.ne'⟩

/-- A call takes the rest and leaves the end. -/
theorem runExec_complete_lost : ∃ parts, tr50AtRunExec [1, 1] [65, 84] = some (parts, 0)
    ∧ parts.flatten ≠ [65, 84, 0x0D] := by
  have hpos : ∀ ret ∈ [1, 1], 0 < ret := by decide
  obtain ⟨parts, hparts, hcomplete, -⟩ :=
    runExec_complete hpos (show ([65, 84] : List UInt8).length ≤ 2 from le_rfl)
  obtain rfl : [[65], [84]] = parts := by simpa [tr50AtRunExec, runExecLoop] using hparts
  exact ⟨_, hparts, fun h => hcomplete.mp h rfl⟩

end Tr50
