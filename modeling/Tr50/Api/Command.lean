import Tr50.Api.Dispatch
import Tr50.Machinery.Decimal
import Tr50.Machinery.Fields

/-!
# Api/Command — the names of commands

`tr50_command_register` and `tr50_command_process`, with the arrays that the names are kept in.
`strncpy` leaves a name that does not fit without a terminator, and a `strcmp` that does not find a
difference in the array reads on behind it.  Where none does, the list is a map from names to the
callbacks registered last (`processes_iff`), and what `Api/Dispatch` makes of it
(`tr50CommandProcess_dispatch`).
-/

namespace Tr50

open Machinery

variable {γ μ : Type}

/-- `_TR50_COMMAND`, in its place in the list. -/
structure Tr50Command (γ : Type) where
  name : Field UInt8 tr50NameLen
  callback : γ

/-! ## The acknowledgement -/

/-- `tr50_message_add_command`: the member that it adds. -/
def tr50MessageAddCommand (cmdId cmd : List UInt8) (params : Option Json) : List UInt8 × Json :=
  let command := (cstring ['c', 'o', 'm', 'm', 'a', 'n', 'd'], .string cmd)
  (cmdId, .object
    (command :: params.toList.map fun p => (cstring ['p', 'a', 'r', 'a', 'm', 's'], p)))

/-- `mailbox.ack` -/
def mailboxAck : List UInt8 := cstring ['m', 'a', 'i', 'l', 'b', 'o', 'x', '.', 'a', 'c', 'k']

/-- `tr50_command_ack`: the message that it hands to `tr50_api_call`. -/
def tr50CommandAck (id : List UInt8) (status : ℤ) (errMessage : Option (List UInt8))
    (ackParams : Option Json) : Json :=
  let errorCode := (cstring ['e', 'r', 'r', 'o', 'r', 'C', 'o', 'd', 'e'],
    .number (decimalText status))
  let errorMessage := errMessage.toList.map fun text =>
    (cstring ['e', 'r', 'r', 'o', 'r', 'M', 'e', 's', 's', 'a', 'g', 'e'], .string (cut text))
  let params := [(cstring ['i', 'd'], .string (cut id))]
    ++ (if status ≠ 0 then errorCode :: errorMessage else [])
    ++ ackParams.toList.map fun p => (cstring ['p', 'a', 'r', 'a', 'm', 's'], p)
  .object [tr50MessageAddCommand (cstring ['1']) mailboxAck (some (.object params))]

/-- What `tr50_command_process` calls. -/
inductive Tr50Called (γ : Type)
  | callback (func : γ) (id key command : List UInt8) (sender : Option (List UInt8))
      (params : Option Json)
  | apiCall (message : Json)

/-! ## The list -/

namespace Command

/-- `tr50_command_register` -/
def tr50CommandRegister (commandHead : List (Tr50Command γ)) (cmd : List UInt8) (func : γ) :
    List (Tr50Command γ) :=
  ⟨.copy 0 tr50NameLen cmd, func⟩ :: commandHead

/-- `command_head` after the calls `regs`. -/
def commandHead (regs : List (List UInt8 × γ)) : List (Tr50Command γ) :=
  regs.foldl (fun head reg => tr50CommandRegister head reg.1 reg.2) []

section Process

variable (result : Tr50Called γ → ℤ) (inuse : Bool) (id key : List UInt8)
  (sender : Option (List UInt8)) (params : Option Json)

/-- `tr50_command_process`: what it returns and calls, unless a comparison reads behind a name. -/
def tr50CommandProcess (commandHead : List (Tr50Command γ)) (command : Option (List UInt8)) :
    Option (ℤ × List (Tr50Called γ)) :=
  match command with
  | none => some (errTr50CmdUnknown, [])
  | some command =>
    if sameText command methodExec ∧ inuse then some (0, [])
    else
      (searchFirst (fun cmd => cmd.name.compare 0 command) commandHead).map fun
        | some cmd =>
          let called := .callback cmd.callback id key command sender params
          (result called, [called])
        | none =>
          (errTr50CmdUnknown,
            [.apiCall (tr50CommandAck id errTr50CmdUnknown (some (cstring "Unknown command".toList))
              none)])

/-! ## A map from names to callbacks -/

/-- What is to come of a command: the callback registered last under its name is called, or it is
refused. -/
def expected (func : Option γ) (command : List UInt8) : ℤ × List (Tr50Called γ) :=
  match func with
  | some func =>
    let called := .callback func id key command sender params
    (result called, [called])
  | none =>
    (errTr50CmdUnknown,
      [.apiCall (tr50CommandAck id errTr50CmdUnknown (some (cstring "Unknown command".toList))
        none)])

/-- The callback registered last under each name. -/
def registered (regs : List (List UInt8 × γ)) (command : List UInt8) : Option γ :=
  lastKept (regs.map fun reg => (cut reg.1, reg.2)) (cut command)

/-- The callback registered last under the command is called and no other, or there is none and the
command is acknowledged as unknown; and every comparison ends in the array of a name. -/
def Processes (regs : List (List UInt8 × γ)) (command : List UInt8) : Prop :=
  tr50CommandProcess result inuse id key sender params (commandHead regs) (some command)
    = some (expected result id key sender params (registered regs command) command)

/-- The command begins like a registered name that is too long for its array. -/
def Overruns (regs : List (List UInt8 × γ)) (command : List UInt8) : Prop :=
  ∃ reg ∈ regs, Field.Overrun 0 tr50NameLen reg.1 command

instance (regs : List (List UInt8 × γ)) (command : List UInt8) :
    Decidable (Overruns regs command) :=
  inferInstanceAs (Decidable (∃ reg ∈ regs, Field.Overrun 0 tr50NameLen reg.1 command))

theorem commandHead_eq (regs : List (List UInt8 × γ)) :
    commandHead regs = (regs.map fun reg => ⟨.copy 0 tr50NameLen reg.1, reg.2⟩).reverse := by
  induction regs using List.reverseRecOn with
  | nil => rfl
  | append_singleton regs reg ih =>
    rw [commandHead, List.foldl_append, List.foldl_cons, List.foldl_nil, ← commandHead, ih,
      tr50CommandRegister, List.map_append, List.reverse_append]
    rfl

/-- What the loop finds, where every comparison ends. -/
theorem searchFirst_commandHead {regs : List (List UInt8 × γ)} {command : List UInt8}
    (h : ¬ Overruns regs command) :
    searchFirst (fun cmd => cmd.name.compare 0 command) (commandHead regs) =
      some ((regs.reverse.find? fun reg => cut reg.1 = cut command).map fun reg =>
        ⟨.copy 0 tr50NameLen reg.1, reg.2⟩) := by
  rw [commandHead_eq, ← List.map_reverse, searchFirst_map, searchFirst_eq_find? fun reg hreg => ?_]
  · rfl
  · exact Field.compare_copy reg.1 command fun hover => h ⟨reg, List.mem_reverse.mp hreg, hover⟩

/-- A comparison that does not end is reached: no name ahead of it is the command. -/
theorem searchFirst_commandHead_eq_none {regs : List (List UInt8 × γ)} {command : List UInt8}
    (h : Overruns regs command) :
    searchFirst (fun cmd => cmd.name.compare 0 command) (commandHead regs) = none := by
  obtain ⟨reg, hreg, hover⟩ := h
  rw [commandHead_eq, ← List.map_reverse, searchFirst_map, searchFirst_eq_none]
  · rfl
  · exact fun other _ => Field.compare_copy_ne_true hover other.1
  · exact ⟨reg, List.mem_reverse.mpr hreg, (Field.compare_copy_eq_none_iff _ _).mpr hover⟩

theorem registered_eq (regs : List (List UInt8 × γ)) (command : List UInt8) :
    registered regs command =
      (regs.reverse.find? fun reg => cut reg.1 = cut command).map Prod.snd := by
  rw [registered, lastKept_eq_find?, ← List.map_reverse, List.find?_map, Option.map_map]
  rfl

theorem tr50CommandProcess_eq_none {regs : List (List UInt8 × γ)} {command : List UInt8}
    (hcommand : ¬ sameText command methodExec) (h : Overruns regs command) :
    tr50CommandProcess result inuse id key sender params (commandHead regs) (some command)
      = none := by
  have hother : ¬ (sameText command methodExec ∧ inuse) := fun h => hcommand h.1
  simp only [tr50CommandProcess, if_neg hother, searchFirst_commandHead_eq_none h, Option.map_none]

/-- **The list is a map exactly where the command does not begin like a name too long for its
array.** -/
theorem processes_iff (regs : List (List UInt8 × γ)) {command : List UInt8}
    (hcommand : ¬ sameText command methodExec) :
    Processes result inuse id key sender params regs command ↔ ¬ Overruns regs command := by
  refine ⟨fun hprocesses h => ?_, fun h => ?_⟩
  · rw [Processes, tr50CommandProcess_eq_none _ _ _ _ _ _ hcommand h] at hprocesses
    exact absurd hprocesses.symm (Option.some_ne_none _)
  · have hother : ¬ (sameText command methodExec ∧ inuse) := fun h => hcommand h.1
    simp only [Processes, tr50CommandProcess, if_neg hother]
    rw [searchFirst_commandHead h, registered_eq, Option.map_some]
    cases regs.reverse.find? fun reg => cut reg.1 = cut command with
    | none => rfl
    | some reg => rfl

end Process

/-- Names of the same beginning, one of them registered twice, next to one that is too long. -/
theorem processes_iff_twice :
    Processes (fun _ => 0) false [49] [107] none none
      [([97], 1), (List.replicate 70 98, 2), ([97], 3), ([97, 98], 4)] [97] :=
  (processes_iff (fun _ => 0) false [49] [107] none none
    [([97], 1), (List.replicate 70 98, 2), ([97], 3), ([97, 98], 4)] (by decide)).mpr (by decide)

/-- A command that is registered, by a name of 70 characters: `strcmp` reads behind the array. -/
theorem not_processes :
    sameText (List.replicate 70 97) methodExec = false ∧
      ¬ Processes (fun _ => 0) false [49] [107] none none [(List.replicate 70 97, ())]
        (List.replicate 70 97) := by
  refine ⟨by decide, fun h => ?_⟩
  rw [Processes, tr50CommandProcess_eq_none _ _ _ _ _ _ (by decide) (by decide)] at h
  exact absurd h.symm (Option.some_ne_none _)

/-! ## The dispatcher -/

/-- What a callback or an acknowledgement is, as a call. -/
def called : Dispatch γ μ → Option (Tr50Called γ)
  | .command func id key command sender params =>
    some (.callback func id key command sender params)
  | .method _ _ _ _ _ _ => none
  | .ack id status errMessage =>
    some (.apiCall (tr50CommandAck id status (some (cstring errMessage.toList)) none))

theorem commands_after {ι : Type} [DecidableEq ι] (i : ι) (regs : List (List UInt8 × γ)) :
    (((Tr50Process.after (regs.map fun reg => .command i reg.1 reg.2) : Tr50Process ι γ μ)).client
      i).commands = (regs.map fun reg => .create reg.1 reg.2).reverse := by
  induction regs using List.reverseRecOn with
  | nil => rfl
  | append_singleton regs reg ih =>
    rw [Tr50Process.after, List.map_append, List.foldl_append, ← Tr50Process.after, List.map_append,
      List.reverse_append, ← ih]
    simp [Tr50Process.register, Tr50Process.tr50CommandRegister]

/-- **Where every comparison ends, the arrays make no difference.** -/
theorem tr50CommandProcess_dispatch {ι : Type} [DecidableEq ι] (i : ι) {p : Tr50Process ι γ μ}
    {regs : List (List UInt8 × γ)} (hp : p = .after (regs.map fun reg => .command i reg.1 reg.2))
    (result : Tr50Called γ → ℤ) (inuse : Bool) (id key : List UInt8)
    (sender : Option (List UInt8)) (params : Option Json) {command : List UInt8}
    (h : ¬ Overruns regs command) :
    tr50CommandProcess result inuse id key sender params (commandHead regs) (some command) =
      some ((fun r => (r.1, r.2.filterMap called))
        (Tr50.tr50CommandProcess (fun d => ((called d).map result).getD 0) inuse (p.client i) id key
          (some command) sender params)) := by
  have hfind : (p.client i).commands.find? (fun c => sameText c.name command) =
      (regs.reverse.find? fun reg => cut reg.1 = cut command).map fun reg =>
        .create reg.1 reg.2 := by
    rw [hp, commands_after, ← List.map_reverse, List.find?_map]
    congr 1
    refine List.find?_congr fun reg hreg => decide_eq_decide.mpr ?_
    have hcut : cut ((cut reg.1).take tr50NameLen) = (cut reg.1).take tr50NameLen :=
      upTo_eq_self fun h0 => notMem_upTo reg.1 (List.take_subset _ _ h0)
    change cut ((cut reg.1).take tr50NameLen) = cut command ↔ _
    rw [hcut]
    exact Field.take_upTo_eq_iff fun hover => h ⟨reg, List.mem_reverse.mp hreg, hover⟩
  simp only [tr50CommandProcess, Tr50.tr50CommandProcess, searchFirst_commandHead h, hfind]
  split_ifs
  · rfl
  · cases regs.reverse.find? fun reg => cut reg.1 = cut command with
    | none => rfl
    | some reg => rfl

end Command

end Tr50
