import Tr50.Api.Mailbox

/-!
# Api/Dispatch — who handles a message of the mailbox

`_tr50_mailbox_check_callback` hands each message to `tr50_command_process`, and a `method.exec` to
`tr50_method_process` before that; `method_registration_inuse` is to keep one of the two out.  The
flag belongs to the process, and the lists of handlers to the client.

A message that no handler is found for is acknowledged with an error, but for a `method.exec`
without a method (`dispatchedOnce_iff`); and the flag makes the clients of one process depend on
each other (`isolated_iff`).
-/

namespace Tr50

/-! ## Handlers -/

/-- `strcmp(s, t) == 0` -/
def sameText (s t : List UInt8) : Bool := cut s = cut t

/-- `TR50_COMMAND_NAME_LEN` and `TR50_METHOD_NAME_LEN`. -/
def tr50NameLen : ℕ := 64

/-- `_TR50_COMMAND` or `_TR50_METHOD`.  A name that fills its array has no terminator of its own.
Here a comparison takes the padding behind it for one, which is what it finds where pointers have
eight bytes; `Api/Command` counts it as a read out of bounds, and says where the two agree. -/
structure Tr50Handler (γ : Type) where
  name : List UInt8
  callback : γ
deriving DecidableEq, Repr

/-- The handler with a copy of `name`. -/
def Tr50Handler.create {γ : Type} (name : List UInt8) (func : γ) : Tr50Handler γ :=
  ⟨(cut name).take tr50NameLen, func⟩

/-- `command_head` and `method_head`. -/
structure Tr50Handlers (γ μ : Type) where
  commands : List (Tr50Handler γ)
  methods : List (Tr50Handler μ)

/-- `method_registration_inuse`, and the handlers of each client. -/
structure Tr50Process (ι γ μ : Type) where
  methodRegistrationInuse : Bool
  client : ι → Tr50Handlers γ μ

/-- A call of `tr50_command_register` or `tr50_method_register`. -/
inductive Registration (ι γ μ : Type)
  | command (client : ι) (cmd : List UInt8) (func : γ)
  | method (client : ι) (methodName : List UInt8) (func : μ)

variable {ι γ μ : Type}

namespace Registration

def client : Registration ι γ μ → ι
  | command i _ _ => i
  | method i _ _ => i

def isMethod : Registration ι γ μ → Bool
  | command _ _ _ => false
  | method _ _ _ => true

end Registration

namespace Tr50Process

def init : Tr50Process ι γ μ := ⟨false, fun _ => ⟨[], []⟩⟩

variable [DecidableEq ι]

def tr50CommandRegister (p : Tr50Process ι γ μ) (i : ι) (cmd : List UInt8) (func : γ) :
    Tr50Process ι γ μ :=
  let handlers := { p.client i with commands := .create cmd func :: (p.client i).commands }
  { p with client := Function.update p.client i handlers }

def tr50MethodRegister (p : Tr50Process ι γ μ) (i : ι) (methodName : List UInt8) (func : μ) :
    Tr50Process ι γ μ :=
  let handlers := { p.client i with methods := .create methodName func :: (p.client i).methods }
  { methodRegistrationInuse := true, client := Function.update p.client i handlers }

def register (p : Tr50Process ι γ μ) : Registration ι γ μ → Tr50Process ι γ μ
  | .command i cmd func => p.tr50CommandRegister i cmd func
  | .method i methodName func => p.tr50MethodRegister i methodName func

/-- The process after the calls `regs`. -/
def after (regs : List (Registration ι γ μ)) : Tr50Process ι γ μ := regs.foldl register init

end Tr50Process

/-! ## Dispatch -/

/-- What comes of a message: a callback, or an error acknowledgement (`tr50_method_ack`,
`tr50_command_ack`). -/
inductive Dispatch (γ μ : Type)
  | command (func : γ) (id key command : List UInt8) (sender : Option (List UInt8))
      (params : Option Json)
  | method (func : μ) (id key methodName : List UInt8) (sender : Option (List UInt8))
      (params : Option Json)
  | ack (id : List UInt8) (status : ℤ) (errMessage : String)

/-- The id of the message that it comes of. -/
def Dispatch.id : Dispatch γ μ → List UInt8
  | command _ id _ _ _ _ => id
  | method _ id _ _ _ _ => id
  | ack id _ _ => id

section Process

variable (result : Dispatch γ μ → ℤ) (inuse : Bool) (handlers : Tr50Handlers γ μ)

/-- `tr50_method_process`; `result` is what the callbacks return. -/
def tr50MethodProcess (id key : List UInt8) (methodName : Option (List UInt8))
    (sender : Option (List UInt8)) (params : Option Json) : ℤ × List (Dispatch γ μ) :=
  if ¬ inuse then (0, [])
  else
    match methodName with
    | none => (errTr50MethodUnknown, [])
    | some methodName =>
      match handlers.methods.find? fun m => sameText m.name methodName with
      | some m =>
        let called := .method m.callback id key methodName sender params
        (result called, [called])
      | none => (errTr50MethodUnknown, [.ack id errTr50MethodUnknown "Unknown method"])

/-- `method.exec` -/
def methodExec : List UInt8 := cstring ['m', 'e', 't', 'h', 'o', 'd', '.', 'e', 'x', 'e', 'c']

/-- `tr50_command_process`. -/
def tr50CommandProcess (id key : List UInt8) (command : Option (List UInt8))
    (sender : Option (List UInt8)) (params : Option Json) : ℤ × List (Dispatch γ μ) :=
  match command with
  | none => (errTr50CmdUnknown, [])
  | some command =>
    if sameText command methodExec ∧ inuse then (0, [])
    else
      match handlers.commands.find? fun c => sameText c.name command with
      | some c =>
        let called := .command c.callback id key command sender params
        (result called, [called])
      | none => (errTr50CmdUnknown, [.ack id errTr50CmdUnknown "Unknown command"])

end Process

/-- A message of the mailbox that has an id, a thing key and a command. -/
structure MailboxMessage where
  id : List UInt8
  thingKey : List UInt8
  command : List UInt8
  sender : Option (List UInt8)
  params : Option Json

namespace MailboxMessage

/-- The fields of an item. -/
def ofItem (item : Option Json) : Option MailboxMessage :=
  let id := tr50JsonGetObjectItemAsString item (cstring ['i', 'd'])
  let thingKey := tr50JsonGetObjectItemAsString item
    (cstring ['t', 'h', 'i', 'n', 'g', 'K', 'e', 'y'])
  let command := tr50JsonGetObjectItemAsString item
    (cstring ['c', 'o', 'm', 'm', 'a', 'n', 'd'])
  let sender := tr50JsonGetObjectItemAsString item (cstring ['f', 'r', 'o', 'm'])
  let params := tr50JsonGetObjectItem item (cstring ['p', 'a', 'r', 'a', 'm', 's'])
  match id, thingKey, command with
  | some id, some thingKey, some command => some ⟨id, thingKey, command, sender, params⟩
  | _, _, _ => none

/-- The message is a `method.exec`. -/
def isMethodExec (m : MailboxMessage) : Bool := sameText m.command methodExec

/-- The method that it names. -/
def methodName (m : MailboxMessage) : Option (List UInt8) :=
  tr50JsonGetObjectItemAsString m.params (cstring ['m', 'e', 't', 'h', 'o', 'd'])

/-- The two calls of `_tr50_mailbox_check_callback`. -/
def dispatch (result : Dispatch γ μ → ℤ) (inuse : Bool) (handlers : Tr50Handlers γ μ)
    (m : MailboxMessage) : List (Dispatch γ μ) :=
  (if m.isMethodExec then
    (tr50MethodProcess result inuse handlers m.id m.thingKey m.methodName m.sender
      (tr50JsonGetObjectItem m.params (cstring ['p', 'a', 'r', 'a', 'm', 's']))).2
  else [])
  ++ (tr50CommandProcess result inuse handlers m.id m.thingKey (some m.command) m.sender
      m.params).2

end MailboxMessage

/-- The items of a reply, in the order of the loop. -/
def mailboxItems (reply : Tr50Reply) : List (Option Json) :=
  let params := tr50ReplyGetParams reply (cstring ['1'])
  let methods := tr50JsonGetObjectItem params
    (cstring ['m', 'e', 's', 's', 'a', 'g', 'e', 's'])
  (List.range (tr50JsonGetArraySize methods)).map fun i => tr50JsonGetArrayItem methods i

/-- The loop of `_tr50_mailbox_check_callback`. -/
def mailboxDispatch (result : Dispatch γ μ → ℤ) (inuse : Bool) (handlers : Tr50Handlers γ μ)
    (reply : Tr50Reply) : List (Dispatch γ μ) :=
  (mailboxItems reply).flatMap fun item =>
    match MailboxMessage.ofItem item with
    | none => []
    | some m => m.dispatch result inuse handlers

/-! ## Exactly once -/

/-- What comes of a list, one for each item, where no item yields more than one. -/
theorem forall₂_flatMap_iff {α β : Type} {R : α → β → Prop} {f : α → List β}
    (hf : ∀ a, f a = [] ∨ ∃ b, f a = [b] ∧ R a b) (l : List α) :
    List.Forall₂ R l (l.flatMap f) ↔ ∀ a ∈ l, f a ≠ [] := by
  have hle : ∀ l : List α, (l.flatMap f).length ≤ l.length := by
    intro l
    induction l with
    | nil => exact le_rfl
    | cons a l ih =>
      rw [List.flatMap_cons, List.length_append, List.length_cons]
      rcases hf a with h | ⟨b, h, -⟩ <;> rw [h]
        <;> simp only [List.length_nil, List.length_singleton] <;> omega
  induction l with
  | nil => simp
  | cons a l ih =>
    rw [List.flatMap_cons, List.forall_mem_cons]
    rcases hf a with h | ⟨b, h, hab⟩
    · rw [h, List.nil_append]
      refine iff_of_false (fun hall => ?_) fun hall => hall.1 rfl
      have hlength := hall.length_eq
      have hlt := hle l
      rw [List.length_cons] at hlength
      omega
    · rw [h, List.singleton_append, List.forall₂_cons]
      exact ⟨fun hall => ⟨by simp, ih.mp hall.2⟩, fun hall => ⟨hab, ih.mpr hall.2⟩⟩

section Once

variable (result : Dispatch γ μ → ℤ) (inuse : Bool) (handlers : Tr50Handlers γ μ)

/-- A message has been handled by a callback of the client, or refused. -/
def MailboxMessage.HandledBy (handlers : Tr50Handlers γ μ) (m : MailboxMessage) (d : Dispatch γ μ) :
    Prop :=
  d.id = m.id ∧
    match d with
    | .command func _ _ _ _ _ => ∃ c ∈ handlers.commands, c.callback = func
    | .method func _ _ _ _ _ => ∃ c ∈ handlers.methods, c.callback = func
    | .ack _ status _ => status ≠ 0

/-- The messages of a reply. -/
def mailboxMessages (reply : Tr50Reply) : List MailboxMessage :=
  (mailboxItems reply).filterMap MailboxMessage.ofItem

theorem mailboxDispatch_eq (reply : Tr50Reply) :
    mailboxDispatch result inuse handlers reply
      = (mailboxMessages reply).flatMap fun m => m.dispatch result inuse handlers := by
  unfold mailboxDispatch mailboxMessages
  induction mailboxItems reply with
  | nil => rfl
  | cons item items ih =>
    rw [List.flatMap_cons, ih]
    cases h : MailboxMessage.ofItem item with
    | none => rw [List.filterMap_cons_none h, List.nil_append]
    | some m => rw [List.filterMap_cons_some h, List.flatMap_cons]

/-- A method that is looked for is called, or refused… -/
theorem tr50MethodProcess_some (m : MailboxMessage) (methodName key : List UInt8)
    (sender : Option (List UInt8)) (params : Option Json) :
    ∃ d, (tr50MethodProcess result true handlers m.id key (some methodName) sender params).2 = [d]
      ∧ m.HandledBy handlers d := by
  simp only [tr50MethodProcess, not_true_eq_false, if_false]
  cases h : handlers.methods.find? fun c => sameText c.name methodName with
  | none =>
    exact ⟨.ack m.id _ _, rfl, rfl, (by decide : errTr50MethodUnknown ≠ 0)⟩
  | some c => exact ⟨.method c.callback m.id _ _ _ _, rfl, rfl, c, List.mem_of_find?_eq_some h, rfl⟩

/-- …and so is a command, if it is not left to the methods. -/
theorem tr50CommandProcess_some (m : MailboxMessage) (command : List UInt8)
    (h : ¬ (sameText command methodExec ∧ inuse)) (key : List UInt8)
    (sender : Option (List UInt8)) (params : Option Json) :
    ∃ d, (tr50CommandProcess result inuse handlers m.id key (some command) sender params).2 = [d]
      ∧ m.HandledBy handlers d := by
  simp only [tr50CommandProcess, if_neg h]
  cases h : handlers.commands.find? fun c => sameText c.name command with
  | none => exact ⟨.ack m.id _ _, rfl, rfl, (by decide : errTr50CmdUnknown ≠ 0)⟩
  | some c =>
    exact ⟨.command c.callback m.id _ _ _ _, rfl, rfl, c, List.mem_of_find?_eq_some h, rfl⟩

namespace MailboxMessage

variable {m : MailboxMessage}

/-- A `method.exec` is left to the methods where there are any… -/
theorem dispatch_exec (h : m.isMethodExec) : m.dispatch result true handlers
    = (tr50MethodProcess result true handlers m.id m.thingKey m.methodName m.sender
        (tr50JsonGetObjectItem m.params (cstring ['p', 'a', 'r', 'a', 'm', 's']))).2 := by
  have hcommand : (tr50CommandProcess result true handlers m.id m.thingKey (some m.command)
      m.sender m.params).2 = [] := by
    rw [isMethodExec] at h
    simp only [tr50CommandProcess, h, and_self, if_true]
  rw [dispatch, if_pos h, hcommand, List.append_nil]

/-- …and everything else to the commands. -/
theorem dispatch_command (h : ¬ (m.isMethodExec ∧ inuse)) : m.dispatch result inuse handlers
    = (tr50CommandProcess result inuse handlers m.id m.thingKey (some m.command) m.sender
        m.params).2 := by
  rw [dispatch]
  split_ifs with hexec
  · have hinuse : inuse = false := by simpa [hexec] using h
    rw [hinuse]
    rfl
  · rfl

/-- **A message is handled by one callback or refused once**, but for a `method.exec` without a
method while methods are in use. -/
theorem dispatch_cases (m : MailboxMessage) :
    ((inuse ∧ m.isMethodExec ∧ m.methodName = none) ∧ m.dispatch result inuse handlers = [])
    ∨ ¬ (inuse ∧ m.isMethodExec ∧ m.methodName = none)
      ∧ ∃ d, m.dispatch result inuse handlers = [d] ∧ m.HandledBy handlers d := by
  by_cases h : m.isMethodExec ∧ inuse
  · obtain ⟨hexec, rfl⟩ := h
    rw [dispatch_exec result handlers hexec]
    cases hname : m.methodName with
    | none => exact Or.inl ⟨⟨rfl, hexec, rfl⟩, by simp [tr50MethodProcess]⟩
    | some methodName =>
      exact Or.inr ⟨by simp, tr50MethodProcess_some result handlers m _ _ _ _⟩
  · rw [dispatch_command result inuse handlers h]
    refine Or.inr ⟨fun hcon => h ⟨hcon.2.1, hcon.1⟩, ?_⟩
    exact tr50CommandProcess_some result inuse handlers m _ h _ _ _

end MailboxMessage

/-- Each message of a reply is dispatched exactly once, in order. -/
def DispatchedOnce (reply : Tr50Reply) : Prop :=
  List.Forall₂ (MailboxMessage.HandledBy handlers) (mailboxMessages reply)
    (mailboxDispatch result inuse handlers reply)

/-- **Each message is dispatched exactly once if and only if** every `method.exec` names a method,
or no methods are in use. -/
theorem dispatchedOnce_iff (reply : Tr50Reply) : DispatchedOnce result inuse handlers reply ↔
    (inuse → ∀ m ∈ mailboxMessages reply, m.isMethodExec → m.methodName ≠ none) := by
  unfold DispatchedOnce
  rw [mailboxDispatch_eq]
  have hone : ∀ m : MailboxMessage, m.dispatch result inuse handlers = []
      ∨ ∃ d, m.dispatch result inuse handlers = [d] ∧ m.HandledBy handlers d := by
    intro m
    exact (m.dispatch_cases result inuse handlers).imp And.right And.right
  rw [forall₂_flatMap_iff hone]
  constructor
  · intro h hinuse m hm hexec hname
    rcases m.dispatch_cases result inuse handlers with ⟨-, hnil⟩ | ⟨hnot, -⟩
    · exact h m hm hnil
    · exact hnot ⟨hinuse, hexec, hname⟩
  · intro h m hm hnil
    rcases m.dispatch_cases result inuse handlers with ⟨hstranded, -⟩ | ⟨-, d, hd, -⟩
    · exact h hstranded.1 m hm hstranded.2.1 hstranded.2.2
    · rw [hnil] at hd
      cases hd

end Once

/-- A reply with the messages `items`. -/
def Tr50Reply.ofMessages (items : List Json) : Tr50Reply :=
  ⟨.object [(cstring ['1'], .object [(cstring ['p', 'a', 'r', 'a', 'm', 's'],
    .object [(cstring ['m', 'e', 's', 's', 'a', 'g', 'e', 's'], .array items)])])], true, 1⟩

/-- A message with the id `7` for the command `command`. -/
def messageItem (command : List UInt8) (params : Json) : Json :=
  .object [(cstring ['i', 'd'], .string [55]),
    (cstring ['t', 'h', 'i', 'n', 'g', 'K', 'e', 'y'], .string [116]),
    (cstring ['c', 'o', 'm', 'm', 'a', 'n', 'd'], .string command),
    (cstring ['p', 'a', 'r', 'a', 'm', 's'], params)]

/-- A client with the method `a`. -/
def methodClient : Tr50Process Unit Unit Unit := .after [.method () [97] ()]

/-- **A `method.exec` without a method is neither handled nor refused.** -/
theorem not_dispatchedOnce_nameless :
    ¬ ∀ reply, DispatchedOnce (fun _ => 0) methodClient.methodRegistrationInuse
      (methodClient.client ()) reply := by
  intro h
  have hall := h (.ofMessages [messageItem methodExec (.object [])])
  have heval : ((mailboxMessages (.ofMessages [messageItem methodExec (.object [])])).length,
      (mailboxDispatch (fun _ => 0) methodClient.methodRegistrationInuse (methodClient.client ())
        (.ofMessages [messageItem methodExec (.object [])])).length) = (1, 0) := by
    decide +kernel
  obtain ⟨hmessages, hdispatched⟩ := Prod.mk.inj heval
  have hlength := List.Forall₂.length_eq hall
  omega

/-! ## Isolation -/

namespace Tr50Process

variable [DecidableEq ι]

theorem after_concat (regs : List (Registration ι γ μ)) (r : Registration ι γ μ) :
    after (regs ++ [r]) = (after regs).register r := by
  rw [after, List.foldl_append]
  rfl

/-- The flag tells of any method… -/
theorem inuse_after (regs : List (Registration ι γ μ)) :
    (after regs).methodRegistrationInuse = regs.any Registration.isMethod := by
  induction regs using List.reverseRecOn with
  | nil => rfl
  | append_singleton regs r ih =>
    rw [after_concat, List.any_append]
    cases r with
    | command i cmd func => simpa [register, tr50CommandRegister, Registration.isMethod] using ih
    | method i methodName func => simp [register, tr50MethodRegister, Registration.isMethod]

theorem client_register_of_ne {p : Tr50Process ι γ μ} {r : Registration ι γ μ} {i : ι}
    (h : r.client ≠ i) : (p.register r).client i = p.client i := by
  cases r with
  | command j cmd func => exact Function.update_of_ne (Ne.symm h) _ _
  | method j methodName func => exact Function.update_of_ne (Ne.symm h) _ _

theorem client_register {p q : Tr50Process ι γ μ} {r : Registration ι γ μ}
    (h : p.client r.client = q.client r.client) :
    (p.register r).client r.client = (q.register r).client r.client := by
  cases r with
  | command j cmd func =>
    simp only [Registration.client] at h
    simp [register, tr50CommandRegister, Registration.client, h]
  | method j methodName func =>
    simp only [Registration.client] at h
    simp [register, tr50MethodRegister, Registration.client, h]

/-- …the handlers of a client only of its own registrations… -/
theorem client_after (regs : List (Registration ι γ μ)) (i : ι) :
    (after regs).client i = (after (regs.filter fun r => r.client = i)).client i := by
  induction regs using List.reverseRecOn with
  | nil => rfl
  | append_singleton regs r ih =>
    rw [after_concat, List.filter_append]
    by_cases hr : r.client = i
    · subst hr
      rw [List.filter_cons_of_pos (by simp), List.filter_nil, after_concat]
      exact client_register ih
    · rw [List.filter_cons_of_neg (by simpa using hr), List.filter_nil, List.append_nil, ← ih]
      exact client_register_of_ne hr

/-- …and it has methods only if it has registered one. -/
theorem methods_after {regs : List (Registration ι γ μ)} {i : ι}
    (h : ∀ r ∈ regs, r.client = i → r.isMethod = false) : ((after regs).client i).methods = [] := by
  induction regs using List.reverseRecOn with
  | nil => rfl
  | append_singleton regs r ih =>
    have hregs := ih fun r hr => h r (List.mem_append_left _ hr)
    rw [after_concat]
    by_cases hr : r.client = i
    · have hmethod := h r (by simp) hr
      cases r with
      | command j cmd func =>
        obtain rfl : j = i := hr
        simpa [register, tr50CommandRegister] using hregs
      | method j methodName func => cases hmethod
    · rw [client_register_of_ne hr, hregs]

end Tr50Process

section Isolated

variable [DecidableEq ι] (result : Dispatch γ μ → ℤ)

/-- What comes of an item that is delivered to the client `i`. -/
def deliverItem (regs : List (Registration ι γ μ)) (i : ι) (item : Option Json) :
    List (Dispatch γ μ) :=
  match MailboxMessage.ofItem item with
  | none => []
  | some m =>
    m.dispatch result (Tr50Process.after regs).methodRegistrationInuse
      ((Tr50Process.after regs).client i)

/-- Two runs that differ in what is registered on `a` at most. -/
def DifferOn (a : ι) (regs regs' : List (Registration ι γ μ)) : Prop :=
  regs.filter (fun r => r.client ≠ a) = regs'.filter fun r => r.client ≠ a

/-- The client `a` has a method. -/
def HasMethod (a : ι) (regs : List (Registration ι γ μ)) : Prop :=
  ∃ r ∈ regs, r.client = a ∧ r.isMethod

/-- Somebody else has one. -/
def OtherMethod (a : ι) (regs : List (Registration ι γ μ)) : Prop :=
  ∃ r ∈ regs, r.client ≠ a ∧ r.isMethod

variable {a b : ι} {regs regs' : List (Registration ι γ μ)}

theorem inuse_iff (a : ι) (regs : List (Registration ι γ μ)) :
    (Tr50Process.after regs).methodRegistrationInuse ↔ OtherMethod a regs ∨ HasMethod a regs := by
  rw [Tr50Process.inuse_after, List.any_eq_true]
  constructor
  · rintro ⟨r, hr, hmethod⟩
    by_cases ha : r.client = a
    · exact Or.inr ⟨r, hr, ha, hmethod⟩
    · exact Or.inl ⟨r, hr, ha, hmethod⟩
  · rintro (⟨r, hr, -, hmethod⟩ | ⟨r, hr, -, hmethod⟩) <;> exact ⟨r, hr, hmethod⟩

theorem DifferOn.otherMethod (h : DifferOn a regs regs') :
    OtherMethod a regs ↔ OtherMethod a regs' := by
  have hmem : ∀ r : Registration ι γ μ, r.client ≠ a → (r ∈ regs ↔ r ∈ regs') := by
    intro r hr
    have hfilter : r ∈ regs.filter (fun r => r.client ≠ a)
        ↔ r ∈ regs'.filter fun r => r.client ≠ a := by rw [h]
    simpa [hr] using hfilter
  constructor <;> rintro ⟨r, hr, ha, hmethod⟩
  · exact ⟨r, (hmem r ha).mp hr, ha, hmethod⟩
  · exact ⟨r, (hmem r ha).mpr hr, ha, hmethod⟩

/-- What others register is the same for the client `b`. -/
theorem DifferOn.client (h : DifferOn a regs regs') (hab : b ≠ a) :
    (Tr50Process.after regs).client b = (Tr50Process.after regs').client b := by
  have hfilter : ∀ l : List (Registration ι γ μ), l.filter (fun r => r.client = b)
      = (l.filter fun r => r.client ≠ a).filter fun r => r.client = b := by
    intro l
    rw [List.filter_filter]
    refine List.filter_congr fun r _ => ?_
    by_cases hr : r.client = b <;> simp [hr, hab]
  rw [Tr50Process.client_after regs, Tr50Process.client_after regs', hfilter regs, hfilter regs',
    show regs.filter (fun r => r.client ≠ a) = regs'.filter fun r => r.client ≠ a from h]

/-- The two processors never agree on a `method.exec` of a client without methods. -/
theorem MailboxMessage.dispatch_ne {m : MailboxMessage} (hexec : m.isMethodExec)
    {handlers : Tr50Handlers γ μ} (hnone : handlers.methods = []) :
    m.dispatch result true handlers ≠ m.dispatch result false handlers := by
  rw [dispatch_exec result handlers hexec, dispatch_command result false handlers (by simp)]
  cases hname : m.methodName with
  | none =>
    obtain ⟨d, hd, -⟩ := tr50CommandProcess_some result false handlers m m.command
      (by simp) m.thingKey m.sender m.params
    rw [hd]
    simp [tr50MethodProcess]
  | some methodName =>
    simp only [tr50MethodProcess, tr50CommandProcess, hnone, List.find?_nil]
    cases hfind : handlers.commands.find? fun c => sameText c.name m.command with
    | none => simp [errTr50MethodUnknown, errTr50CmdUnknown]
    | some c => simp

/-- The flag decides about a `method.exec` only. -/
theorem MailboxMessage.dispatch_plain {m : MailboxMessage} (hexec : m.isMethodExec = false)
    (inuse inuse' : Bool) (handlers : Tr50Handlers γ μ) :
    m.dispatch result inuse handlers = m.dispatch result inuse' handlers := by
  have htext : sameText m.command methodExec = false := hexec
  rw [dispatch_command result inuse handlers (by simp [hexec]),
    dispatch_command result inuse' handlers (by simp [hexec])]
  simp [tr50CommandProcess, htext]

theorem deliverItem_some {item : Option Json} {m : MailboxMessage}
    (h : MailboxMessage.ofItem item = some m) (regs : List (Registration ι γ μ)) (i : ι) :
    deliverItem result regs i item
      = m.dispatch result (Tr50Process.after regs).methodRegistrationInuse
          ((Tr50Process.after regs).client i) := by
  rw [deliverItem, h]

/-- Where one run has methods and the other has none, a `method.exec` tells them apart. -/
theorem DifferOn.deliverItem_ne (h : DifferOn a regs regs') (hab : b ≠ a) {item : Option Json}
    {m : MailboxMessage} (hitem : MailboxMessage.ofItem item = some m) (hexec : m.isMethodExec)
    (hother : ¬ OtherMethod a regs)
    (hinuse : (Tr50Process.after regs).methodRegistrationInuse
      ≠ (Tr50Process.after regs').methodRegistrationInuse) :
    deliverItem result regs b item ≠ deliverItem result regs' b item := by
  have hmethods : ((Tr50Process.after regs).client b).methods = [] := by
    refine Tr50Process.methods_after fun r hr hb => ?_
    by_contra hmethod
    exact hother ⟨r, hr, by rw [hb]; exact hab, by simpa using hmethod⟩
  rw [deliverItem_some result hitem, deliverItem_some result hitem, ← h.client hab]
  cases htrue : (Tr50Process.after regs).methodRegistrationInuse with
  | true =>
    rw [htrue] at hinuse
    rw [show (Tr50Process.after regs').methodRegistrationInuse = false by simpa using hinuse.symm]
    exact m.dispatch_ne result hexec hmethods
  | false =>
    rw [htrue] at hinuse
    rw [show (Tr50Process.after regs').methodRegistrationInuse = true by simpa using hinuse.symm]
    exact (m.dispatch_ne result hexec hmethods).symm

/-- **What comes of a message of `b` depends on `a`** exactly where it is a `method.exec`, nobody
but `a` has a method, and `a` has one in one of the two runs only. -/
theorem isolated_iff (hab : b ≠ a) (h : DifferOn a regs regs') (item : Option Json) :
    deliverItem result regs b item = deliverItem result regs' b item ↔
      (∀ m, MailboxMessage.ofItem item = some m → m.isMethodExec = false)
      ∨ OtherMethod a regs ∨ (HasMethod a regs ↔ HasMethod a regs') := by
  have hinuse : (Tr50Process.after regs).methodRegistrationInuse
      = (Tr50Process.after regs').methodRegistrationInuse
      ↔ OtherMethod a regs ∨ (HasMethod a regs ↔ HasMethod a regs') := by
    rw [Bool.eq_iff_iff, inuse_iff a, inuse_iff a, ← h.otherMethod]
    tauto
  cases hitem : MailboxMessage.ofItem item with
  | none => simp [deliverItem, hitem]
  | some m =>
    constructor
    · intro heq
      by_contra hcon
      rw [not_or, ← hinuse] at hcon
      have hexec : m.isMethodExec := by
        by_contra hexec
        refine hcon.1 fun m' hm' => ?_
        rw [← Option.some.inj hm']
        simpa using hexec
      refine h.deliverItem_ne result hab hitem hexec (fun hother => ?_) hcon.2 heq
      exact hcon.2 (hinuse.mpr (Or.inl hother))
    · rintro (hplain | hsame)
      · rw [deliverItem_some result hitem, deliverItem_some result hitem, h.client hab]
        exact m.dispatch_plain result (hplain m rfl) _ _ _
      · rw [deliverItem_some result hitem, deliverItem_some result hitem, h.client hab,
          hinuse.mpr hsame]

end Isolated

/-- The first client has a handler for `method.exec`, which is what it is sent. -/
def commandOnly : List (Registration Bool Unit Unit) := [.command false methodExec ()]

/-- In one run it is as if the second one had no method… -/
theorem isolated_iff_command :
    deliverItem (fun _ => 0) commandOnly false (some (messageItem [97] .null))
      = deliverItem (fun _ => 0) (commandOnly ++ [.method true [97] ()]) false
          (some (messageItem [97] .null)) :=
  (isolated_iff (fun _ => 0) (by decide : false ≠ true) (by unfold DifferOn; rfl) _).mpr
    (Or.inl fun m hm => by
      obtain rfl : m = ⟨[55], [116], [97], none, some .null⟩ :=
        (Option.some.inj hm).symm
      decide)

/-- **…in the other the method of the second client silences the first one.** -/
theorem not_isolated_methodExec :
    ¬ ∀ (regs regs' : List (Registration Bool Unit Unit)) (item : Option Json),
      DifferOn true regs regs' →
      deliverItem (fun _ => 0) regs false item = deliverItem (fun _ => 0) regs' false item := by
  intro h
  have heq := h commandOnly (commandOnly ++ [.method true [97] ()])
    (some (messageItem methodExec (.object []))) (by unfold DifferOn; rfl)
  have heval : ((deliverItem (fun _ => 0) commandOnly false
        (some (messageItem methodExec (.object [])))).length,
      (deliverItem (fun _ => 0) (commandOnly ++ [.method true [97] ()]) false
        (some (messageItem methodExec (.object [])))).length) = (1, 0) := by
    decide +kernel
  obtain ⟨hone, hnone⟩ := Prod.mk.inj heval
  rw [heq, hnone] at hone
  cases hone

end Tr50
