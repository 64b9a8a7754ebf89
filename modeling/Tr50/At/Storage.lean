import Tr50.Machinery.Slots
import Tr50.Api.Mailbox
import Tr50.Api.Reply

/-!
# At/Storage — results that wait to be fetched

`g_tr50_at_storage` with `_tr50_at_storage_put` and `_tr50_at_storage_get`, and what is stored of a
reply.  A result is filed under an id and a mode; it is put into the first slot that is free, and
fetched from the first one that is filed under the id and not held back for its mode.

How a number and how a whole message print is left open (`JsonText`).
-/

namespace Tr50

open Machinery

/-! ## Replies -/

/-- `%d` -/
def decimal (n : ℤ) : List UInt8 := cstring (toString n).toList

/-- An item as the modem is given it; arrays and objects are passed over. -/
def itemText (text : JsonText) (child : Option (List UInt8) × Json) : Option (List UInt8) :=
  let name := cut (child.1.getD (cstring "(null)".toList)) ++ [ch ',']
  match child.2 with
  | .false => some (name ++ cstring "false".toList)
  | .true => some (name ++ cstring "true".toList)
  | .number number => some (name ++ text.number number)
  | .string valuestring => some (name ++ cut valuestring)
  | _ => none

/-- The parameters of a reply, with the commas also of those that are passed over. -/
def delimitedText (text : JsonText) (reply : Tr50Reply) : List UInt8 :=
  match (tr50ReplyGetParams reply (cstring ['1'])).map Json.child with
  | some (child :: children) =>
    [ch ','].intercalate ((child :: children).map fun c => (itemText text c).getD [])
  | _ => cstring ['O', 'K']

/-! ## Slots -/

/-- `TR50_AT_SEND_MODE_DELIMITED`, `TR50_AT_SEND_MODE_RAW`, `TR50_AT_SEND_MODE_METHOD` -/
def tr50AtSendModeDelimited : ℤ := 1
def tr50AtSendModeRaw : ℤ := 2
def tr50AtSendModeMethod : ℤ := 3

def tr50AtStorageSize : ℕ := 20

structure AtStorage where
  id : ℤ
  outputStr : List UInt8
  outputLen : ℕ
  isUsed : Bool
  mode : ℤ
  status : ℤ
  /-- The request whose result it is; nothing reads it. -/
  owner : Option ℕ
deriving DecidableEq, Repr

/-- `g_tr50_at_storage`, `g_tr50_at_storage_count` -/
structure AtTable where
  slots : List AtStorage
  count : ℤ
deriving DecidableEq, Repr

def AtTable.init : AtTable := ⟨.replicate tr50AtStorageSize ⟨0, [], 0, false, 0, 0, none⟩, 0⟩

/-! ## Putting -/

/-- `void *message`: what it is as a string, and as a message.  A caller means one of them, and the
mode says which one is read. -/
structure AtMessage where
  text : List UInt8
  reply : Tr50Reply

/-- A string… -/
def AtMessage.ofText (text : List UInt8) : AtMessage := ⟨text, ⟨.null, false, 0⟩⟩

/-- …and a message, as its callers mean them. -/
def AtMessage.ofReply (reply : Tr50Reply) : AtMessage := ⟨[], reply⟩

/-- What is stored of it: its status, and the output with its length. -/
def AtMessage.output (text : JsonText) (mode : ℤ) (message : AtMessage) :
    Option (ℤ × List UInt8 × ℕ) :=
  if mode = tr50AtSendModeMethod then some (0, message.text, strlen message.text)
  else
    match tr50ReplyGetError text message.reply (cstring ['1']) with
    | (error, errorMessage) =>
      if error ≠ 0 then
        let output := match errorMessage with
          | some errorMessage => cstring "Failed: ".toList ++ errorMessage
          | none => cstring "Failed without message.".toList
        some (1, output, output.length)
      else if mode = tr50AtSendModeDelimited then
        some (0, delimitedText text message.reply, (delimitedText text message.reply).length)
      else if mode = tr50AtSendModeRaw then
        some (0, text.print message.reply.json, strlen (text.print message.reply.json))
      else none

/-- Anything is stored in a mode that is known, and the failure of a request in any mode. -/
theorem AtMessage.output_isSome (text : JsonText) (mode : ℤ) (message : AtMessage) :
    (message.output text mode).isSome
      ↔ (mode = tr50AtSendModeMethod ∨ mode = tr50AtSendModeDelimited ∨ mode = tr50AtSendModeRaw)
        ∨ (tr50ReplyGetError text message.reply (cstring ['1'])).1 ≠ 0 := by
  rw [AtMessage.output]
  generalize tr50ReplyGetError text message.reply (cstring ['1']) = error
  obtain ⟨error, errorMessage⟩ := error
  dsimp only
  split_ifs <;> simp [*]

/-- A put that has found its slot, and what it is about to store there. -/
structure AtStoring where
  index : ℕ
  slot : AtStorage
deriving DecidableEq, Repr

/-- `_tr50_at_storage_put`, up to what it stores: its error, or the first slot that is free… -/
def tr50AtStorageFind (text : JsonText) (table : AtTable) (message : AtMessage) (mode id : ℤ)
    (owner : Option ℕ) : Except ℤ AtStoring :=
  if table.count > tr50AtStorageSize then .error errTr50AtStorageFull
  else
    match Slots.freeIdx AtStorage.isUsed table.slots with
    | none => .error errTr50AtStorageFull
    | some index =>
      match message.output text mode with
      | none => .error errTr50AtSendModeUnknown
      | some (status, output, len) => .ok ⟨index, ⟨id, output, len, true, mode, status, owner⟩⟩

/-- …and the stores. -/
def AtTable.store (table : AtTable) (storing : AtStoring) : AtTable :=
  ⟨table.slots.set storing.index storing.slot, table.count + 1⟩

structure AtPut where
  ret : ℤ
  table : AtTable
  /-- `*len`, if it is written. -/
  len : Option ℕ

/-- `_tr50_at_storage_put` -/
def tr50AtStoragePut (text : JsonText) (table : AtTable) (message : AtMessage) (mode id : ℤ)
    (owner : Option ℕ) : AtPut :=
  match tr50AtStorageFind text table message mode id owner with
  | .error ret => ⟨ret, table, none⟩
  | .ok storing => ⟨0, table.store storing, some storing.slot.outputLen⟩

/-! ## Getting -/

/-- The slot is filed under the id, and not held back for its mode: the text of a method call is
from `AT#DWRCVR`. -/
def AtStorage.found (id mode : ℤ) (slot : AtStorage) : Bool :=
  slot.isUsed && slot.id = id
    && !(slot.mode ≠ mode && slot.mode = tr50AtSendModeMethod && mode ≠ tr50AtSendModeDelimited)

/-- A slot is handed out, and freed. -/
def AtTable.giveUp (table : AtTable) (index : ℕ) : Option (AtStorage × AtTable) :=
  (Slots.giveUp (fun slot : AtStorage => { slot with isUsed := false }) table.slots index).map
    fun p => (p.1, ⟨p.2, table.count - 1⟩)

/-- `_tr50_at_storage_get`; `none` is `ERR_TR50_AT_STORAGE_NOTFOUND`. -/
def tr50AtStorageGet (table : AtTable) (id mode : ℤ) : Option (AtStorage × AtTable) :=
  (table.slots.findIdx? (AtStorage.found id mode)).bind table.giveUp

/-- `"%d,%d,%d,%s"` -/
def AtStorage.line (msgId : ℤ) (slot : AtStorage) : List UInt8 :=
  [ch ','].intercalate [decimal msgId, decimal slot.status, decimal slot.outputLen,
    cut slot.outputStr]

/-- `_tr50_at_cmd_dwrcvr_set` and `_tr50_at_cmd_dwrcv_set`: what they print, and the table they
leave. -/
def tr50AtCmdReceive (table : AtTable) (mode msgId : ℤ) : List UInt8 × AtTable :=
  match tr50AtStorageGet table msgId mode with
  | none => (cstring "Failed : ".toList ++ decimal errTr50AtStorageNotfound, table)
  | some (slot, table) => (slot.line msgId, table)

def tr50AtCmdDwrcvrSet (table : AtTable) (msgIdStr : List UInt8) : List UInt8 × AtTable :=
  tr50AtCmdReceive table tr50AtSendModeRaw (atoi msgIdStr)

def tr50AtCmdDwrcvSet (table : AtTable) (msgIdStr : List UInt8) : List UInt8 × AtTable :=
  tr50AtCmdReceive table tr50AtSendModeDelimited (atoi msgIdStr)

/-! ## Listing -/

/-- `",%d,%d"` -/
def AtStorage.entry (slot : AtStorage) : List UInt8 :=
  ch ',' :: decimal slot.id ++ ch ',' :: decimal slot.outputLen

/-- `_tr50_at_storage_list` -/
def tr50AtStorageList (table : AtTable) : List UInt8 :=
  table.slots.foldl (fun blob slot => if slot.isUsed then blob ++ slot.entry else blob)
    (decimal table.count)

/-! ## What a table holds -/

namespace AtTable

variable {text : JsonText} {table : AtTable} {message : AtMessage} {mode id : ℤ}
  {owner : Option ℕ} {slot : AtStorage}

/-- The requests whose results are stored. -/
def owners (table : AtTable) : List ℕ :=
  table.slots.filterMap fun slot => if slot.isUsed then slot.owner else none

theorem mem_owners {handle : ℕ} :
    handle ∈ table.owners ↔ ∃ slot ∈ table.slots, slot.isUsed ∧ slot.owner = some handle := by
  simp [owners, List.mem_filterMap]

/-- What a put has found: a slot that is free, for what it is given. -/
structure Finds (table : AtTable) (mode id : ℤ) (owner : Option ℕ) (storing : AtStoring) :
    Prop where
  free : ∃ free, table.slots[storing.index]? = some free ∧ free.isUsed = false
  used : storing.slot.isUsed
  id_eq : storing.slot.id = id
  mode_eq : storing.slot.mode = mode
  owner_eq : storing.slot.owner = owner

theorem find_cases (text : JsonText) (table : AtTable) (message : AtMessage) (mode id : ℤ)
    (owner : Option ℕ) :
    (∃ ret, tr50AtStorageFind text table message mode id owner = .error ret ∧ ret ≠ 0
      ∧ (tr50AtStorageSize < table.count ∨ (∀ slot ∈ table.slots, slot.isUsed)
        ∨ message.output text mode = none))
    ∨ ∃ storing, tr50AtStorageFind text table message mode id owner = .ok storing
      ∧ (message.output text mode).isSome ∧ Finds table mode id owner storing := by
  have hfull : errTr50AtStorageFull ≠ 0 := by decide
  unfold tr50AtStorageFind
  split_ifs with hcount
  · exact Or.inl ⟨_, rfl, hfull, Or.inl hcount⟩
  cases hfree : Slots.freeIdx AtStorage.isUsed table.slots with
  | none =>
    rw [← Option.not_isSome_iff_eq_none, Slots.freeIdx_isSome] at hfree
    refine Or.inl ⟨_, rfl, hfull, Or.inr (Or.inl fun slot hslot => ?_)⟩
    by_contra hunused
    exact hfree ⟨slot, hslot, Bool.eq_false_iff.mpr hunused⟩
  | some index =>
    cases message.output text mode with
    | none => exact Or.inl ⟨_, rfl, by decide, Or.inr (Or.inr rfl)⟩
    | some output =>
      obtain ⟨status, output, len⟩ := output
      exact Or.inr ⟨_, rfl, rfl, Slots.freeIdx_eq_some hfree, rfl, rfl, rfl, rfl⟩

/-- The stores add their slot to what is held… -/
theorem store_owners {storing : AtStoring} (h : Finds table mode id owner storing) :
    (table.store storing).owners.Perm (owner.toList ++ table.owners) := by
  obtain ⟨free, hfree, hunused⟩ := h.free
  have hperm := Slots.perm_fill (f := fun slot : AtStorage => if slot.isUsed then slot.owner else
    none) hfree (by rw [hunused]; rfl) storing.slot
  rwa [if_pos h.used, h.owner_eq] at hperm

/-- …and a slot that is given up is taken out of it. -/
theorem giveUp_owners {index : ℕ} {table' : AtTable}
    (h : table.giveUp index = some (slot, table')) :
    slot ∈ table.slots ∧ (∀ other ∈ table'.slots, other.isUsed → other ∈ table.slots)
    ∧ (slot.isUsed → table.owners.Perm (slot.owner.toList ++ table'.owners)) := by
  obtain ⟨⟨found, slots⟩, hgive, heq⟩ := Option.map_eq_some_iff.mp h
  obtain ⟨rfl, rfl⟩ := Prod.mk.injEq .. ▸ heq
  refine ⟨Slots.mem_of_giveUp hgive, fun other hother hused => ?_, fun hused => ?_⟩
  · rcases Slots.mem_giveUp hgive hother with rfl | hother
    · cases hused
    · exact hother
  · have hperm := Slots.perm_giveUp (f := fun slot => if slot.isUsed then slot.owner else none)
      (fun _ => rfl) hgive
    rw [if_pos hused] at hperm
    exact hperm

/-- A get is the search of a slot that passes its test, and what is done with that. -/
theorem get_eq_some_iff {table' : AtTable} :
    tr50AtStorageGet table id mode = some (slot, table')
      ↔ ∃ i, table.slots.findIdx? (AtStorage.found id mode) = some i
        ∧ table.giveUp i = some (slot, table') := Option.bind_eq_some_iff

/-! ## What it counts -/

/-- The slots that are used. -/
def used (table : AtTable) : List AtStorage := table.slots.filter (·.isUsed)

/-- The count is that of the used slots. -/
structure Counted (table : AtTable) : Prop where
  length : table.slots.length = tr50AtStorageSize
  count : table.count = table.used.length

theorem counted_init : Counted init := ⟨List.length_replicate, by decide⟩

theorem Counted.count_mem (h : Counted table) :
    0 ≤ table.count ∧ table.count ≤ tr50AtStorageSize := by
  have hle : table.used.length ≤ table.slots.length := (List.filter_sublist).length_le
  have hlength := h.length
  have hcount := h.count
  omega

/-- A slot that is replaced is counted as what it becomes. -/
theorem length_used_set {i : ℕ} {old : AtStorage} (hold : table.slots[i]? = some old)
    (slot : AtStorage) (count : ℤ) :
    (if old.isUsed then 1 else 0) + (used ⟨table.slots.set i slot, count⟩).length
      = (if slot.isUsed then 1 else 0) + table.used.length := by
  have hfilter : ∀ l : List AtStorage,
      l.filterMap (fun slot => if slot.isUsed then some slot else none)
        = l.filter (·.isUsed) := fun l => by
    rw [← List.filterMap_eq_filter]
    rfl
  have hone : ∀ slot : AtStorage, (if slot.isUsed then some slot else none).toList.length
      = if slot.isUsed then 1 else 0 := fun slot => by
    split_ifs <;> rfl
  have hperm := (Slots.perm_set (fun slot => if slot.isUsed then some slot else none) slot
    hold).length_eq
  rwa [hfilter, hfilter, List.length_append, List.length_append, hone, hone] at hperm

/-- What a put does: it is refused, and leaves the table, or fills a slot that was free, and counts
it. -/
theorem put_cases (text : JsonText) (table : AtTable) (message : AtMessage) (mode id : ℤ)
    (owner : Option ℕ) :
    ((tr50AtStoragePut text table message mode id owner).ret ≠ 0
      ∧ (tr50AtStoragePut text table message mode id owner).table = table
      ∧ (tr50AtStorageSize < table.count ∨ (∀ slot ∈ table.slots, slot.isUsed)
        ∨ message.output text mode = none))
    ∨ ((tr50AtStoragePut text table message mode id owner).ret = 0
      ∧ (message.output text mode).isSome
      ∧ ∃ storing, Finds table mode id owner storing
        ∧ (tr50AtStoragePut text table message mode id owner).table = table.store storing) := by
  rw [tr50AtStoragePut]
  rcases find_cases text table message mode id owner with
    ⟨ret, hfind, hret, hwhy⟩ | ⟨storing, hfind, hsome, hfinds⟩
  · rw [hfind]
    exact Or.inl ⟨hret, rfl, hwhy⟩
  · rw [hfind]
    exact Or.inr ⟨rfl, hsome, storing, hfinds, rfl⟩

theorem put_of_ne_zero (h : (tr50AtStoragePut text table message mode id owner).ret ≠ 0) :
    (tr50AtStoragePut text table message mode id owner).table = table :=
  ((put_cases text table message mode id owner).resolve_right fun hput => h hput.1).2.1

theorem put_of_eq_zero (h : (tr50AtStoragePut text table message mode id owner).ret = 0) :
    ∃ storing, Finds table mode id owner storing
      ∧ (tr50AtStoragePut text table message mode id owner).table = table.store storing :=
  ((put_cases text table message mode id owner).resolve_left fun hput => hput.1 h).2.2

/-- It fails where no slot is free, or for a mode it does not know. -/
theorem put_eq_zero_iff (hcount : table.count ≤ tr50AtStorageSize) :
    (tr50AtStoragePut text table message mode id owner).ret = 0
      ↔ (∃ free ∈ table.slots, free.isUsed = false) ∧ (message.output text mode).isSome := by
  rcases put_cases text table message mode id owner with
    ⟨hret, -, hwhy⟩ | ⟨hret, hsome, storing, hfinds, -⟩
  · refine iff_of_false hret ?_
    rintro ⟨⟨free, hmem, hunused⟩, hsome⟩
    rcases hwhy with hover | hall | hnone
    · exact absurd hover hcount.not_gt
    · exact absurd (hall free hmem) (by simp [hunused])
    · simp [hnone] at hsome
  · obtain ⟨free, hfree, hunused⟩ := hfinds.free
    exact iff_of_true hret ⟨⟨free, List.mem_of_getElem? hfree, hunused⟩, hsome⟩

/-- A slot that is given up is freed, and counted off. -/
theorem giveUp_of_getElem {index : ℕ} (h : table.slots[index]? = some slot) :
    table.giveUp index = some (slot,
      ⟨table.slots.set index { slot with isUsed := false }, table.count - 1⟩) := by
  rw [giveUp, Slots.giveUp, h]
  rfl

/-- Where the get finds nothing, no slot passes the test. -/
theorem get_eq_none_iff :
    tr50AtStorageGet table id mode = none ↔ ∀ slot ∈ table.slots, slot.found id mode = false := by
  rw [tr50AtStorageGet, ← List.findIdx?_eq_none_iff]
  cases hfind : table.slots.findIdx? (AtStorage.found id mode) with
  | none => simp
  | some i =>
    obtain ⟨slot, hslot, -⟩ := Slots.findIdx_eq_some hfind
    simp [giveUp_of_getElem hslot]

/-- What it finds is given up. -/
theorem get_eq_some {table' : AtTable} (h : tr50AtStorageGet table id mode = some (slot, table')) :
    ∃ i, table.slots[i]? = some slot ∧ slot.found id mode
      ∧ table' = ⟨table.slots.set i { slot with isUsed := false }, table.count - 1⟩ := by
  obtain ⟨i, hi, hgive⟩ := get_eq_some_iff.mp h
  obtain ⟨found, hslot, hfound⟩ := Slots.findIdx_eq_some hi
  rw [giveUp_of_getElem hslot, Option.some.injEq, Prod.mk.injEq] at hgive
  obtain ⟨rfl, rfl⟩ := hgive
  exact ⟨i, hslot, hfound, rfl⟩

theorem found_iff : slot.found id mode ↔ slot.isUsed ∧ slot.id = id
    ∧ (slot.mode = mode ∨ slot.mode ≠ tr50AtSendModeMethod ∨ mode = tr50AtSendModeDelimited) := by
  simp only [AtStorage.found, Bool.and_eq_true, Bool.not_eq_true', decide_eq_true_eq,
    Bool.and_eq_false_iff, decide_eq_false_iff_not, not_not, and_assoc, or_assoc, ne_eq]

/-- A call of one of the two functions. -/
inductive Call
  | put (message : AtMessage) (mode id : ℤ) (owner : Option ℕ)
  | get (id mode : ℤ)

/-- The table that a call leaves. -/
def after (text : JsonText) (table : AtTable) : Call → AtTable
  | .put message mode id owner => (tr50AtStoragePut text table message mode id owner).table
  | .get id mode => ((tr50AtStorageGet table id mode).map Prod.snd).getD table

theorem Counted.after (h : Counted table) (text : JsonText) (call : Call) :
    Counted (table.after text call) := by
  cases call with
  | put message mode id owner =>
    by_cases hret : (tr50AtStoragePut text table message mode id owner).ret = 0
    · obtain ⟨storing, hfinds, htable⟩ := put_of_eq_zero hret
      obtain ⟨free, hfree, hunused⟩ := hfinds.free
      rw [AtTable.after, htable, AtTable.store]
      refine ⟨List.length_set.trans h.length, ?_⟩
      have hlength := length_used_set hfree storing.slot (table.count + 1)
      rw [if_neg (by simp [hunused]), if_pos hfinds.used] at hlength
      have hcount := h.count
      simp only
      omega
    · rw [AtTable.after, put_of_ne_zero hret]
      exact h
  | get id mode =>
    cases hget : tr50AtStorageGet table id mode with
    | none =>
      rw [AtTable.after, hget]
      exact h
    | some found =>
      obtain ⟨slot, table'⟩ := found
      obtain ⟨i, hslot, hfound, rfl⟩ := get_eq_some hget
      rw [AtTable.after, hget]
      refine ⟨List.length_set.trans h.length, ?_⟩
      have hlength := length_used_set hslot { slot with isUsed := false } (table.count - 1)
      rw [if_pos (found_iff.mp hfound).1, if_neg (by simp)] at hlength
      have hcount := h.count
      simp only [Option.map_some, Option.getD_some]
      omega

theorem Counted.foldl (h : Counted table) (text : JsonText) (calls : List Call) :
    Counted (calls.foldl (AtTable.after text) table) := by
  induction calls generalizing table with
  | nil => exact h
  | cons call calls ih => exact ih (h.after text call)

/-- What a list prints behind the count. -/
theorem list_eq (table : AtTable) :
    tr50AtStorageList table = decimal table.count ++ table.used.flatMap AtStorage.entry := by
  have hfold : ∀ (slots : List AtStorage) (blob : List UInt8),
      slots.foldl (fun blob slot => if slot.isUsed then blob ++ slot.entry else blob) blob
        = blob ++ (slots.filter (·.isUsed)).flatMap AtStorage.entry := by
    intro slots
    induction slots with
    | nil => intro blob; simp
    | cons slot slots ih =>
      intro blob
      rw [List.foldl_cons, ih]
      cases hused : slot.isUsed <;> simp [hused]
  exact hfold _ _

/-- A get hands out a slot that passes its test, if there is one. -/
theorem get_cases (table : AtTable) (id mode : ℤ) :
    (∃ i slot, table.slots[i]? = some slot ∧ slot.isUsed ∧ slot.id = id
      ∧ (slot.mode = mode ∨ slot.mode ≠ tr50AtSendModeMethod ∨ mode = tr50AtSendModeDelimited)
      ∧ tr50AtStorageGet table id mode = some (slot,
        ⟨table.slots.set i { slot with isUsed := false }, table.count - 1⟩))
    ∨ (tr50AtStorageGet table id mode = none
      ∧ ∀ slot ∈ table.slots, ¬ (slot.isUsed ∧ slot.id = id
        ∧ (slot.mode = mode ∨ slot.mode ≠ tr50AtSendModeMethod
          ∨ mode = tr50AtSendModeDelimited))) := by
  cases hget : tr50AtStorageGet table id mode with
  | some found =>
    obtain ⟨slot, table'⟩ := found
    obtain ⟨i, hslot, hfound, rfl⟩ := get_eq_some hget
    obtain ⟨hused, hid, hmode⟩ := found_iff.mp hfound
    exact Or.inl ⟨i, slot, hslot, hused, hid, hmode, rfl⟩
  | none =>
    refine Or.inr ⟨rfl, fun slot hslot h => ?_⟩
    have hmissed := get_eq_none_iff.mp hget slot hslot
    rw [found_iff.mpr h] at hmissed
    cases hmissed

end AtTable

end Tr50
