import Tr50.Api.Command
import Tr50.At.Parser
import Tr50.At.Storage

/-!
# At/Cmd — the handlers of the AT commands

`src/util/he910/wrappers/at.cmd.c`.  A handler reads the parameters of its token, calls the library
once, and reports what the call has returned; `none` is a parameter dereferenced that is not there,
or a wait that does not end: `AT#DWSTATUS` waits for the callback of a ping (`tr50AtLatency`).
What the library answers is left open, and so is what `AT#DWCONN=1` configures before it starts.

`AT#DWSEND` reports the result of its call for the types `0` and `1`; the other two test it the
wrong way round (`AtToken.Fresh.dwsendSet_reports`).
-/

namespace Tr50

open Machinery

/-! ## Calls -/

/-- What the handlers call. -/
inductive AtCalled
  | stop
  | start2
  | apiCallAsync (message : Json) (mode timeout : ℤ)
  | ping (message : Json) (timeout : ℤ)
  | commandUpdate (id msg : List UInt8)
  | commandAck (id : List UInt8) (status : ℤ) (errMessage : Option (List UInt8))
      (ackParams : Option Json)

/-- What `_tr50_at_latency_callback` is called with: a status, the error code that it finds in the
reply, and the time then. -/
structure AtPing where
  status : ℤ
  errorCode : ℤ
  now : ℤ

/-- What the library answers: what a call returns, with the id or the `connect_error` that it hands
out, and what the client is found to be. -/
structure AtLibrary where
  call : AtCalled → ℤ × ℤ
  currentState : ℤ
  currentStatus : ℤ
  lastError : ℤ
  /-- `_time_now` before the ping, and its callback, if it is ever called. -/
  sentTime : ℤ
  ping : Option AtPing
  pubRecv : ℤ
  pubSent : ℤ
  byteRecv : ℤ
  byteSent : ℤ

/-- What a handler returns and prints, and what it has called for that. -/
structure AtReturn where
  ret : ℤ
  output : List UInt8
  called : Option AtCalled

/-- `"Failed: %d"` -/
def AtReturn.failed (ret : ℤ) (called : Option AtCalled) : AtReturn :=
  ⟨ret, cstring "Failed: ".toList ++ decimal ret, called⟩

/-! ## The connection -/

/-- `_tr50_at_status_get` -/
def tr50AtStatusGet (tr50Status : ℤ) : ℤ :=
  if tr50Status = 5 ∨ tr50Status = 7 ∨ tr50Status = 6 then 0
  else if tr50Status = 2 then 2
  else if tr50Status = 4 ∨ tr50Status = 1 then 1
  else if tr50Status = 0 ∨ tr50Status = 3 then 3
  else 0

def tr50AtCmdDwconnGet (library : AtLibrary) : AtReturn :=
  let state : ℤ := if library.currentState = 1 then 1 else 0
  ⟨0, decimal state ++ ch ',' :: decimal (tr50AtStatusGet library.currentStatus), none⟩

def tr50AtCmdDwconnSet (library : AtLibrary) (token : AtToken) : Option AtReturn :=
  (token.parameter 0).map fun state =>
    if deref state = ch '0' then ⟨(library.call .stop).1, [], some .stop⟩
    else if deref state = ch '1' then
      match library.call .start2 with
      | (ret, connectError) => ⟨if ret ≠ 0 then ret else connectError, [], some .start2⟩
    else ⟨errTr50Parms, [], none⟩

/-- `_tr50_at_latency_callback`: what it leaves in `recv_timestamp`. -/
def AtPing.recvTimestamp (ping : AtPing) : ℤ :=
  if ping.status = 0 then if ping.errorCode = 0 then ping.now else ping.errorCode
  else ping.status

/-- The call of `_tr50_at_latency`. -/
def AtCalled.diagPing : AtCalled :=
  .ping (.object [tr50MessageAddCommand (cstring ['1']) (cstring "diag.ping".toList) none]) 5000

/-- `_tr50_at_latency`; `none` if its loop does not end. -/
def tr50AtLatency (library : AtLibrary) : Option ℤ :=
  let ret := (library.call .diagPing).1
  if ret ≠ 0 then some ret
  else
    -- `while (!recv_timestamp)`
    ((library.ping.map AtPing.recvTimestamp).filter (· ≠ 0)).map fun recvTimestamp =>
      toInt32 (if recvTimestamp < 0 then recvTimestamp else recvTimestamp - library.sentTime)

def tr50AtCmdDwstatusGet (library : AtLibrary) : Option AtReturn := do
  let connected := library.currentStatus = 2
  let lastError := if connected then 0 else library.lastError
  let latency ← if connected then tr50AtLatency library else some (-1)
  return ⟨0, [ch ','].intercalate ([tr50AtStatusGet library.currentStatus, lastError, latency,
    library.pubRecv, library.pubSent, library.byteRecv, library.byteSent].map decimal),
    if connected then some .diagPing else none⟩

/-- The ping of a client that is connected is refused, or its callback is called and leaves
something other than `0`. -/
def AtLibrary.Pings (library : AtLibrary) : Prop :=
  library.currentStatus = 2 →
    (library.call .diagPing).1 ≠ 0 ∨ ∃ ping ∈ library.ping, ping.recvTimestamp ≠ 0

theorem tr50AtLatency_isSome {library : AtLibrary} : (tr50AtLatency library).isSome
    ↔ (library.call .diagPing).1 ≠ 0 ∨ ∃ ping ∈ library.ping, ping.recvTimestamp ≠ 0 := by
  rw [tr50AtLatency]
  by_cases hret : (library.call .diagPing).1 = 0
  · cases library.ping <;> simp [hret, Option.filter]
  · simp [hret]

/-- **The status is reported where the wait for the ping ends.** -/
theorem tr50AtCmdDwstatusGet_isSome {library : AtLibrary} :
    (tr50AtCmdDwstatusGet library).isSome ↔ library.Pings := by
  rw [tr50AtCmdDwstatusGet, AtLibrary.Pings, ← tr50AtLatency_isSome]
  by_cases hconnected : library.currentStatus = 2
  · cases tr50AtLatency library <;> simp [hconnected]
  · simp [hconnected]

/-! ## Parameters of a request -/

/-- `_tr50_at_storage_is_full` -/
def tr50AtStorageIsFull : ℤ := 0

/-- The number that `atof` reads, as it is written; without a digit that is `0`. -/
def atofText (value : List UInt8) : List UInt8 :=
  let behind := value.dropWhile isDigit
  let digits := value.takeWhile isDigit
  let fraction := if deref behind = ch '.' then behind.tail.takeWhile isDigit else []
  if digits = [] ∧ fraction = [] then [ch '0']
  else if fraction = [] then digits
  else digits ++ ch '.' :: fraction

/-- The value of a parameter: a number, what stands between quotes, or what there is. -/
def parameterJson (value : List UInt8) : Json :=
  if value.all fun c => isDigit c || c = ch '.' then
    if ch '.' ∈ value then .number (atofText value) else .number (decimalText (atoi value))
  else if 2 < value.length ∧ deref value = ch '"' ∧ value.getLast? = some (ch '"') then
    .string ((value.drop 1).take (value.length - 2))
  else .string value

/-- `_tr50_parse_json_for_integers`: the member that the parameters `i` and `i + 1` make. -/
def tr50ParseJsonForIntegers (token : AtToken) (i : ℕ) : Option (List UInt8 × Json) := do
  let value ← token.parameter (i + 1)
  let name ← token.parameter i
  return (name, parameterJson value)

/-- …for `n` pairs of parameters from `i` on. -/
def tr50ParseJson (token : AtToken) (i n : ℕ) : Option Json :=
  ((List.range' i n 2).mapM (tr50ParseJsonForIntegers token)).map .object

/-- A message with the command `cmd`. -/
def commandMessage (cmd : List UInt8) (params : Json) : Json :=
  .object [tr50MessageAddCommand (cstring ['1']) cmd (some params)]

/-- `tr50_api_call_async`, and what is printed of it. -/
def AtLibrary.apiCallAsync (library : AtLibrary) (message : Json) (mode timeout : ℤ) : AtReturn :=
  let called := .apiCallAsync message mode timeout
  match library.call called with
  | (ret, id) => if ret ≠ 0 then .failed ret (some called) else ⟨ret, decimal id, some called⟩

/-! ## `AT#DWSENDR` -/

def tr50AtCmdDwsendrSet (library : AtLibrary) (token : AtToken) : AtReturn :=
  let at' := cut token.atString
  if tr50AtStorageIsFull ≠ 0 then .failed errTr50AtStorageFull none
  else if ch '=' ∉ at' ∨ ch ',' ∉ at' then
    ⟨errAtTokenCmdNotMatch, cstring "Failed: No data specified".toList, none⟩
  else
    match tr50MessageFromString (at'.dropWhile (· ≠ ch ',')).tail with
    | .error ret => .failed ret none
    | .ok message => library.apiCallAsync message.json tr50AtSendModeRaw 30000

/-! ## `AT#DWSEND` -/

def tr50AtCmdDwsendSetNormal (library : AtLibrary) (token : AtToken) : Option AtReturn :=
  let cmd := token.parameter 1
  let count := token.count
  if tr50AtStorageIsFull ≠ 0 then some (.failed errTr50AtStorageFull none)
  else if count % 2 ≠ 0 then some (.failed errTr50AtUnevenParams none)
  else do
    let params ← tr50ParseJson token 2 ((count - 2) / 2)
    let cmd ← cmd
    return library.apiCallAsync (commandMessage cmd params) tr50AtSendModeDelimited 30000

def tr50AtCmdDwsendSetMethod (library : AtLibrary) (token : AtToken) : Option AtReturn :=
  let thingKey := token.parameter 1
  let timeout := token.parameter 2
  let method := token.parameter 3
  let singleton := token.parameter 4
  let count := token.count
  if tr50AtStorageIsFull ≠ 0 then some (.failed errTr50AtStorageFull none)
  else if count < 5 ∨ count % 2 = 0 then some (.failed errTr50AtUnevenParams none)
  else do
    let thingKey ← thingKey
    let timeout ← timeout
    let method ← method
    let singleton ← singleton
    let mparams ← tr50ParseJson token 5 ((count - 5 + 1) / 2)
    let params := .object
      [(cstring "thingKey".toList, .string thingKey),
        (cstring "ackTimeout".toList, .number (decimalText (atoi timeout))),
        (cstring "method".toList, .string method),
        (cstring "singleton".toList, if atoi singleton ≠ 0 then .true else .false),
        (cstring "params".toList, mparams)]
    -- a sum that is no `int` wraps
    return library.apiCallAsync (commandMessage (cstring "method.exec".toList) params)
      tr50AtSendModeDelimited (toInt32 (atoi timeout + 5000))

def tr50AtCmdDwsendSetMethodUpdate (library : AtLibrary) (token : AtToken) : Option AtReturn :=
  match token.parameter 1, token.parameter 2 with
  | some id, some message =>
    let called := .commandUpdate id message
    let ret := (library.call called).1
    some (if ret = 0 then .failed ret (some called) else ⟨ret, decimal 0, some called⟩)
  | _, _ => some (.failed errTr50Parms none)

def tr50AtCmdDwsendSetMethodAck (library : AtLibrary) (token : AtToken) : Option AtReturn :=
  match token.parameter 1, token.parameter 2 with
  | some id, some statusStr =>
    let count := token.count
    let status := atoi statusStr
    if status ≠ 0 then
      let called := .commandAck id status (token.parameter 3) none
      let ret := (library.call called).1
      some (if ret = 0 then .failed ret (some called) else ⟨0, [], some called⟩)
    else if count < 3 ∨ count % 2 = 0 then some (.failed errTr50AtUnevenParams none)
    else do
      let params ← tr50ParseJson token 3 ((count - 3) / 2)
      let called := .commandAck id 0 none (some params)
      let ret := (library.call called).1
      return if ret = 0 then .failed ret (some called) else ⟨ret, decimal 0, some called⟩
  | _, _ => some (.failed errTr50Parms none)

def tr50AtCmdDwsendSet (library : AtLibrary) (token : AtToken) : Option AtReturn := do
  let type ← token.parameter 0
  if deref type = ch '0' then tr50AtCmdDwsendSetNormal library token
  else if deref type = ch '1' then tr50AtCmdDwsendSetMethod library token
  else if deref type = ch '2' then tr50AtCmdDwsendSetMethodUpdate library token
  else if deref type = ch '3' then tr50AtCmdDwsendSetMethodAck library token
  else return ⟨errAtCmdNotSupported, [], none⟩

/-! ## Reports -/

/-- What is to be printed of a call that has succeeded: the id of a request, or `0`. -/
def AtCalled.printed (id : ℤ) : AtCalled → List UInt8
  | .apiCallAsync .. => decimal id
  | _ => decimal 0

/-- The result of the call is reported. -/
def AtReturn.Reports (library : AtLibrary) (r : AtReturn) : Prop :=
  ∃ called, r.called = some called
    ∧ ((library.call called).1 ≠ 0 →
      cstring "Failed".toList <+: r.output ∧ r.ret = (library.call called).1)
    ∧ ((library.call called).1 = 0 →
      r.output = called.printed (library.call called).2 ∧ r.ret = 0)

/-! ## Enough parameters -/

/-- There are as many parameters as the type asks for: a command and pairs for `0`, four and pairs
for `1`, two for `2` and `3`, and pairs behind them for a status of `0`. -/
def DwsendComplete : List (List UInt8) → Prop
  | [] => False
  | type :: others =>
    if deref type = ch '0' then others.length % 2 = 1
    else if deref type = ch '1' then 4 ≤ others.length ∧ others.length % 2 = 0
    else if deref type = ch '2' then 2 ≤ others.length
    else if deref type = ch '3' then
      2 ≤ others.length ∧ ∀ status ∈ others[1]?, atoi status = 0 → others.length % 2 = 0
    else True

instance (params : List (List UInt8)) : Decidable (DwsendComplete params) := by
  cases params with
  | nil => exact inferInstanceAs (Decidable False)
  | cons type others =>
    unfold DwsendComplete
    infer_instance

theorem exists_mapM {α β : Type} {f : α → Option β} {l : List α} (h : ∀ a ∈ l, ∃ b, f a = some b) :
    ∃ bs, l.mapM f = some bs := by
  induction l with
  | nil => exact ⟨[], rfl⟩
  | cons a l ih =>
    obtain ⟨b, hb⟩ := h a List.mem_cons_self
    obtain ⟨bs, hbs⟩ := ih fun a' ha' => h a' (List.mem_cons_of_mem a ha')
    exact ⟨b :: bs, by simp [List.mapM_cons, hb, hbs]⟩

section Handlers

variable (library : AtLibrary) {token : AtToken} {rest : List UInt8}

/-- A parameter that there is. -/
theorem AtToken.Fresh.parameter_of_lt (h : token.Fresh rest) {i : ℕ}
    (hi : i < (atParams rest).length) : token.parameter i = some (atParams rest)[i] := by
  rw [h.parameter, List.getElem?_eq_getElem hi]

/-- …and one that there is not. -/
theorem AtToken.Fresh.parameter_of_ge (h : token.Fresh rest) {i : ℕ}
    (hi : (atParams rest).length ≤ i) : token.parameter i = none := by
  rw [h.parameter, List.getElem?_eq_none hi]

/-- Pairs that there are are made into members. -/
theorem AtToken.Fresh.parseJson (h : token.Fresh rest) {i n : ℕ}
    (hn : i + 2 * n ≤ (atParams rest).length) :
    ∃ params, tr50ParseJson token i n = some params := by
  have hpairs : ∀ k ∈ List.range' i n 2, ∃ p, tr50ParseJsonForIntegers token k = some p := by
    intro k hk
    obtain ⟨j, hj, rfl⟩ := List.mem_range'.mp hk
    refine ⟨((atParams rest)[i + 2 * j], parameterJson (atParams rest)[i + 2 * j + 1]), ?_⟩
    simp only [tr50ParseJsonForIntegers]
    rw [h.parameter_of_lt (by omega), h.parameter_of_lt (by omega)]
    rfl
  obtain ⟨members, hmembers⟩ := exists_mapM hpairs
  exact ⟨.object members, by rw [tr50ParseJson, hmembers, Option.map_some]⟩

theorem dwsendSetNormal_complete (h : token.Fresh rest) (hpos : 0 < (atParams rest).length)
    (heven : (atParams rest).length % 2 = 0) :
    ∃ message, tr50AtCmdDwsendSetNormal library token
      = some (library.apiCallAsync message tr50AtSendModeDelimited 30000) := by
  obtain ⟨params, hparams⟩ := h.parseJson (i := 2) (n := ((atParams rest).length - 2) / 2)
    (by omega)
  refine ⟨commandMessage (atParams rest)[1] params, ?_⟩
  simp only [tr50AtCmdDwsendSetNormal, h.count_eq, h.parameter_of_lt (i := 1) (by omega), hparams]
  rw [if_neg (by decide), if_neg (by omega)]
  rfl

theorem dwsendSetNormal_uneven (h : token.Fresh rest) (hodd : (atParams rest).length % 2 = 1) :
    tr50AtCmdDwsendSetNormal library token = some (.failed errTr50AtUnevenParams none) := by
  simp only [tr50AtCmdDwsendSetNormal, h.count_eq]
  rw [if_neg (by decide), if_pos (by omega)]

theorem dwsendSetMethod_complete (h : token.Fresh rest) (hfive : 5 ≤ (atParams rest).length)
    (hodd : (atParams rest).length % 2 = 1) :
    ∃ message timeout, tr50AtCmdDwsendSetMethod library token
      = some (library.apiCallAsync message tr50AtSendModeDelimited timeout) := by
  obtain ⟨params, hparams⟩ := h.parseJson (i := 5) (n := ((atParams rest).length - 5 + 1) / 2)
    (by omega)
  simp only [tr50AtCmdDwsendSetMethod, h.count_eq, h.parameter_of_lt (i := 1) (by omega),
    h.parameter_of_lt (i := 2) (by omega), h.parameter_of_lt (i := 3) (by omega),
    h.parameter_of_lt (i := 4) (by omega), hparams]
  rw [if_neg (by decide), if_neg (by omega)]
  exact ⟨_, _, rfl⟩

theorem dwsendSetMethod_uneven (h : token.Fresh rest)
    (hcount : (atParams rest).length < 5 ∨ (atParams rest).length % 2 = 0) :
    tr50AtCmdDwsendSetMethod library token = some (.failed errTr50AtUnevenParams none) := by
  simp only [tr50AtCmdDwsendSetMethod, h.count_eq]
  rw [if_neg (by decide), if_pos hcount]

/-- What the two last types make of their call: `0` is a failure. -/
def AtLibrary.inverted (library : AtLibrary) (called : AtCalled) (otherwise : ℤ × List UInt8) :
    AtReturn :=
  if (library.call called).1 = 0 then .failed (library.call called).1 (some called)
  else ⟨otherwise.1, otherwise.2, some called⟩

theorem dwsendSetMethodUpdate_complete (h : token.Fresh rest)
    (hthree : 3 ≤ (atParams rest).length) : ∃ id msg otherwise,
      tr50AtCmdDwsendSetMethodUpdate library token
        = some (library.inverted (.commandUpdate id msg) (otherwise, decimal 0)) := by
  simp only [tr50AtCmdDwsendSetMethodUpdate, h.parameter_of_lt (i := 1) (by omega),
    h.parameter_of_lt (i := 2) (by omega)]
  exact ⟨_, _, _, rfl⟩

theorem dwsendSetMethodUpdate_missing (h : token.Fresh rest)
    (hcount : (atParams rest).length < 3) :
    tr50AtCmdDwsendSetMethodUpdate library token = some (.failed errTr50Parms none) := by
  have hnone : token.parameter 2 = none := h.parameter_of_ge (by omega)
  simp only [tr50AtCmdDwsendSetMethodUpdate, hnone]
  cases token.parameter 1 <;> rfl

theorem dwsendSetMethodAck_complete (h : token.Fresh rest) (hthree : 3 ≤ (atParams rest).length)
    (hodd : ∀ status ∈ (atParams rest)[2]?, atoi status = 0 → (atParams rest).length % 2 = 1) :
    ∃ id status errMessage params otherwise output, (output = decimal 0 ∨ output = [])
      ∧ tr50AtCmdDwsendSetMethodAck library token = some
        (library.inverted (.commandAck id status errMessage params) (otherwise, output)) := by
  have hstatus := hodd _ (List.getElem?_eq_getElem (i := 2) (by omega))
  simp only [tr50AtCmdDwsendSetMethodAck, h.parameter_of_lt (i := 1) (by omega),
    h.parameter_of_lt (i := 2) (by omega), h.count_eq]
  by_cases hzero : atoi (atParams rest)[2] = 0
  · obtain ⟨params, hparams⟩ := h.parseJson (i := 3) (n := ((atParams rest).length - 3) / 2)
      (by omega)
    rw [if_neg (not_not.mpr hzero), if_neg (by have := hstatus hzero; omega), hparams]
    exact ⟨_, _, _, _, _, _, Or.inl rfl, rfl⟩
  · rw [if_pos hzero]
    exact ⟨_, _, _, _, _, _, Or.inr rfl, rfl⟩

theorem dwsendSetMethodAck_missing (h : token.Fresh rest) (hcount : (atParams rest).length < 3) :
    tr50AtCmdDwsendSetMethodAck library token = some (.failed errTr50Parms none) := by
  have hnone : token.parameter 2 = none := h.parameter_of_ge (by omega)
  simp only [tr50AtCmdDwsendSetMethodAck, hnone]
  cases token.parameter 1 <;> rfl

theorem dwsendSetMethodAck_uneven (h : token.Fresh rest) (hthree : 3 ≤ (atParams rest).length)
    (hzero : ∀ status ∈ (atParams rest)[2]?, atoi status = 0)
    (heven : (atParams rest).length % 2 = 0) :
    tr50AtCmdDwsendSetMethodAck library token = some (.failed errTr50AtUnevenParams none) := by
  have hstatus := hzero _ (List.getElem?_eq_getElem (i := 2) (by omega))
  simp only [tr50AtCmdDwsendSetMethodAck, h.parameter_of_lt (i := 1) (by omega),
    h.parameter_of_lt (i := 2) (by omega), h.count_eq]
  rw [if_neg (not_not.mpr hstatus), if_pos (by omega)]

/-! ## What is reported -/

theorem AtReturn.failed_begins (ret : ℤ) (called : Option AtCalled) :
    cstring "Failed".toList <+: (AtReturn.failed ret called).output := by
  have hsplit : cstring "Failed: ".toList = cstring "Failed".toList ++ [58, 32] := by decide
  rw [AtReturn.failed, hsplit, List.append_assoc]
  exact List.prefix_append _ _

/-- A request is reported… -/
theorem apiCallAsync_reports (message : Json) (mode timeout : ℤ) :
    (library.apiCallAsync message mode timeout).Reports library := by
  refine ⟨.apiCallAsync message mode timeout, ?_, fun hne => ?_, fun hzero => ?_⟩
  · unfold AtLibrary.apiCallAsync
    simp only
    split_ifs <;> rfl
  · simp only [AtLibrary.apiCallAsync, if_pos hne]
    exact ⟨AtReturn.failed_begins _ _, rfl⟩
  · simp only [AtLibrary.apiCallAsync, hzero, ne_eq, not_true_eq_false, if_false,
      AtCalled.printed, and_self]

/-- …and an update or an acknowledgement is not, whatever becomes of it. -/
theorem not_reports_inverted {called : AtCalled} {otherwise : ℤ} {output : List UInt8}
    (hcalled : ∀ id, called.printed id = decimal 0) (houtput : output = decimal 0 ∨ output = []) :
    ¬ (library.inverted called (otherwise, output)).Reports library := by
  rintro ⟨called', hsame, hfailed, hdone⟩
  by_cases hzero : (library.call called).1 = 0
  · rw [AtLibrary.inverted, if_pos hzero] at hsame hdone
    obtain rfl := Option.some.inj hsame
    have hprinted := (hdone hzero).1
    rw [hcalled, hzero] at hprinted
    exact absurd hprinted (show cstring "Failed: ".toList ++ decimal 0 ≠ decimal 0 by decide)
  · rw [AtLibrary.inverted, if_neg hzero] at hsame hfailed
    obtain rfl := Option.some.inj hsame
    have hbegins := (hfailed hzero).1
    rcases houtput with rfl | rfl
    · exact absurd hbegins (show ¬ cstring "Failed".toList <+: decimal 0 by decide)
    · exact absurd hbegins (show ¬ cstring "Failed".toList <+: [] by decide)

/-! ## `AT#DWSEND`, by its type -/

/-- The type is the first character of the first parameter. -/
theorem AtToken.Fresh.dwsendSet_eq (h : token.Fresh rest) {type : List UInt8}
    {others : List (List UInt8)} (hparams : atParams rest = type :: others) :
    tr50AtCmdDwsendSet library token =
      if deref type = ch '0' then tr50AtCmdDwsendSetNormal library token
      else if deref type = ch '1' then tr50AtCmdDwsendSetMethod library token
      else if deref type = ch '2' then tr50AtCmdDwsendSetMethodUpdate library token
      else if deref type = ch '3' then tr50AtCmdDwsendSetMethodAck library token
      else some ⟨errAtCmdNotSupported, [], none⟩ := by
  have htype : token.parameter 0 = some type := by
    rw [h.parameter, hparams]
    rfl
  rw [tr50AtCmdDwsendSet, htype]
  rfl

/-- **With parameters enough the call is reported** if the type is `0` or `1`, and otherwise not. -/
theorem AtToken.Fresh.dwsendSet_reports (h : token.Fresh rest) {type : List UInt8}
    {others : List (List UInt8)} (hparams : atParams rest = type :: others)
    (htype : deref type ∈ [ch '0', ch '1', ch '2', ch '3'])
    (hcomplete : DwsendComplete (atParams rest)) :
    ∃ r, tr50AtCmdDwsendSet library token = some r
      ∧ (r.Reports library ↔ deref type = ch '0' ∨ deref type = ch '1') := by
  have hlength : (atParams rest).length = others.length + 1 := by rw [hparams, List.length_cons]
  rw [h.dwsendSet_eq library hparams]
  rw [hparams, DwsendComplete] at hcomplete
  by_cases h0 : deref type = ch '0'
  · rw [if_pos h0] at hcomplete ⊢
    obtain ⟨message, hret⟩ := dwsendSetNormal_complete library h (by omega) (by omega)
    exact ⟨_, hret, iff_of_true (apiCallAsync_reports ..) (Or.inl h0)⟩
  by_cases h1 : deref type = ch '1'
  · rw [if_neg h0, if_pos h1] at hcomplete ⊢
    obtain ⟨message, timeout, hret⟩ := dwsendSetMethod_complete library h (by omega)
      (by omega)
    exact ⟨_, hret, iff_of_true (apiCallAsync_reports ..) (Or.inr h1)⟩
  have hother : ¬ (deref type = ch '0' ∨ deref type = ch '1') := not_or.mpr ⟨h0, h1⟩
  rw [if_neg h0, if_neg h1] at hcomplete ⊢
  by_cases h2 : deref type = ch '2'
  · rw [if_pos h2] at hcomplete ⊢
    obtain ⟨id, msg, otherwise, hret⟩ := dwsendSetMethodUpdate_complete library h
      (by omega)
    exact ⟨_, hret, iff_of_false (not_reports_inverted library (fun _ => rfl) (Or.inl rfl)) hother⟩
  · have h3 : deref type = ch '3' := by simpa [h0, h1, h2] using htype
    rw [if_neg h2, if_pos h3] at hcomplete ⊢
    obtain ⟨htwo, hstatus⟩ := hcomplete
    obtain ⟨id, status, errMessage, params, otherwise, output, houtput, hret⟩ :=
      dwsendSetMethodAck_complete library h (by omega) fun status hmem hzero => by
        rw [hparams, List.getElem?_cons_succ] at hmem
        have := hstatus status hmem hzero
        omega
    exact ⟨_, hret, iff_of_false (not_reports_inverted library (fun _ => rfl) houtput) hother⟩

/-- **Without a parameter one is read all the same**… -/
theorem AtToken.Fresh.dwsendSet_eq_none (h : token.Fresh rest) (hparams : atParams rest = []) :
    tr50AtCmdDwsendSet library token = none := by
  have htype : token.parameter 0 = none := h.parameter_of_ge (by simp [hparams])
  rw [tr50AtCmdDwsendSet, htype]
  rfl

/-- …and otherwise there is an error where there are not enough: of an acknowledgement… -/
theorem AtToken.Fresh.dwsendSetMethodAck_incomplete (h : token.Fresh rest) {type : List UInt8}
    {others : List (List UInt8)} (hparams : atParams rest = type :: others)
    (hnot : ¬ (2 ≤ others.length
      ∧ ∀ status ∈ others[1]?, atoi status = 0 → others.length % 2 = 0)) :
    ∃ r, tr50AtCmdDwsendSetMethodAck library token = some r ∧ r.ret ≠ 0 := by
  have hlength : (atParams rest).length = others.length + 1 := by rw [hparams, List.length_cons]
  by_cases htwo : 2 ≤ others.length
  · have huneven : ¬ ∀ status ∈ others[1]?, atoi status = 0 → others.length % 2 = 0 :=
      fun hall => hnot ⟨htwo, hall⟩
    simp only [not_forall] at huneven
    obtain ⟨status, hmem, hzero, hne⟩ := huneven
    refine ⟨_, dwsendSetMethodAck_uneven library h (by omega) (fun status' hmem' => ?_) (by omega),
      show errTr50AtUnevenParams ≠ 0 by decide⟩
    rw [hparams, List.getElem?_cons_succ] at hmem'
    rw [Option.mem_unique hmem' hmem, hzero]
  · exact ⟨_, dwsendSetMethodAck_missing library h (by omega), show errTr50Parms ≠ 0 by decide⟩

/-- …and of any type. -/
theorem AtToken.Fresh.dwsendSet_incomplete (h : token.Fresh rest) (hparams : atParams rest ≠ [])
    (hnot : ¬ DwsendComplete (atParams rest)) :
    ∃ r, tr50AtCmdDwsendSet library token = some r ∧ r.ret ≠ 0 := by
  obtain ⟨type, others, hcons⟩ := List.exists_cons_of_ne_nil hparams
  have hlength : (atParams rest).length = others.length + 1 := by rw [hcons, List.length_cons]
  have huneven : errTr50AtUnevenParams ≠ 0 := by decide
  rw [h.dwsendSet_eq library hcons]
  rw [hcons, DwsendComplete] at hnot
  by_cases h0 : deref type = ch '0'
  · rw [if_pos h0] at hnot ⊢
    exact ⟨_, dwsendSetNormal_uneven library h (by omega), huneven⟩
  by_cases h1 : deref type = ch '1'
  · rw [if_neg h0, if_pos h1] at hnot ⊢
    exact ⟨_, dwsendSetMethod_uneven library h (by omega), huneven⟩
  rw [if_neg h0, if_neg h1] at hnot ⊢
  by_cases h2 : deref type = ch '2'
  · rw [if_pos h2] at hnot ⊢
    exact ⟨_, dwsendSetMethodUpdate_missing library h (by omega), show errTr50Parms ≠ 0 by decide⟩
  rw [if_neg h2] at hnot ⊢
  by_cases h3 : deref type = ch '3'
  · rw [if_pos h3] at hnot ⊢
    exact h.dwsendSetMethodAck_incomplete library hcons hnot
  · rw [if_neg h3] at hnot
    exact absurd trivial hnot

/-- With a parameter the handler returns. -/
theorem AtToken.Fresh.dwsendSet_returns (h : token.Fresh rest) (hparams : atParams rest ≠ []) :
    ∃ r, tr50AtCmdDwsendSet library token = some r
      ∧ (¬ DwsendComplete (atParams rest) → r.ret ≠ 0) := by
  obtain ⟨type, others, hcons⟩ := List.exists_cons_of_ne_nil hparams
  by_cases hcomplete : DwsendComplete (atParams rest)
  · by_cases htype : deref type ∈ [ch '0', ch '1', ch '2', ch '3']
    · obtain ⟨r, hret, -⟩ := h.dwsendSet_reports library hcons htype hcomplete
      exact ⟨r, hret, fun hnot => absurd hcomplete hnot⟩
    · simp only [List.mem_cons, List.not_mem_nil, or_false, not_or] at htype
      rw [h.dwsendSet_eq library hcons, if_neg htype.1, if_neg htype.2.1, if_neg htype.2.2.1,
        if_neg htype.2.2.2]
      exact ⟨_, rfl, fun hnot => absurd hcomplete hnot⟩
  · obtain ⟨r, hret, herr⟩ := h.dwsendSet_incomplete library hparams hcomplete
    exact ⟨r, hret, fun _ => herr⟩

end Handlers

end Tr50
