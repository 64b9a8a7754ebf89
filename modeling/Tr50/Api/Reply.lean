import Tr50.Api.Message
import Tr50.Util.Memory

/-!
# Api/Reply — the error that a reply carries

`tr50_reply_get_error` and `tr50_reply_get_error_code` of `tr50.message.c`.  A reply says at its
root, or at a command, whether there was `success`, and if not why: the first of the `errorcodes`,
which is the one that has no name.

The two read the same fields, and differ where one of them is not as it should be:
`replyErrors_agree_iff`.

Three functions of a number's text are left open (`JsonText`): its integer value, how it prints, and
how a whole message prints.
-/

namespace Tr50

/-! ## The code -/

structure JsonText where
  /-- `valueint` of a number. -/
  valueint : List UInt8 → ℤ
  /-- `"%d"` of it if it is an integer, `"%lf"` otherwise. -/
  number : List UInt8 → List UInt8
  /-- `tr50_json_print` -/
  print : Json → List UInt8

/-- The error that a reply, or a command in it, carries. -/
def tr50ReplyError (text : JsonText) (json : Json) : ℤ × Option (List UInt8) :=
  let errorCodes := tr50JsonGetObjectItem (some json) (cstring "errorcodes".toList)
  let errorMessages := tr50JsonGetObjectItem (some json) (cstring "errormessages".toList)
  (match tr50JsonGetUnnamedItem errorCodes with
    | some (.number number) => text.valueint number
    | _ => 0,
  match tr50JsonGetUnnamedItem errorMessages with
    | some (.string message) => some (cut message)
    | _ => none)

/-- `tr50_reply_get_error` -/
def tr50ReplyGetError (text : JsonText) (reply : Tr50Reply) (cmdId : List UInt8) :
    ℤ × Option (List UInt8) :=
  match tr50JsonGetObjectItemAsBool (some reply.json) (cstring "success".toList) with
  | some true => (0, none)
  | some false => tr50ReplyError text reply.json
  | none =>
    match tr50JsonGetObjectItem (some reply.json) cmdId with
    | none => (errTr50CmdIdNotFound, none)
    | some cmd =>
      match tr50JsonGetObjectItemAsBool (some cmd) (cstring "success".toList) with
      | some false => tr50ReplyError text cmd
      | _ => (0, none)

/-- The code of a reply, or of a command in it, that has failed. -/
def tr50ReplyErrorCode (text : JsonText) (json : Json) : ℤ :=
  match tr50JsonGetObjectItem (some json) (cstring "errorcodes".toList) with
  | none => errTr50CodeMissing
  | some errorCodes =>
    match tr50JsonGetUnnamedItem (some errorCodes) with
    | some (.number number) => text.valueint number
    | _ => errTr50CodeMissing

/-- `tr50_reply_get_error_code` -/
def tr50ReplyGetErrorCode (text : JsonText) (reply : Tr50Reply) (cmdId : List UInt8) : ℤ :=
  match tr50JsonGetObjectItemAsBool (some reply.json) (cstring "success".toList) with
  | some true => errTr50ReplyInvalid
  | some false => tr50ReplyErrorCode text reply.json
  | none =>
    match tr50JsonGetObjectItem (some reply.json) cmdId with
    | none => errTr50CmdIdNotFound
    | some cmd =>
      match tr50JsonGetObjectItemAsBool (some cmd) (cstring "success".toList) with
      | some false => tr50ReplyErrorCode text cmd
      | _ => 0

/-- What says that the command has failed: the root, or else the command. -/
def failedLevel (json : Json) (cmdId : List UInt8) : Option Json :=
  match tr50JsonGetObjectItemAsBool (some json) (cstring "success".toList) with
  | some success => if success then none else some json
  | none =>
    (tr50JsonGetObjectItem (some json) cmdId).filter fun cmd =>
      tr50JsonGetObjectItemAsBool (some cmd) (cstring "success".toList) = some false

/-- The first of the `errorcodes`, if it is a number. -/
def errorCodeAt (text : JsonText) (json : Json) : Option ℤ :=
  match tr50JsonGetUnnamedItem
      (tr50JsonGetObjectItem (some json) (cstring "errorcodes".toList)) with
  | some (.number number) => some (text.valueint number)
  | _ => none

/-- The `errormessages` are not there, or begin with a string: `strlen` of NULL is not taken. -/
def messageReadable (json : Json) : Bool :=
  match tr50JsonGetObjectItem (some json) (cstring "errormessages".toList) with
  | none => true
  | some errorMessages =>
    match tr50JsonGetUnnamedItem (some errorMessages) with
    | some (.string _) => true
    | _ => false

/-- `tr50_reply_get_error` for a caller who has `asked` for the message, or has not. -/
def tr50ReplyGetErrorAsked (text : JsonText) (reply : Tr50Reply) (cmdId : List UInt8)
    (asked : Bool) : Option (ℤ × Option (List UInt8)) :=
  if asked ∧ (failedLevel reply.json cmdId).any (!messageReadable ·) then none
  else some (tr50ReplyGetError text reply cmdId)

/-! ## One level -/

section Level

variable {text : JsonText} {reply : Tr50Reply} {cmdId : List UInt8} {json level : Json}

theorem tr50ReplyError_code : (tr50ReplyError text json).1 = (errorCodeAt text json).getD 0 := by
  dsimp only [tr50ReplyError, errorCodeAt]
  cases tr50JsonGetUnnamedItem
    (tr50JsonGetObjectItem (some json) (cstring "errorcodes".toList)) with
  | none => rfl
  | some first => cases first <;> rfl

theorem tr50ReplyErrorCode_eq :
    tr50ReplyErrorCode text json = (errorCodeAt text json).getD errTr50CodeMissing := by
  unfold tr50ReplyErrorCode errorCodeAt
  cases tr50JsonGetObjectItem (some json) (cstring "errorcodes".toList) with
  | none => rfl
  | some errorCodes =>
    dsimp only
    cases tr50JsonGetUnnamedItem (some errorCodes) with
    | none => rfl
    | some first => cases first <;> rfl

/-- Where a level has failed, both read its `errorcodes`. -/
theorem replyErrors_of_failed (h : failedLevel reply.json cmdId = some level) :
    tr50ReplyGetError text reply cmdId = tr50ReplyError text level
      ∧ tr50ReplyGetErrorCode text reply cmdId = tr50ReplyErrorCode text level := by
  unfold failedLevel at h
  unfold tr50ReplyGetError tr50ReplyGetErrorCode
  cases hroot : tr50JsonGetObjectItemAsBool (some reply.json) (cstring "success".toList) with
  | some success =>
    rw [hroot] at h
    cases success with
    | true => cases h
    | false =>
      obtain rfl := Option.some.inj h
      exact ⟨rfl, rfl⟩
  | none =>
    rw [hroot] at h
    obtain ⟨hcmd, hfailed⟩ := Option.filter_eq_some_iff.mp h
    simp only [hcmd, of_decide_eq_true hfailed, and_self]

/-- Where none has, the root says that it is a success — or both return the same. -/
theorem replyErrors_of_not_failed (h : failedLevel reply.json cmdId = none) :
    tr50JsonGetObjectItemAsBool (some reply.json) (cstring "success".toList) = some true
        ∧ (tr50ReplyGetError text reply cmdId).1 = 0
        ∧ tr50ReplyGetErrorCode text reply cmdId = errTr50ReplyInvalid
      ∨ tr50JsonGetObjectItemAsBool (some reply.json) (cstring "success".toList) ≠ some true
        ∧ (tr50ReplyGetError text reply cmdId).1 = tr50ReplyGetErrorCode text reply cmdId := by
  unfold failedLevel at h
  unfold tr50ReplyGetError tr50ReplyGetErrorCode
  cases hroot : tr50JsonGetObjectItemAsBool (some reply.json) (cstring "success".toList) with
  | some success =>
    rw [hroot] at h
    cases success with
    | true => exact Or.inl ⟨rfl, rfl, rfl⟩
    | false => cases h
  | none =>
    rw [hroot] at h
    refine Or.inr ⟨by simp, ?_⟩
    cases hcmd : tr50JsonGetObjectItem (some reply.json) cmdId with
    | none => rfl
    | some cmd =>
      rw [hcmd] at h
      have hfailed : tr50JsonGetObjectItemAsBool (some cmd) (cstring "success".toList)
          ≠ some false := fun hfalse =>
        Option.filter_eq_none_iff.mp h cmd rfl (decide_eq_true hfalse)
      dsimp only
      cases hsuccess : tr50JsonGetObjectItemAsBool (some cmd) (cstring "success".toList) with
      | none => rfl
      | some success =>
        cases success with
        | true => rfl
        | false => exact absurd hsuccess hfailed

end Level

/-! ## The whole reply -/

/-- The decoders agree about what has not failed unless the root says that it is a success. -/
theorem agree_of_not_failed {text : JsonText} {reply : Tr50Reply} {cmdId : List UInt8}
    (h : failedLevel reply.json cmdId = none) :
    ((tr50ReplyGetError text reply cmdId).1 = 0 ↔ tr50ReplyGetErrorCode text reply cmdId = 0)
      ↔ tr50JsonGetObjectItemAsBool (some reply.json) (cstring "success".toList) ≠ some true := by
  rcases @replyErrors_of_not_failed text reply cmdId h with
    ⟨htrue, hzero, hinvalid⟩ | ⟨hroot, hsame⟩
  · refine iff_of_false ?_ (not_not.mpr htrue)
    rw [hzero, hinvalid]
    decide
  · exact iff_of_true (by rw [hsame]) hroot

/-- They agree about a level that has failed exactly where it gives a number for it. -/
theorem agree_of_failed {text : JsonText} {level : Json} :
    (((tr50ReplyError text level).1 = 0 ↔ tr50ReplyErrorCode text level = 0)
        ∧ ∀ code, errorCodeAt text level = some code →
          (tr50ReplyError text level).1 = tr50ReplyErrorCode text level)
      ↔ (errorCodeAt text level).isSome := by
  have hfirst := @tr50ReplyError_code text level
  rw [tr50ReplyErrorCode_eq]
  cases hcode : errorCodeAt text level with
  | none =>
    rw [hcode] at hfirst
    refine iff_of_false (fun h => ?_) (by simp)
    exact absurd (h.1.mp hfirst) (by decide)
  | some code =>
    rw [hcode] at hfirst
    refine iff_of_true ⟨?_, fun _ _ => hfirst⟩ rfl
    rw [hfirst]
    rfl

/-- **The two decoders agree exactly where** the root does not say that it is a success, and what
has failed gives a number for it — and, for a caller who has `asked`, no message or one that is a
string. -/
theorem replyErrors_agree_iff (text : JsonText) (reply : Tr50Reply) (cmdId : List UInt8)
    (asked : Bool) :
    (∃ ret message, tr50ReplyGetErrorAsked text reply cmdId asked = some (ret, message)
        ∧ (ret = 0 ↔ tr50ReplyGetErrorCode text reply cmdId = 0)
        ∧ ∀ level code, failedLevel reply.json cmdId = some level →
          errorCodeAt text level = some code → ret = tr50ReplyGetErrorCode text reply cmdId)
      ↔ tr50JsonGetObjectItemAsBool (some reply.json) (cstring "success".toList) ≠ some true
        ∧ ∀ level, failedLevel reply.json cmdId = some level →
          (errorCodeAt text level).isSome ∧ (asked → messageReadable level) := by
  rw [tr50ReplyGetErrorAsked]
  cases hlevel : failedLevel reply.json cmdId with
  | none =>
    simp only [Option.any_none, Bool.false_eq_true, and_false, if_false, Option.some.injEq,
      reduceCtorEq, false_implies, implies_true, and_true]
    rw [← agree_of_not_failed hlevel]
    constructor
    · rintro ⟨ret, message, hret, hiff⟩
      rw [hret]
      exact hiff
    · exact fun h => ⟨_, _, rfl, h⟩
  | some level =>
    obtain ⟨herror, hcode⟩ := @replyErrors_of_failed text reply cmdId level hlevel
    have hroot : tr50JsonGetObjectItemAsBool (some reply.json) (cstring "success".toList)
        ≠ some true := fun htrue => by
      rw [failedLevel, htrue] at hlevel
      cases hlevel
    rw [herror, hcode]
    simp only [Option.any_some, Option.some.injEq, forall_eq', ne_eq, hroot, not_false_eq_true,
      true_and, ← agree_of_failed]
    by_cases hread : asked = true ∧ (!messageReadable level) = true
    · refine iff_of_false (by simp [hread]) fun h => ?_
      have hreadable := h.2 hread.1
      simp [hreadable] at hread
    · have hmessage : asked = true → messageReadable level = true := fun hasked => by
        simpa [hasked] using hread
      rw [if_neg hread]
      constructor
      · rintro ⟨ret, message, hret, hiff, hsame⟩
        rw [Option.some.inj hret]
        exact ⟨⟨hiff, fun code => hsame level code rfl⟩, hmessage⟩
      · rintro ⟨⟨hiff, hsame⟩, -⟩
        refine ⟨_, _, rfl, hiff, ?_⟩
        rintro _ code rfl
        exact hsame code

/-- A command has failed and does not say why: one decoder returns 0, the other does not. -/
theorem replyErrors_disagree :
    let text : JsonText := ⟨fun _ => 0, id, fun _ => []⟩
    let reply : Tr50Reply :=
      ⟨.object [(cstring ['1'], .object [(cstring "success".toList, .false)])], true, 0⟩
    tr50ReplyGetError text reply (cstring ['1']) = (0, none)
      ∧ tr50ReplyGetErrorCode text reply (cstring ['1']) = errTr50CodeMissing
      ∧ errTr50CodeMissing ≠ 0 :=
  ⟨rfl, rfl, by decide⟩

end Tr50
