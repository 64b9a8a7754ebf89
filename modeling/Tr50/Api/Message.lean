import Tr50.Util.Error
import Tr50.Util.Json

/-!
# Api/Message — requests, and replies read from text

The two uses of `_TR50_MESSAGE`: a request on its way through the pending list (`Tr50Message`), and
a reply built by `tr50_message_from_string` (`Tr50Reply`).  Which message a pointer points to is its
`handle`; a callback and its custom pointer are one opaque `κ`.  Memory for messages is there.
-/

namespace Tr50

/-- `TR50_MESSAGE_TYPE_OBJ`, `TR50_MESSAGE_TYPE_RAW` -/
inductive MessageType
  | obj
  | raw
deriving DecidableEq, Repr

/-- A request; `callback` is its `reply_callback` or `raw_callback`, `none` being NULL. -/
structure Tr50Message (κ : Type) where
  handle : ℕ
  messageType : MessageType
  seqId : ℤ
  callbackTimeout : ℤ
  callback : Option κ
  pendingSentTimestamp : ℤ
  pendingExpirationTimestamp : ℤ
deriving DecidableEq, Repr

/-- A message read from text. -/
structure Tr50Reply where
  json : Json
  isReply : Bool
  seqId : ℤ

/-- `tr50_message_from_string`; the payload is read up to its terminator, not its length. -/
def tr50MessageFromString (payload : List UInt8) : Except ℤ Tr50Reply :=
  match tr50JsonParse payload with
  | none => .error errTr50JsonInvalid
  | some json =>
    let body := tr50JsonGetArrayItem (some json) 0
    let command := tr50JsonGetObjectItemAsString body (cstring ['c', 'o', 'm', 'm', 'a', 'n', 'd'])
    .ok ⟨json, command.isNone, 0⟩

/-- It fails on what is not JSON, and only there. -/
theorem tr50MessageFromString_eq_error {payload : List UInt8} {ret : ℤ} :
    tr50MessageFromString payload = .error ret
      ↔ tr50JsonParse payload = none ∧ ret = errTr50JsonInvalid := by
  unfold tr50MessageFromString
  split
  · rename_i hparse
    simp [hparse, eq_comm]
  · rename_i json hparse
    simp [hparse]

end Tr50
