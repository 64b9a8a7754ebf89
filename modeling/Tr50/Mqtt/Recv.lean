import Tr50.Mqtt.Msg
import Tr50.Util.Tcp

/-!
# Mqtt/Recv — receiving one packet

`mqtt_recv` of `src/mqtt/mqtt.recv.c`.  What surrounds a call is given from outside: the bytes of
the stream still unread, the outcomes of its `_tcp_recv` calls in order (`script`), the answers of
the allocator and the readings of the clock, each by its ordinal within the call.  A call whose
script runs out, or that waits on an exhausted stream, is still inside `_tcp_recv`.
-/

namespace Tr50

open Machinery

/-! ## What surrounds a call -/

/-- `MQTT_DEFAULT_RECV_BUF_LEN`. -/
def mqttDefaultRecvBufLen : ℕ := 128

/-- The allocator, the clock and the timeout of one call. -/
structure RecvEnv where
  malloc : ℕ → Bool
  clock : ℕ → ℤ
  timeout : ℤ

/-- The locals of a call, and what it has done to the stream and to `byte_recv`. -/
structure RecvState where
  buffer : Buffer
  curLen : ℕ
  startingTime : ℤ
  allocs : ℕ
  readings : ℕ
  stream : List UInt8
  byteRecv : ℤ

/-- What a call leaves behind.  `data`, `len` and `last_recv` are written only on success. -/
structure RecvReturn where
  ret : ℤ
  data : Buffer
  len : ℕ
  stream : List UInt8
  script : List TcpRecv
  byteRecv : ℤ
  lastRecv : Option ℤ
deriving DecidableEq

inductive RecvResult
  | returned (r : RecvReturn)
  /-- Inside `_tcp_recv`. -/
  | waiting
  /-- An access outside the buffer. -/
  | fault
deriving DecidableEq

/-- A loop runs to its end, or the call does not get past it. -/
inductive RecvLoop
  | done (st : RecvState) (script : List TcpRecv)
  | exit (r : RecvResult)

namespace RecvState

/-- Leave the call with a code. -/
def fail (st : RecvState) (ret : ℤ) (script : List TcpRecv) : RecvReturn :=
  ⟨ret, [], 0, st.stream, script, st.byteRecv, none⟩

/-- Read the clock. -/
def tick (st : RecvState) : RecvState := { st with readings := st.readings + 1 }

/-- Resize the buffer if necessary; `none` is a refused `realloc`. -/
def resize (env : RecvEnv) (st : RecvState) (readLen : ℕ) : Option RecvState :=
  if (readLen : ℤ) > st.buffer.length - st.curLen then
    if env.malloc st.allocs then
      some { st with
        buffer := st.buffer.realloc (st.curLen + readLen)
        allocs := st.allocs + 1 }
    else none
  else some st

/-- A piece of the stream goes into the buffer; `none` is a store outside it. -/
def accept (st : RecvState) (readLen n : ℕ) : Option RecvState := do
  let len := pieceLen n readLen st.stream.length
  let buffer ← st.buffer.memcpy st.curLen (st.stream.take len)
  return { st with
    buffer := buffer
    curLen := st.curLen + len
    stream := st.stream.drop len
    byteRecv := st.byteRecv + len }

/-- The byte stored last. -/
def lastByte (st : RecvState) : Option UInt8 := (st.buffer[st.curLen - 1]?).join

end RecvState

/-! ## The loops -/

/-- One round of the fixed-header loop before its `_tcp_recv`. -/
def mqttRecvEnter (env : RecvEnv) (st : RecvState) (readLen : ℕ) (script : List TcpRecv) :
    Except RecvReturn RecvState :=
  let waitTime := st.startingTime + env.timeout - env.clock st.readings
  if waitTime < 0 then .error (st.tick.fail errTr50Timeout script)
  else
    match st.tick.resize env readLen with
    | none => .error (st.tick.fail errTr50Malloc script)
    | some st => .ok st

/-- Reading the fixed header. -/
def mqttRecvHeader (env : RecvEnv) : List TcpRecv → RecvState → ℕ → RecvLoop
  | [], st, readLen =>
      match mqttRecvEnter env st readLen [] with
      | .error r => .exit (.returned r)
      | .ok _ => .exit .waiting
  | ev :: script, st, readLen =>
      match mqttRecvEnter env st readLen (ev :: script) with
      | .error r => .exit (.returned r)
      | .ok st =>
        match ev with
        | .failed e _ =>
          -- a timeout reading the remaining packet is meant to be a hard error
          let ret := if st.curLen > 0 ∧ e = errTr50Timeout then errTr50Timeout else e
          .exit (.returned (st.fail ret script))
        | .piece n =>
          if st.stream = [] then .exit .waiting
          else
            -- the timeout starts over at the first byte
            let st' := if st.curLen = 0 then
              { st.tick with startingTime := env.clock st.readings } else st
            match st'.accept readLen n with
            | none => .exit .fault
            | some st =>
              if st.curLen > 1 then
                match st.lastByte with
                | none => .exit .fault
                | some d =>
                  if d &&& 128 = 0 then .done st script else mqttRecvHeader env script st 1
              else mqttRecvHeader env script st 1

/-- Reading the remaining variable header and payload. -/
def mqttRecvBody : List TcpRecv → RecvState → ℕ → RecvLoop
  | script, st, 0 => .done st script
  | [], _, _ + 1 => .exit .waiting
  | .failed e _ :: script, st, _ + 1 => .exit (.returned (st.fail e script))
  | .piece n :: script, st, readLen + 1 =>
      if st.stream = [] then .exit .waiting
      else
        match st.accept (readLen + 1) n with
        | none => .exit .fault
        | some st' =>
          mqttRecvBody script st' (readLen + 1 - pieceLen n (readLen + 1) st.stream.length)

/-! ## The call -/

/-- `mqtt_recv` behind the fixed header. -/
def mqttRecvRest (env : RecvEnv) (st : RecvState) (script : List TcpRecv) : RecvResult :=
  match mqttDecodeHeaderLength (Buffer.written (st.buffer.drop 1)) st.curLen with
  | none => .fault
  | some hdr =>
    if hdr.ret < 0 then .returned (st.fail errTr50MqttRecvDecodeHdrLen script)
    else
      match st.resize env hdr.decodedLen with
      | none => .returned (st.fail errTr50Malloc script)
      | some st =>
        match mqttRecvBody script st.tick hdr.decodedLen with
        | .exit r => r
        | .done st script =>
          .returned ⟨0, st.buffer, st.curLen, st.stream, script, st.byteRecv,
            some (env.clock st.readings)⟩

/-- `mqtt_recv` on a client that has received `byteRecv` bytes so far. -/
def mqttRecv (env : RecvEnv) (script : List TcpRecv) (stream : List UInt8) (byteRecv : ℤ) :
    RecvResult :=
  let st : RecvState := ⟨[], 0, env.clock 0, 0, 1, stream, byteRecv⟩
  if env.malloc 0 then
    let st := { st with buffer := Buffer.alloc mqttDefaultRecvBufLen, allocs := 1 }
    match mqttRecvHeader env script st 2 with
    | .exit r => r
    | .done st script => mqttRecvRest env st script
  else .returned (st.fail errTr50Malloc script)

end Tr50
