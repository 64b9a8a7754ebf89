import Tr50.Util.Error
import Tr50.Util.Memory

/-!
# Mqtt/Msg — building and reading MQTT packets

`src/mqtt/mqtt.msg.c` and the packet constants of `mqtt.h`.  A builder writes into the block it
allocates through pointers it computes itself, and a reader reads the packet at the offsets it
computes, so both are modelled with their offsets: `none` is a store outside the block, a read
outside the packet, or an overflowing `int`.  `malloc` is what the allocator answers — for a
function that allocates twice, by the order of the requests.
-/

namespace Tr50

open Machinery

/-! ## Constants -/

/-- Mask of the message type in the first byte. -/
def mqttGetMsgType : UInt8 := 0xF0

def mqttMsgTypeUnknown : UInt8 := 0x00
def mqttMsgTypeConnect : UInt8 := 0x10
def mqttMsgTypeConnack : UInt8 := 0x20
def mqttMsgTypePublish : UInt8 := 0x30
def mqttMsgTypePuback : UInt8 := 0x40
def mqttMsgTypePubrec : UInt8 := 0x50
def mqttMsgTypePubcomp : UInt8 := 0x70
def mqttMsgTypeSubscribe : UInt8 := 0x80
def mqttMsgTypeSuback : UInt8 := 0x90
def mqttMsgTypeUnsubscribe : UInt8 := 0xA0
def mqttMsgTypeUnsuback : UInt8 := 0xB0
def mqttMsgTypePingreq : UInt8 := 0xC0
def mqttMsgTypePingresp : UInt8 := 0xD0
def mqttMsgTypeDisconnect : UInt8 := 0xE0

def mqttOptRetain : UInt8 := 0x01
def mqttOptQos1 : UInt8 := 0x02
def mqttOptQos2 : UInt8 := 0x04
def mqttOptQosFailure : UInt8 := 0x80

def mqttConnOptUsername : UInt8 := 0x80
def mqttConnOptPassword : UInt8 := 0x40

/-- `MQIsdp` -/
def mqttConnProtocolName : List UInt8 := [0x4D, 0x51, 0x49, 0x73, 0x64, 0x70]
def mqttConnProtocolNameLen : UInt16 := 6
def mqttConnProtocolVersion3 : UInt8 := 0x03

def mqttConnackAccepted : UInt8 := 0x00
def mqttConnackRefusedVersion : UInt8 := 0x01
def mqttConnackRefusedId : UInt8 := 0x02
def mqttConnackRefusedBroker : UInt8 := 0x03
def mqttConnackRefusedBadUserPassword : UInt8 := 0x04
def mqttConnackRefusedNotAuthorized : UInt8 := 0x05

def mqttPayloadQos0 : ℤ := 0
def mqttPayloadQos1 : ℤ := 1

/-! ## The fixed header -/

/-- `MQTT_CALC_FHEADER_LENGTH`. -/
def mqttCalcFheaderLength (dLen : ℤ) : ℤ :=
  if dLen ≤ 127 then 2
  else if dLen ≤ 16383 then 3
  else if dLen ≤ 2097151 then 4
  else if dLen ≤ 268435455 then 5
  else -1

/-- What `_mqtt_decode_header_length` leaves behind; `encoded_size` is only written on success. -/
structure DecodedLength where
  ret : ℤ
  encodedSize : Option ℕ
  decodedLen : ℕ
deriving DecidableEq, Repr

/-- The digit loop of `_mqtt_decode_header_length` over the memory at `ptr`. -/
def mqttDecodeHeaderLoop (ptrLen : ℤ) : List UInt8 → ℕ → ℕ → ℕ → Option DecodedLength
  | [], _, _, _ => none
  | d :: mem, rlLength, multiplier, decodedLen =>
      let rlLength := rlLength + 1
      let decodedLen := decodedLen + (d &&& 127).toNat * multiplier
      let multiplier := multiplier * 128
      if d &&& 128 ≠ 0 ∧ (rlLength : ℤ) ≤ ptrLen ∧ rlLength < 4 then
        mqttDecodeHeaderLoop ptrLen mem rlLength multiplier decodedLen
      else if d &&& 128 ≠ 0 then
        some ⟨-1, none, 0⟩
      else
        some ⟨0, some rlLength, decodedLen⟩

/-- `_mqtt_decode_header_length`. -/
def mqttDecodeHeaderLength (mem : List UInt8) (ptrLen : ℤ) : Option DecodedLength :=
  mqttDecodeHeaderLoop ptrLen mem 0 1 0

/-- `_mqtt_encode_fixed_header_len`: base-128 digits of `l`, stored from `ptr` on. -/
def mqttEncodeFixedHeaderLen (l : ℕ) (msg : Buffer) (ptr : ℤ) : Option Buffer :=
  let d := UInt8.ofNat (l % 128)
  let l' := l / 128
  if 0 < l' then
    (msg.store ptr (d ||| 0x80)).bind fun msg => mqttEncodeFixedHeaderLen l' msg (ptr + 1)
  else
    msg.store ptr d
termination_by l
decreasing_by omega

/-! ## Strings -/

/-- `_mqtt_encode_string`. -/
def mqttEncodeString (msg : Buffer) (ptr : ℤ) (data : List UInt8) (dataLen : UInt16) :
    Option Buffer := do
  let msg ← msg.memcpy ptr (hostBytes16 (swap16 dataLen))
  let bytes ← load data 0 dataLen.toNat
  msg.memcpy (ptr + 2) bytes

/-- The `unsigned short` at `ptr`, in the platform's order. -/
def loadWord16 (mem : List UInt8) (ptr : ℤ) : Option UInt16 :=
  (load mem ptr 2).map fun bs => hostWord16 (bs.getD 0 0) (bs.getD 1 0)

/-- `_mqtt_decode_string`: the length and the copy. -/
def mqttDecodeString (malloc : Bool) (mem : List UInt8) (ptr : ℤ) :
    Option (ℤ × Option (List UInt8)) := do
  let len ← loadWord16 mem ptr
  let len := swap16 len
  let output ← memoryClone malloc mem (ptr + 2) len.toNat
  return (len.toNat, output)

/-! ## Builders -/

/-- The block a builder gets for its packet. -/
def mallocBlock (malloc : Bool) (size : ℤ) : Option Buffer :=
  if malloc ∧ 0 ≤ size then some (Buffer.alloc size.toNat) else none

/-- `strlen` into an `int`. -/
def intStrlen (s : List UInt8) : ℤ := toInt32 (strlen s)

/-- `remaining_len` of a PUBLISH. -/
def publishRemainingLen (topicLen qos payloadLen : ℤ) : Option ℤ := do
  let remainingLen ← intAdd topicLen 2
  let remainingLen ← intAdd remainingLen (if qos > 0 then 2 else 0)
  intAdd remainingLen payloadLen

/-- The first byte of a PUBLISH. -/
def publishByte1 (qos retain : ℤ) : UInt8 :=
  let byte1 := 0x00 ||| mqttMsgTypePublish
  let byte1 := if qos > 0 then byte1 ||| mqttOptQos1 else byte1
  if retain ≠ 0 then byte1 ||| mqttOptRetain else byte1

/-- The id behind the topic, on the QoS levels that have one. -/
def storeMsgId (qos : ℤ) (msg : Buffer) (ptr : ℤ) (msgId : UInt16) : Option Buffer :=
  if qos > 0 then msg.memcpy ptr (hostBytes16 (swap16 msgId)) else some msg

/-- `_mqtt_msg_build_publish`. -/
def mqttMsgBuildPublish (malloc : Bool) (topic : List UInt8) (qos retain : ℤ) (msgId : UInt16)
    (payload : List UInt8) : Option (Except ℤ Buffer) := do
  let topicLen := intStrlen topic
  let remainingLen ← publishRemainingLen topicLen qos payload.length
  let fixedHeaderLen := mqttCalcFheaderLength remainingLen
  let totalLen ← intAdd fixedHeaderLen remainingLen
  match mallocBlock malloc totalLen with
  | none => return .error errTr50Malloc
  | some msg =>
    let msg ← msg.store 0 (publishByte1 qos retain)
    let msg ← mqttEncodeFixedHeaderLen remainingLen.toNat msg 1
    let ptr := fixedHeaderLen
    let msg ← mqttEncodeString msg ptr topic (UInt16.ofInt topicLen)
    let ptr := ptr + (topicLen + 2)
    let msg ← storeMsgId qos msg ptr msgId
    let ptr := if qos > 0 then ptr + 2 else ptr
    let msg ← msg.memcpy ptr payload
    return .ok msg

/-- A string of the payload of a CONNECT that may be missing. -/
def mqttEncodeOptional (msg : Buffer) (ptr : ℤ) (data : Option (List UInt8)) (dataLen : ℤ) :
    Option Buffer :=
  match data with
  | none => some msg
  | some data => mqttEncodeString msg ptr data (UInt16.ofInt dataLen)

/-- What a string that may be missing adds to a length. -/
def optionalLen (data : Option (List UInt8)) (dataLen : ℤ) : ℤ :=
  if data.isSome then dataLen + 2 else 0

/-- The remaining length with such a string added to it. -/
def addOptionalLen (remainingLen : ℤ) (data : Option (List UInt8)) (dataLen : ℤ) : Option ℤ :=
  if data.isSome then (intAdd dataLen 2).bind (intAdd remainingLen) else some remainingLen

/-- `remaining_len` of a CONNECT. -/
def connectRemainingLen (clientIdLen : ℤ) (username : Option (List UInt8)) (usernameLen : ℤ)
    (password : Option (List UInt8)) (passwordLen : ℤ) : Option ℤ := do
  let remainingLen ← (intAdd clientIdLen 2).bind (intAdd 12)
  let remainingLen ← addOptionalLen remainingLen username usernameLen
  addOptionalLen remainingLen password passwordLen

/-- The flags of a CONNECT. -/
def connectFlags (username password : Option (List UInt8)) : UInt8 :=
  (if username.isSome then mqttConnOptUsername else 0)
    ||| if password.isSome then mqttConnOptPassword else 0

/-- `_mqtt_msg_build_connect`. -/
def mqttMsgBuildConnect (malloc : Bool) (clientId : List UInt8)
    (username password : Option (List UInt8)) (keepalive : UInt16) :
    Option (Except ℤ Buffer) := do
  let clientIdLen := intStrlen clientId
  let usernameLen := intStrlen (username.getD [])
  let passwordLen := intStrlen (password.getD [])
  let remainingLen ← connectRemainingLen clientIdLen username usernameLen password passwordLen
  let fixedHeaderLen := mqttCalcFheaderLength remainingLen
  let totalLen ← intAdd remainingLen fixedHeaderLen
  match mallocBlock malloc totalLen with
  | none => return .error errTr50Malloc
  | some msg =>
    let msg ← msg.store 0 (0x00 ||| mqttMsgTypeConnect)
    let msg ← mqttEncodeFixedHeaderLen remainingLen.toNat msg 1
    let ptr := fixedHeaderLen
    let msg ← mqttEncodeString msg ptr mqttConnProtocolName mqttConnProtocolNameLen
    let ptr := ptr + (mqttConnProtocolNameLen.toNat + 2)
    let msg ← msg.store ptr mqttConnProtocolVersion3
    let ptr := ptr + 1
    let msg ← msg.store ptr (connectFlags username password)
    let ptr := ptr + 1
    let msg ← msg.memcpy ptr (hostBytes16 (swap16 keepalive))
    let ptr := ptr + 2
    let msg ← mqttEncodeString msg ptr clientId (UInt16.ofInt clientIdLen)
    let ptr := ptr + (clientIdLen + 2)
    let msg ← mqttEncodeOptional msg ptr username usernameLen
    let ptr := ptr + optionalLen username usernameLen
    let msg ← mqttEncodeOptional msg ptr password passwordLen
    return .ok msg

/-- `_mqtt_msg_build_puback`.  The `qos` argument is not looked at. -/
def mqttMsgBuildPuback (malloc : Bool) (msgId : UInt16) (_qos : ℤ) : Option (Except ℤ Buffer) :=
  match mallocBlock malloc 4 with
  | none => some (.error errTr50Malloc)
  | some msg => do
    let msg ← msg.store 0 mqttMsgTypePuback
    let msg ← msg.store 1 0x2
    let msg ← msg.memcpy 2 (hostBytes16 (swap16 msgId))
    return .ok msg

/-- A packet of a type byte and a zero length. -/
def mqttMsgBuildBare (type : UInt8) (malloc : Bool) : Option (Except ℤ Buffer) :=
  match mallocBlock malloc 2 with
  | none => some (.error errTr50Malloc)
  | some msg => do
    let msg ← msg.store 0 type
    let msg ← msg.store 1 0
    return .ok msg

/-- `_mqtt_msg_build_disconnect`. -/
def mqttMsgBuildDisconnect : Bool → Option (Except ℤ Buffer) :=
  mqttMsgBuildBare mqttMsgTypeDisconnect

/-- `_mqtt_msg_build_ping`. -/
def mqttMsgBuildPing : Bool → Option (Except ℤ Buffer) := mqttMsgBuildBare mqttMsgTypePingreq

/-- `_mqtt_msg_build_subscribe`.  The block is zeroed before it is written. -/
def mqttMsgBuildSubscribe (malloc : Bool) (topic : List UInt8) (qos : ℤ) (msgId : UInt16) :
    Option (Except ℤ Buffer) := do
  let topicLen := intStrlen topic
  let remainingLen ← intAdd 4 topicLen
  let remainingLen ← intAdd remainingLen 1
  let fixedHeaderLen := mqttCalcFheaderLength remainingLen
  let totalLen ← intAdd fixedHeaderLen remainingLen
  match mallocBlock malloc totalLen with
  | none => return .error errTr50Malloc
  | some msg =>
    let msg ← msg.memcpy 0 (List.replicate totalLen.toNat 0)
    let msg ← msg.store 0 (0x02 ||| mqttMsgTypeSubscribe)
    let msg ← mqttEncodeFixedHeaderLen remainingLen.toNat msg 1
    let ptr := fixedHeaderLen
    let msg ← msg.memcpy ptr (hostBytes16 (swap16 msgId))
    let ptr := ptr + 2
    let msg ← mqttEncodeString msg ptr topic (UInt16.ofInt topicLen)
    let ptr := ptr + topicLen + 2
    let msg ← msg.store ptr (UInt8.ofInt (qos % 4))
    return .ok msg

/-- `_mqtt_msg_build_unsubscribe`. -/
def mqttMsgBuildUnsubscribe (malloc : Bool) (topic : List UInt8) (msgId : UInt16) :
    Option (Except ℤ Buffer) := do
  let topicLen := intStrlen topic
  let remainingLen ← intAdd 4 topicLen
  let fixedHeaderLen := mqttCalcFheaderLength remainingLen
  let totalLen ← intAdd fixedHeaderLen remainingLen
  match mallocBlock malloc totalLen with
  | none => return .error errTr50Malloc
  | some msg =>
    let msg ← msg.memcpy 0 (List.replicate totalLen.toNat 0)
    let msg ← msg.store 0 (0x02 ||| mqttMsgTypeUnsubscribe)
    let msg ← mqttEncodeFixedHeaderLen remainingLen.toNat msg 1
    let ptr := fixedHeaderLen
    let msg ← msg.memcpy ptr (hostBytes16 (swap16 msgId))
    let ptr := ptr + 2
    let msg ← mqttEncodeString msg ptr topic (UInt16.ofInt topicLen)
    return .ok msg

/-! ## Readers -/

/-- `mqtt_msg_cmd_get`. -/
def mqttMsgCmdGet (data : List UInt8) : Option UInt8 := do
  let byte1 ← data[0]?
  let type := byte1 &&& mqttGetMsgType
  if type = mqttMsgTypeConnack then return mqttMsgTypeConnack
  else if type = mqttMsgTypePublish then return mqttMsgTypePublish
  else if type = mqttMsgTypePuback then return mqttMsgTypePuback
  else if type = mqttMsgTypePubrec then return mqttMsgTypePubrec
  else if type = mqttMsgTypePubcomp then return mqttMsgTypePubcomp
  else if type = mqttMsgTypeSuback then return mqttMsgTypeSuback
  else if type = mqttMsgTypeUnsuback then return mqttMsgTypeUnsuback
  else if type = mqttMsgTypePingresp then return mqttMsgTypePingresp
  else return mqttMsgTypeUnknown

/-- `mqtt_msg_process_connack`: `0`, or why the connection is refused. -/
def mqttMsgProcessConnack (data : List UInt8) : Option ℤ := do
  if data.length ≠ 4 then return errMqttMsgConnackLength
  let byte1 ← data[0]?
  if byte1 &&& mqttGetMsgType ≠ mqttMsgTypeConnack then return errMqttMsgConnackType
  let code ← data[3]?
  if code = mqttConnackAccepted then return 0
  -- the refusal's own code, and not `ERR_MQTT_MSG_CONNACK_VERSION`
  else if code = mqttConnackRefusedVersion then return mqttConnackRefusedVersion.toNat
  else if code = mqttConnackRefusedId then return errMqttMsgConnackId
  else if code = mqttConnackRefusedBroker then return errMqttMsgConnackBroker
  else if code = mqttConnackRefusedBadUserPassword then return errMqttMsgConnackLogin
  else if code = mqttConnackRefusedNotAuthorized then return errMqttMsgConnackNotAuthorized
  else return errMqttMsgConnackUnknownReturn

/-- `mqtt_msg_process_puback`. -/
def mqttMsgProcessPuback (data : List UInt8) : Option (Except ℤ UInt16) := do
  if data.length ≠ 4 then return .error errMqttMsgPubackLength
  let byte1 ← data[0]?
  if byte1 &&& mqttGetMsgType ≠ mqttMsgTypePuback then return .error errMqttMsgPubackType
  let msgId ← loadWord16 data 2
  return .ok (swap16 msgId)

/-- `mqtt_msg_process_suback`.  `qos` is a sign-extended `char`, so the failure bit survives. -/
def mqttMsgProcessSuback (data : List UInt8) : Option (Except ℤ (UInt16 × UInt8)) := do
  if data.length ≠ 5 then return .error errMqttMsgSubackLength
  let byte1 ← data[0]?
  if byte1 &&& mqttGetMsgType ≠ mqttMsgTypeSuback then return .error errMqttMsgSubackType
  let msgId ← loadWord16 data 2
  let qos ← data[4]?
  if qos &&& mqttOptQosFailure ≠ 0 then return .error errMqttMsgSubackQosFailure
  return .ok (swap16 msgId, qos)

/-- `mqtt_msg_process_unsuback`. -/
def mqttMsgProcessUnsuback (data : List UInt8) : Option (Except ℤ UInt16) := do
  if data.length ≠ 4 then return .error errMqttMsgUnsubackLength
  let byte1 ← data[0]?
  if byte1 &&& mqttGetMsgType ≠ mqttMsgTypeUnsuback then return .error errMqttMsgUnsubackType
  let msgId ← loadWord16 data 2
  return .ok (swap16 msgId)

/-- What `mqtt_msg_process_publish` hands back.  `msg_id` is only written when there is one, and a
refused copy is NULL. -/
structure PublishMsg where
  qos : ℤ
  msgId : Option UInt16
  topic : Option (List UInt8)
  payload : Option (List UInt8)
  payloadLen : ℤ
deriving DecidableEq, Repr

/-- The QoS the flag bits stand for. -/
def mqttPublishQos (byte1 : UInt8) : ℤ :=
  if byte1 &&& mqttOptQos1 ≠ 0 then 1 else if byte1 &&& mqttOptQos2 ≠ 0 then 2 else 0

/-- …and read back. -/
def loadMsgId (qos : ℤ) (data : List UInt8) (ptr : ℤ) : Option (Option UInt16) :=
  if qos > 0 then (loadWord16 data ptr).map fun id => some (swap16 id) else some none

/-- `mqtt_msg_process_publish` behind the fixed header, where `ptr` and `decoded_len` are the place
and the size of the body. -/
def mqttMsgProcessPublishBody (malloc : ℕ → Bool) (data : List UInt8) (qos ptr decodedLen : ℤ) :
    Option PublishMsg := do
  let (strLen, topic) ← mqttDecodeString (malloc 0) data ptr
  let ptr := ptr + (strLen + 2)
  let decodedLen := decodedLen - (strLen + 2)
  let msgId ← loadMsgId qos data ptr
  let ptr := if qos > 0 then ptr + 2 else ptr
  let decodedLen := if qos > 0 then decodedLen - 2 else decodedLen
  let payload ← memoryClone (malloc 1) data ptr decodedLen
  return ⟨qos, msgId, topic, payload, decodedLen⟩

/-- `mqtt_msg_process_publish`. -/
def mqttMsgProcessPublish (malloc : ℕ → Bool) (data : List UInt8) :
    Option (Except ℤ PublishMsg) := do
  if data.length ≤ 2 then return .error errMqttMsgPublishLength
  let byte1 ← data[0]?
  if byte1 &&& mqttGetMsgType ≠ mqttMsgTypePublish then return .error errMqttMsgPublishType
  let hdr ← mqttDecodeHeaderLength (data.drop 1) (data.length - 1)
  if hdr.ret ≠ 0 then return .error errMqttMsgPublishDecodeHdrLen
  let ptr : ℤ := 1 + hdr.encodedSize.getD 0
  let msg ← mqttMsgProcessPublishBody malloc data (mqttPublishQos byte1) ptr hdr.decodedLen
  return .ok msg

end Tr50
