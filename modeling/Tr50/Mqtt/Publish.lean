import Tr50.Mqtt.Header

/-!
# Mqtt/Publish — a PUBLISH, written and read

    type byte | length field | be16 |topic| | topic | (id) | payload

`PublishBody` is what stands behind the length field.  The builder writes one and nothing else, the
reader takes one apart; the reader never compares the lengths it finds with the packet, so on any
other body it leaves the packet or reports success with no slice to show for it.
-/

namespace Tr50

open Machinery

/-! ## The body of a PUBLISH -/

/-- Topic, message id (present on the QoS levels above `0`) and payload. -/
structure PublishBody where
  topic : List UInt8
  msgId : Option UInt16
  payload : List UInt8
  topic_le : topic.length ≤ 65535

namespace PublishBody

/-- The id's bytes on the wire. -/
def idBytes : Option UInt16 → List UInt8
  | none => []
  | some id => be16 id

/-- The body on the wire. -/
def bytes (p : PublishBody) : List UInt8 :=
  be16 (UInt16.ofNat p.topic.length) ++ (p.topic ++ (idBytes p.msgId ++ p.payload))

theorem length_bytes (p : PublishBody) :
    p.bytes.length = 2 + p.topic.length + (idBytes p.msgId).length + p.payload.length := by
  simp only [bytes, List.length_append, length_be16]
  omega

end PublishBody

/-! ## Reading -/

theorem loadWord16_append (pre post : List UInt8) (n : UInt16) :
    loadWord16 (pre ++ (be16 n ++ post)) pre.length = some (swap16 n) := by
  have hload := load_append pre (be16 n) post
  have hword : hostWord16 (n >>> 8).toUInt8 n.toUInt8 = swap16 n := by
    rw [← swap16_swap16 (hostWord16 _ _), swap16_hostWord16, word16_be16]
  rw [loadWord16, ← length_be16 n, hload, Option.map_some]
  exact congrArg some hword

/-- A slice that sits behind a prefix is what a copy past the prefix gets, memory permitting. -/
theorem memoryClone_append (malloc : Bool) (pre post : List UInt8) {bs : List UInt8}
    (h : bs.length < 2 ^ 31) :
    memoryClone malloc (pre ++ (bs ++ post)) pre.length bs.length
      = some (if malloc then some bs else none) := by
  cases malloc with
  | false => exact memoryClone_refused _ _ _
  | true => rw [memoryClone_of_nonneg h, load_append]; rfl

/-- **Behind a valid fixed header the reader works on the body**, unless the packet is two bytes. -/
theorem mqttMsgProcessPublish_header {malloc : ℕ → Bool} {b0 : UInt8} {f body : List UInt8}
    (hb : b0 &&& mqttGetMsgType = mqttMsgTypePublish) (hf : IsLengthField f body.length)
    (h4 : f.length ≤ 4) (hlen : 2 < (b0 :: (f ++ body)).length) :
    mqttMsgProcessPublish malloc (b0 :: (f ++ body))
      = (mqttMsgProcessPublishBody malloc (b0 :: (f ++ body)) (mqttPublishQos b0) (1 + f.length)
          body.length).map .ok := by
  have hdec : mqttDecodeHeaderLength ((b0 :: (f ++ body)).drop 1)
      (((b0 :: (f ++ body)).length : ℤ) - 1) = some ⟨0, some f.length, body.length⟩ := by
    refine mqttDecodeHeaderLength_field hf h4 _ ?_ body
    simp only [List.length_cons, List.length_append]
    omega
  rw [mqttMsgProcessPublish, if_neg (by omega)]
  simp only [hdec, List.getElem?_cons_zero, Option.bind_eq_bind, Option.bind_some, hb, ne_eq,
    not_true_eq_false, if_false, Option.getD_some, Option.map_eq_bind]
  rfl

/-- The string decoder reads a length-prefixed string. -/
theorem mqttDecodeString_append (malloc : Bool) (pre post : List UInt8) {s : List UInt8}
    (h : s.length ≤ 65535) :
    mqttDecodeString malloc (pre ++ (be16 (UInt16.ofNat s.length) ++ (s ++ post))) pre.length
      = some ((s.length : ℤ), if malloc then some s else none) := by
  have hn : (UInt16.ofNat s.length).toNat = s.length :=
    UInt16.toNat_ofNat_of_lt' (by simp only [UInt16.size]; omega)
  have hclone := @memoryClone_append malloc (pre ++ be16 (UInt16.ofNat s.length)) post s
    (by omega)
  rw [List.append_assoc, List.length_append, length_be16, Nat.cast_add] at hclone
  simp only [mqttDecodeString, loadWord16_append, Option.bind_eq_bind, Option.bind_some,
    swap16_swap16, hn]
  erw [hclone]
  rfl

/-- The id sits behind the topic exactly when the QoS has one. -/
theorem loadMsgId_append {qos : ℤ} (pre post : List UInt8) {id : Option UInt16}
    (hid : id.isSome ↔ 0 < qos) :
    loadMsgId qos (pre ++ (PublishBody.idBytes id ++ post)) pre.length = some id := by
  cases id with
  | none => rw [loadMsgId, if_neg fun h => by simpa using hid.mpr h]
  | some id =>
      rw [loadMsgId, if_pos (hid.mp rfl), PublishBody.idBytes, loadWord16_append, Option.map_some,
        swap16_swap16]

theorem length_idBytes {qos : ℤ} {id : Option UInt16} (hid : id.isSome ↔ 0 < qos) :
    (PublishBody.idBytes id).length = if qos > 0 then 2 else 0 := by
  cases id with
  | none => rw [if_neg fun h => by simpa using hid.mpr h]; rfl
  | some id => rw [if_pos (hid.mp rfl)]; rfl

/-- **The reader takes a body apart.** -/
theorem mqttMsgProcessPublishBody_bytes (malloc : ℕ → Bool) {qos : ℤ} (pre : List UInt8)
    (p : PublishBody) (hid : p.msgId.isSome ↔ 0 < qos) (hlen : p.payload.length < 2 ^ 31) :
    mqttMsgProcessPublishBody malloc (pre ++ p.bytes) qos pre.length p.bytes.length
      = some ⟨qos, p.msgId, if malloc 0 then some p.topic else none,
          if malloc 1 then some p.payload else none, p.payload.length⟩ := by
  obtain ⟨pre₁, hpre₁⟩ : ∃ pre₁, pre₁ = pre ++ (be16 (UInt16.ofNat p.topic.length) ++ p.topic) :=
    ⟨_, rfl⟩
  have h₀ : pre ++ p.bytes = pre ++ (be16 (UInt16.ofNat p.topic.length)
      ++ (p.topic ++ (PublishBody.idBytes p.msgId ++ p.payload))) := rfl
  have h₁ : pre ++ p.bytes = pre₁ ++ (PublishBody.idBytes p.msgId ++ p.payload) := by
    rw [h₀, hpre₁]
    simp only [List.append_assoc]
  have h₂ : pre ++ p.bytes = (pre₁ ++ PublishBody.idBytes p.msgId) ++ (p.payload ++ []) := by
    rw [h₁, List.append_nil, List.append_assoc]
  have hlen₁ : (pre.length : ℤ) + (p.topic.length + 2) = pre₁.length := by
    rw [hpre₁, List.length_append, List.length_append, length_be16]
    omega
  have hlen₂ : (if qos > 0 then (pre₁.length : ℤ) + 2 else pre₁.length)
      = (pre₁ ++ PublishBody.idBytes p.msgId).length := by
    rw [List.length_append, length_idBytes hid]
    split_ifs <;> simp
  have hdecoded : (if qos > 0 then (p.bytes.length : ℤ) - (p.topic.length + 2) - 2
      else (p.bytes.length : ℤ) - (p.topic.length + 2)) = p.payload.length := by
    have hsize := p.length_bytes
    rw [length_idBytes hid] at hsize
    split_ifs at hsize ⊢ <;> omega
  have htopic := mqttDecodeString_append (malloc 0) pre
    (PublishBody.idBytes p.msgId ++ p.payload) p.topic_le
  rw [← h₀] at htopic
  have hmid := loadMsgId_append pre₁ p.payload hid
  rw [← h₁] at hmid
  have hclone := memoryClone_append (malloc 1) (pre₁ ++ PublishBody.idBytes p.msgId) [] hlen
  rw [← h₂] at hclone
  simp only [mqttMsgProcessPublishBody, htopic, Option.bind_eq_bind, Option.bind_some, hlen₁, hmid,
    hlen₂, hdecoded, hclone]
  rfl

/-! ## Writing -/

/-- **The string encoder cuts the length to 16 bits**, and copies that much of the string. -/
theorem mqttEncodeString_cut {c : Option UInt8} {n : ℕ} {bs s : List UInt8} {ptr : ℤ}
    (hptr : ptr = bs.length) (h : bs.length + (2 + s.length) ≤ n) :
    mqttEncodeString (Buffer.padded c bs n) ptr s (UInt16.ofInt s.length)
      = some (Buffer.padded c
          (bs ++ (be16 (UInt16.ofNat s.length) ++ s.take (s.length % 65536))) n) := by
  have hn : (UInt16.ofNat s.length).toNat = s.length % 65536 := UInt16.toNat_ofNat'
  have hword : UInt16.ofInt (s.length : ℤ) = UInt16.ofNat s.length := by
    have hmod : ((s.length : ℤ) % 2 ^ 16).toNat = s.length % 65536 := by omega
    refine UInt16.toNat_inj.mp ?_
    rw [hn, UInt16.ofInt, UInt16.toNat_ofNat', hmod, Nat.mod_mod]
  have hread : load s 0 (s.length % 65536) = some (s.take (s.length % 65536)) := by
    have := @load_of_le s 0 (s.length % 65536) (by omega)
    rwa [Nat.cast_zero, List.drop_zero] at this
  have hcut : (s.take (s.length % 65536)).length ≤ s.length := List.length_take_le' _ _
  have hlen := @Buffer.padded_memcpy_at c n bs (be16 (UInt16.ofNat s.length)) ptr hptr
    (by rw [length_be16]; omega)
  have hstr := @Buffer.padded_memcpy_at c n (bs ++ be16 (UInt16.ofNat s.length))
    (s.take (s.length % 65536)) (ptr + 2) (by simp [hptr])
    (by rw [List.length_append, length_be16]; omega)
  rw [List.append_assoc] at hstr
  simp only [mqttEncodeString, hword, hostBytes16_swap16, hn, hread, hlen, Option.bind_eq_bind,
    Option.bind_some]
  exact hstr

/-- The string encoder writes a length-prefixed string at the edge of what is written. -/
theorem mqttEncodeString_padded {c : Option UInt8} {n : ℕ} {bs s : List UInt8} {ptr : ℤ}
    (hptr : ptr = bs.length) (hs : s.length ≤ 65535) (h : bs.length + (2 + s.length) ≤ n) :
    mqttEncodeString (Buffer.padded c bs n) ptr s (UInt16.ofInt s.length)
      = some (Buffer.padded c (bs ++ (be16 (UInt16.ofNat s.length) ++ s)) n) := by
  rw [mqttEncodeString_cut hptr h, Nat.mod_eq_of_lt (by omega), List.take_length]

theorem mqttEncodeString_filled {n : ℕ} {bs s : List UInt8} {ptr : ℤ} (hptr : ptr = bs.length)
    (hs : s.length ≤ 65535) (h : bs.length + (2 + s.length) ≤ n) :
    mqttEncodeString (Buffer.filled bs n) ptr s (UInt16.ofInt s.length)
      = some (Buffer.filled (bs ++ (be16 (UInt16.ofNat s.length) ++ s)) n) :=
  mqttEncodeString_padded hptr hs h

theorem publishRemainingLen_of_lt {topicLen qos payloadLen : ℤ} (ht : 0 ≤ topicLen)
    (hp : 0 ≤ payloadLen) (h : topicLen + 2 + (if qos > 0 then 2 else 0) + payloadLen < 2 ^ 31) :
    publishRemainingLen topicLen qos payloadLen
      = some (topicLen + 2 + (if qos > 0 then 2 else 0) + payloadLen) := by
  have hq : (0 : ℤ) ≤ if qos > 0 then 2 else 0 := by split_ifs <;> omega
  simp only [publishRemainingLen, Option.bind_eq_bind]
  rw [intAdd_of_lt (by omega), Option.bind_some, intAdd_of_lt (by omega), Option.bind_some,
    intAdd_of_lt (by omega)]

/-- The id goes behind the topic exactly when the QoS has one. -/
theorem storeMsgId_filled {n : ℕ} {qos ptr : ℤ} {bs : List UInt8} {id : Option UInt16}
    {msgId : UInt16} (hid : id = if qos > 0 then some msgId else none) (hptr : ptr = bs.length)
    (h : bs.length + (PublishBody.idBytes id).length ≤ n) :
    storeMsgId qos (Buffer.filled bs n) ptr msgId
      = some (Buffer.filled (bs ++ PublishBody.idBytes id) n) := by
  by_cases hq : qos > 0
  · rw [if_pos hq] at hid
    subst hid
    rw [storeMsgId, if_pos hq, hostBytes16_swap16]
    exact Buffer.filled_memcpy_at hptr h
  · rw [if_neg hq] at hid
    subst hid
    rw [storeMsgId, if_neg hq, PublishBody.idBytes, List.append_nil]

/-- **The builder writes a type byte, a length field and a body** — the whole block, and nothing
else. -/
theorem mqttMsgBuildPublish_bytes (malloc : Bool) (p : PublishBody) {qos : ℤ} (retain : ℤ)
    {msgId : UInt16} (hid : p.msgId = if qos > 0 then some msgId else none) (h0 : 0 ∉ p.topic)
    (hlen : p.bytes.length ≤ 268435455) :
    mqttMsgBuildPublish malloc p.topic qos retain msgId p.payload
      = some (if malloc then
          .ok ((publishByte1 qos retain :: (lengthField p.bytes.length ++ p.bytes)).map some)
        else .error errTr50Malloc) := by
  have hsome : p.msgId.isSome ↔ 0 < qos := by
    rw [hid]
    split_ifs with h <;> simp [h]
  have hbytes := p.length_bytes
  have hidlen := length_idBytes hsome
  have htop := p.topic_le
  have hstr : intStrlen p.topic = p.topic.length := by
    rw [intStrlen, strlen_of_notMem h0, toInt32_of_lt (by omega)]
  have hsum : (p.topic.length : ℤ) + 2 + (if qos > 0 then 2 else 0) + p.payload.length
      = p.bytes.length := by
    split_ifs at hidlen ⊢ <;> omega
  have hrem : publishRemainingLen p.topic.length qos p.payload.length
      = some (p.bytes.length : ℤ) := by
    rw [publishRemainingLen_of_lt (by omega) (by omega) (by omega), hsum]
  have hcalc := mqttCalcFheaderLength_eq hlen
  have hfield := length_lengthField_le hlen
  obtain ⟨f, hf⟩ : ∃ f, f = lengthField p.bytes.length := ⟨_, rfl⟩
  rw [← hf] at hcalc hfield
  obtain ⟨n, hn⟩ : ∃ n : ℕ, n = 1 + f.length + p.bytes.length := ⟨_, rfl⟩
  have htotal : intAdd (1 + f.length) p.bytes.length = some (n : ℤ) := by
    rw [intAdd_of_lt (by omega), hn]
    push_cast
    rfl
  cases malloc with
  | false =>
    simp only [mqttMsgBuildPublish, hstr, hrem, ← hf, hcalc, htotal, Option.bind_eq_bind,
      Option.bind_some]
    rfl
  | true =>
  have hblock : mallocBlock true n = some (Buffer.filled [] n) := by
    rw [mallocBlock, if_pos (by simp), Int.toNat_natCast, Buffer.alloc_eq_filled]
  have hb1 := @Buffer.filled_store [] n (by simp; omega) (publishByte1 qos retain)
  have henc := mqttEncodeFixedHeaderLen_filled n p.bytes.length [publishByte1 qos retain]
    (by rw [← hf, List.length_singleton]; omega)
  have htopic := @mqttEncodeString_filled n ([publishByte1 qos retain] ++ f) p.topic (1 + f.length)
    (by simp; omega) htop (by simp; omega)
  have hmid := @storeMsgId_filled n qos (1 + f.length + (p.topic.length + 2))
    ([publishByte1 qos retain] ++ f ++ (be16 (UInt16.ofNat p.topic.length) ++ p.topic))
    p.msgId msgId hid (by simp; omega) (by simp; omega)
  have hpay := @Buffer.filled_memcpy_at n ([publishByte1 qos retain]
    ++ f ++ (be16 (UInt16.ofNat p.topic.length) ++ p.topic) ++ PublishBody.idBytes p.msgId)
    p.payload (if qos > 0 then 1 + f.length + (p.topic.length + 2) + 2
      else 1 + f.length + (p.topic.length + 2)) (by simp [hidlen]; split_ifs <;> omega)
    (by simp; omega)
  have hall : [publishByte1 qos retain] ++ f ++ (be16 (UInt16.ofNat p.topic.length) ++ p.topic)
      ++ PublishBody.idBytes p.msgId ++ p.payload = publishByte1 qos retain :: (f ++ p.bytes) := by
    simp [PublishBody.bytes]
  have hfull : n = (publishByte1 qos retain :: (f ++ p.bytes)).length := by
    simp [hn]; omega
  rw [hall, hfull, Buffer.filled_length, ← hfull] at hpay
  rw [← hf] at henc ⊢
  rw [List.nil_append, List.length_nil, Nat.cast_zero] at hb1
  rw [List.length_singleton, Nat.cast_one] at henc
  simp only [mqttMsgBuildPublish, hstr, hrem, hcalc, htotal, hblock, hb1, henc, htopic, hmid, hpay,
    Int.toNat_natCast, Option.bind_eq_bind, Option.bind_some]
  rfl

/-! ## The round trip -/

theorem mqttPublishQos_publishByte1 {qos : ℤ} (hqos : qos = 0 ∨ qos = 1) (retain : ℤ) :
    mqttPublishQos (publishByte1 qos retain) = qos := by
  rcases hqos with rfl | rfl <;> by_cases hr : retain = 0 <;> simp [publishByte1, hr] <;> decide

theorem publishByte1_type (qos retain : ℤ) :
    publishByte1 qos retain &&& mqttGetMsgType = mqttMsgTypePublish := by
  by_cases hq : qos > 0 <;> by_cases hr : retain = 0 <;> simp [publishByte1, hq, hr] <;> decide

/-- **Whatever the builder writes the reader reads back.**  The builder's block is written from
end to end, and every refused allocation shows where the code puts it. -/
theorem mqttMsgProcessPublish_mqttMsgBuildPublish (topic payload : List UInt8) (qos retain : ℤ)
    (msgId : UInt16) (h0 : 0 ∉ topic) (htopic : topic.length ≤ 65535) (hqos : qos = 0 ∨ qos = 1)
    (hlen : topic.length + 2 + (if qos = 1 then 2 else 0) + payload.length ≤ 268435455) :
    ∃ packet : List UInt8,
      (packet.length : ℤ)
        = mqttCalcFheaderLength (topic.length + 2 + (if qos = 1 then 2 else 0) + payload.length)
          + (topic.length + 2 + (if qos = 1 then 2 else 0) + payload.length)
      ∧ (∀ malloc, mqttMsgBuildPublish malloc topic qos retain msgId payload
          = some (if malloc then .ok (packet.map some) else .error errTr50Malloc))
      ∧ ∀ malloc, mqttMsgProcessPublish malloc packet
          = some (.ok ⟨qos, if qos = 1 then some msgId else none,
              if malloc 0 then some topic else none, if malloc 1 then some payload else none,
              payload.length⟩) := by
  have hq : qos > 0 ↔ qos = 1 := by omega
  obtain ⟨p, hp⟩ : ∃ p : PublishBody,
      p = ⟨topic, if qos = 1 then some msgId else none, payload, htopic⟩ := ⟨_, rfl⟩
  have hid : p.msgId = if qos > 0 then some msgId else none := by simp only [hp, hq]
  have hsome : p.msgId.isSome ↔ 0 < qos := by
    rw [hid]
    split_ifs with h <;> simp [h]
  have hbytes := p.length_bytes
  rw [length_idBytes hsome] at hbytes
  simp only [hq] at hbytes
  obtain ⟨rfl, rfl⟩ : p.topic = topic ∧ p.payload = payload := by simp [hp]
  have hsum : (p.topic.length : ℤ) + 2 + (if qos = 1 then 2 else 0) + p.payload.length
      = p.bytes.length := by
    split_ifs at hbytes ⊢ <;> omega
  have hle : p.bytes.length ≤ 268435455 := by split_ifs at hbytes hlen <;> omega
  have hfield := isLengthField_lengthField p.bytes.length
  refine ⟨publishByte1 qos retain :: (lengthField p.bytes.length ++ p.bytes), ?_, fun malloc => ?_,
    fun malloc => ?_⟩
  · rw [hsum, mqttCalcFheaderLength_eq hle, List.length_cons, List.length_append]
    push_cast
    ring
  · exact mqttMsgBuildPublish_bytes malloc p retain hid h0 hle
  · have hread := mqttMsgProcessPublishBody_bytes malloc
      (publishByte1 qos retain :: lengthField p.bytes.length) p hsome (by omega)
    rw [List.length_cons, List.cons_append, Nat.cast_add, Nat.cast_one, add_comm _ (1 : ℤ)] at hread
    rw [mqttMsgProcessPublish_header (publishByte1_type qos retain) hfield
      (length_lengthField_le hle) (by simp; omega), mqttPublishQos_publishByte1 hqos, hread, hid]
    simp only [hq, Option.map_some]

/-- A QoS 1 publish of `"a"` with two payload bytes, one of them past ASCII. -/
theorem mqttMsgProcessPublish_mqttMsgBuildPublish_qos1 :
    ∃ packet : List UInt8, (packet.length : ℤ) = mqttCalcFheaderLength 7 + 7
      ∧ (∀ malloc, mqttMsgBuildPublish malloc [97] 1 0 258 [255, 0]
          = some (if malloc then .ok (packet.map some) else .error errTr50Malloc))
      ∧ ∀ malloc, mqttMsgProcessPublish malloc packet
          = some (.ok ⟨1, some 258, if malloc 0 then some [97] else none,
              if malloc 1 then some [255, 0] else none, 2⟩) :=
  mqttMsgProcessPublish_mqttMsgBuildPublish [97] [255, 0] 1 0 258 (by decide) (by decide)
    (Or.inr rfl) (by decide)

/-! ## What the peer may send -/

/-- The topic length the first two bytes of a body give. -/
def publishTopicLen (body : List UInt8) : ℕ := (word16 (body.getD 0 0) (body.getD 1 0)).toNat

/-- The size of the id: there is one when the QoS bits are not `0`. -/
def publishIdLen (b0 : UInt8) : ℕ := if b0 &&& 0x06 ≠ 0 then 2 else 0

/-- Topic length, topic and id fit into the body. -/
def PublishWellFormed (b0 : UInt8) (body : List UInt8) : Prop :=
  2 ≤ body.length ∧ publishTopicLen body + 2 + publishIdLen b0 ≤ body.length

instance (b0 : UInt8) (body : List UInt8) : Decidable (PublishWellFormed b0 body) :=
  inferInstanceAs (Decidable (_ ∧ _))

def publishTopic (body : List UInt8) : List UInt8 := (body.drop 2).take (publishTopicLen body)

def publishMsgId (b0 : UInt8) (body : List UInt8) : Option UInt16 :=
  if b0 &&& 0x06 ≠ 0 then
    some (word16 (body.getD (publishTopicLen body + 2) 0) (body.getD (publishTopicLen body + 3) 0))
  else none

def publishPayload (b0 : UInt8) (body : List UInt8) : List UInt8 :=
  body.drop (publishTopicLen body + 2 + publishIdLen b0)

/-- What the reader owes its caller: it stays inside the packet, it succeeds exactly on the
well-formed bodies, and then it returns the slices. -/
def PublishRead (malloc : ℕ → Bool) (b0 : UInt8) (f body : List UInt8) : Prop :=
  ∃ r, mqttMsgProcessPublish malloc (b0 :: (f ++ body)) = some r ∧
    match r with
    | .error _ => ¬ PublishWellFormed b0 body
    | .ok m => PublishWellFormed b0 body ∧ m.topic = some (publishTopic body)
        ∧ m.msgId = publishMsgId b0 body ∧ m.payload = some (publishPayload b0 body)
        ∧ m.payloadLen = (publishPayload b0 body).length

theorem mqttPublishQos_pos_iff (b0 : UInt8) : 0 < mqttPublishQos b0 ↔ b0 &&& 0x06 ≠ 0 := by
  have h : ∀ n : Fin 256, 0 < mqttPublishQos (UInt8.ofFin n) ↔ UInt8.ofFin n &&& 0x06 ≠ 0 := by
    decide +kernel
  exact h b0.toFin

/-- The head of a list that long. -/
private theorem take_two {l : List UInt8} (h : 2 ≤ l.length) :
    l.take 2 = [l.getD 0 0, l.getD 1 0] := by
  match l, h with
  | a :: b :: l, _ => rfl

/-- **A well-formed body is its three slices.** -/
theorem PublishWellFormed.exists_body {b0 : UInt8} {body : List UInt8}
    (h : PublishWellFormed b0 body) :
    ∃ p : PublishBody, body = p.bytes ∧ p.topic = publishTopic body
      ∧ p.msgId = publishMsgId b0 body ∧ p.payload = publishPayload b0 body := by
  obtain ⟨h2, hfit⟩ := h
  have ht : (publishTopic body).length = publishTopicLen body := by
    rw [publishTopic, List.length_take, List.length_drop]
    omega
  have hle : (publishTopic body).length ≤ 65535 := by
    have := (word16 (body.getD 0 0) (body.getD 1 0)).toNat_lt
    rw [ht, publishTopicLen]
    omega
  have hhead : be16 (UInt16.ofNat (publishTopic body).length) = body.take 2 := by
    rw [ht, publishTopicLen, UInt16.ofNat_toNat, be16_word16, take_two h2]
  have hid : PublishBody.idBytes (publishMsgId b0 body)
      = (body.drop (publishTopicLen body + 2)).take (publishIdLen b0) := by
    unfold publishMsgId publishIdLen
    split_ifs with hb
    · rw [PublishBody.idBytes, be16_word16, take_two, List.getD_eq_getElem?_getD,
        List.getD_eq_getElem?_getD, List.getD_eq_getElem?_getD, List.getD_eq_getElem?_getD,
        List.getElem?_drop, List.getElem?_drop]
      rw [List.length_drop]
      rw [publishIdLen, if_pos hb] at hfit
      omega
    · rfl
  refine ⟨⟨publishTopic body, publishMsgId b0 body, publishPayload b0 body, hle⟩, ?_, rfl, rfl, rfl⟩
  calc body
      = body.take 2 ++ ((body.drop 2).take (publishTopicLen body)
          ++ ((body.drop (publishTopicLen body + 2)).take (publishIdLen b0)
            ++ body.drop (publishTopicLen body + 2 + publishIdLen b0))) := by
        rw [← List.drop_drop (i := publishIdLen b0), List.take_append_drop,
          add_comm (publishTopicLen body) 2, ← List.drop_drop, List.take_append_drop,
          List.take_append_drop]
    _ = _ := by rw [PublishBody.bytes, hhead, hid]; rfl

/-- On a well-formed body the reader returns its slices, as far as it has memory for them. -/
theorem mqttMsgProcessPublish_wellFormed (malloc : ℕ → Bool) {b0 : UInt8} {f body : List UInt8}
    (hb : b0 &&& mqttGetMsgType = mqttMsgTypePublish) (hf : IsLengthField f body.length)
    (h4 : f.length ≤ 4) (hwf : PublishWellFormed b0 body) :
    mqttMsgProcessPublish malloc (b0 :: (f ++ body))
      = some (.ok ⟨mqttPublishQos b0, publishMsgId b0 body,
          if malloc 0 then some (publishTopic body) else none,
          if malloc 1 then some (publishPayload b0 body) else none,
          (publishPayload b0 body).length⟩) := by
  obtain ⟨p, hbytes, htopic, hid, hpayload⟩ := hwf.exists_body
  have hsome : p.msgId.isSome ↔ 0 < mqttPublishQos b0 := by
    rw [mqttPublishQos_pos_iff, hid, publishMsgId]
    split_ifs with h <;> simp [h]
  have hlen : p.payload.length < 2 ^ 31 := by
    have := hf.lt_two_pow h4
    rw [hpayload, publishPayload, List.length_drop]
    omega
  have hread := mqttMsgProcessPublishBody_bytes malloc (b0 :: f) p hsome hlen
  rw [← hbytes, htopic, hid, hpayload, List.length_cons, List.cons_append, Nat.cast_add,
    Nat.cast_one, add_comm _ (1 : ℤ)] at hread
  have hpos := hf.length_pos
  have h2 := hwf.1
  rw [mqttMsgProcessPublish_header hb hf h4 (by simp; omega), hread, Option.map_some]

/-- **The reader does what it owes on the well-formed bodies whose slices get their memory, and on
the packet that has no body** — anywhere else it never reports an error. -/
theorem publishRead_iff (malloc : ℕ → Bool) {b0 : UInt8} {f body : List UInt8}
    (hb : b0 &&& mqttGetMsgType = mqttMsgTypePublish) (hf : IsLengthField f body.length)
    (h4 : f.length ≤ 4) :
    PublishRead malloc b0 f body
      ↔ (PublishWellFormed b0 body ∧ malloc 0 ∧ malloc 1) ∨ (f.length = 1 ∧ body = []) := by
  have hpos := hf.length_pos
  by_cases hwf : PublishWellFormed b0 body
  · have hread := mqttMsgProcessPublish_wellFormed malloc hb hf h4 hwf
    have hbody : body ≠ [] := by
      rintro rfl
      simpa using hwf.1
    constructor
    · rintro ⟨r, hr, hmeets⟩
      rw [hread] at hr
      obtain rfl := Option.some.inj hr
      obtain ⟨-, htopic, -, hpayload, -⟩ := hmeets
      refine Or.inl ⟨hwf, ?_, ?_⟩
      · by_contra h0
        simp [h0] at htopic
      · by_contra h1
        simp [h1] at hpayload
    · rintro (⟨-, h0, h1⟩ | ⟨-, hnil⟩)
      · refine ⟨_, hread, hwf, ?_, rfl, ?_, rfl⟩
        · simp [h0]
        · simp [h1]
      · exact absurd hnil hbody
  · by_cases hlen : 2 < (b0 :: (f ++ body)).length
    · -- behind the header the reader has no error path
      have hbody : ¬ (f.length = 1 ∧ body = []) := by
        rintro ⟨h1, rfl⟩
        simp [h1] at hlen
      refine iff_of_false ?_ fun h => h.elim (fun h => hwf h.1) hbody
      rintro ⟨r, hr, hmeets⟩
      rw [mqttMsgProcessPublish_header hb hf h4 hlen, Option.map_eq_some_iff] at hr
      obtain ⟨m, -, rfl⟩ := hr
      exact hwf hmeets.1
    · have hbody : f.length = 1 ∧ body = [] := by
        rw [List.length_cons, List.length_append] at hlen
        exact ⟨by omega, List.length_eq_zero_iff.mp (by omega)⟩
      refine iff_of_true ⟨.error errMqttMsgPublishLength, ?_, hwf⟩ (Or.inr hbody)
      rw [mqttMsgProcessPublish, if_pos (by omega)]
      rfl

/-- A QoS 1 body of topic `"a"`, id and one payload byte. -/
theorem publishRead_iff_qos1 :
    PublishRead (fun _ => true) 0x32 [6] [0, 1, 97, 0, 7, 255]
      ↔ (PublishWellFormed 0x32 [0, 1, 97, 0, 7, 255] ∧ true ∧ true)
        ∨ ([6].length = 1 ∧ [0, 1, 97, 0, 7, 255] = ([] : List UInt8)) :=
  publishRead_iff (fun _ => true) (by decide) (.last (by decide)) (by decide)

/-- A topic length of `65535` in a body of two bytes takes the reader out of the packet. -/
theorem not_publishRead_topic :
    0x30 &&& mqttGetMsgType = mqttMsgTypePublish ∧ IsLengthField [2] [255, 255].length
      ∧ ¬ PublishRead (fun _ => true) 0x30 [2] [255, 255] := by
  refine ⟨by decide, .last (by decide), ?_⟩
  rintro ⟨r, hr, -⟩
  have hout : mqttMsgProcessPublish (fun _ => true) (0x30 :: ([2] ++ [255, 255])) = none := by
    decide +kernel
  rw [hout] at hr
  cases hr

end Tr50
