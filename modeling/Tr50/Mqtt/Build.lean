import Tr50.Machinery.Mqtt31
import Tr50.Mqtt.Publish

/-!
# Mqtt/Build — what a CONNECT, a SUBSCRIBE and an UNSUBSCRIBE are written as

The sizes are summed up before the block is asked for, and the fields are laid out by hand behind a
header of two to five bytes.  For strings that fit their length field the sum is the length of the
body and the layout is the body, cell by cell (`BuildRequest.build_eq`): every byte of the block is
written and none beside it, and the packet is the one that MQTT 3.1 writes for the same fields.
-/

namespace Tr50

open Machinery

/-! ## The errors of a builder -/

/-- **A builder returns an error exactly where it gets no block.** -/
theorem mqttMsgBuildPublish_error_iff {malloc : Bool} {topic payload : List UInt8}
    {qos retain e : ℤ} {msgId : UInt16} :
    mqttMsgBuildPublish malloc topic qos retain msgId payload = some (.error e)
      ↔ ∃ n t, publishRemainingLen (intStrlen topic) qos payload.length = some n
        ∧ intAdd (mqttCalcFheaderLength n) n = some t ∧ mallocBlock malloc t = none
        ∧ e = errTr50Malloc := by
  simp only [mqttMsgBuildPublish, Option.bind_eq_bind, Option.bind_eq_some_iff]
  constructor
  · rintro ⟨n, hn, t, ht, h⟩
    split at h
    · exact ⟨n, t, hn, ht, ‹_›, by simpa using h.symm⟩
    · simp [Option.bind_eq_some_iff] at h
  · rintro ⟨n, t, hn, ht, hblock, rfl⟩
    exact ⟨n, hn, t, ht, by rw [hblock]; rfl⟩

theorem mqttMsgBuildConnect_error_iff {malloc : Bool} {clientId : List UInt8}
    {username password : Option (List UInt8)} {keepalive : UInt16} {e : ℤ} :
    mqttMsgBuildConnect malloc clientId username password keepalive = some (.error e)
      ↔ ∃ n t, connectRemainingLen (intStrlen clientId) username (intStrlen (username.getD []))
          password (intStrlen (password.getD [])) = some n
        ∧ intAdd n (mqttCalcFheaderLength n) = some t ∧ mallocBlock malloc t = none
        ∧ e = errTr50Malloc := by
  simp only [mqttMsgBuildConnect, Option.bind_eq_bind, Option.bind_eq_some_iff]
  constructor
  · rintro ⟨n, hn, t, ht, h⟩
    split at h
    · exact ⟨n, t, hn, ht, ‹_›, by simpa using h.symm⟩
    · simp [Option.bind_eq_some_iff] at h
  · rintro ⟨n, t, hn, ht, hblock, rfl⟩
    exact ⟨n, hn, t, ht, by rw [hblock]; rfl⟩

theorem mqttMsgBuildSubscribe_error_iff {malloc : Bool} {topic : List UInt8} {qos e : ℤ}
    {msgId : UInt16} :
    mqttMsgBuildSubscribe malloc topic qos msgId = some (.error e)
      ↔ ∃ n t, (intAdd 4 (intStrlen topic)).bind (intAdd · 1) = some n
        ∧ intAdd (mqttCalcFheaderLength n) n = some t ∧ mallocBlock malloc t = none
        ∧ e = errTr50Malloc := by
  simp only [mqttMsgBuildSubscribe, Option.bind_eq_bind, Option.bind_eq_some_iff]
  constructor
  · rintro ⟨m, hm, n, hn, t, ht, h⟩
    split at h
    · exact ⟨n, t, ⟨m, hm, hn⟩, ht, ‹_›, by simpa using h.symm⟩
    · simp [Option.bind_eq_some_iff] at h
  · rintro ⟨n, t, ⟨m, hm, hn⟩, ht, hblock, rfl⟩
    exact ⟨m, hm, n, hn, t, ht, by rw [hblock]; rfl⟩

theorem mqttMsgBuildUnsubscribe_error_iff {malloc : Bool} {topic : List UInt8} {e : ℤ}
    {msgId : UInt16} :
    mqttMsgBuildUnsubscribe malloc topic msgId = some (.error e)
      ↔ ∃ n t, intAdd 4 (intStrlen topic) = some n
        ∧ intAdd (mqttCalcFheaderLength n) n = some t ∧ mallocBlock malloc t = none
        ∧ e = errTr50Malloc := by
  simp only [mqttMsgBuildUnsubscribe, Option.bind_eq_bind, Option.bind_eq_some_iff]
  constructor
  · rintro ⟨n, hn, t, ht, h⟩
    split at h
    · exact ⟨n, t, hn, ht, ‹_›, by simpa using h.symm⟩
    · simp [Option.bind_eq_some_iff] at h
  · rintro ⟨n, t, hn, ht, hblock, rfl⟩
    exact ⟨n, hn, t, ht, by rw [hblock]; rfl⟩

/-! ## A SUBSCRIBE -/

/-- **The length of a topic filter is cut to 16 bits**, and so is what is copied of it; the last
byte lies behind the whole. -/
theorem mqttMsgBuildSubscribe_cut {topic : List UInt8} (h0 : 0 ∉ topic)
    (hle : topic.length + 5 ≤ 268435455) (qos : ℤ) (msgId : UInt16) :
    ∃ (n : ℕ) (i : ℤ) (packet : Buffer),
      n = 1 + (lengthField (topic.length + 5)).length + (topic.length + 5) ∧ i = n - 1
      ∧ (Buffer.padded (some 0) (0x82 :: (lengthField (topic.length + 5) ++ (be16 msgId
          ++ (be16 (UInt16.ofNat topic.length) ++ topic.take (topic.length % 65536))))) n).store i
          (UInt8.ofInt (qos % 4)) = some packet
      ∧ mqttMsgBuildSubscribe true topic qos msgId = some (.ok packet) := by
  obtain ⟨len, hlen⟩ : ∃ len, len = topic.length := ⟨_, rfl⟩
  rw [← hlen] at hle ⊢
  have hframe := framed 0x82 hle
  obtain ⟨f, hf⟩ : ∃ f, f = lengthField (len + 5) := ⟨_, rfl⟩
  obtain ⟨n, hn⟩ : ∃ n, n = 1 + f.length + (len + 5) := ⟨_, rfl⟩
  rw [← hf, ← hn] at hframe
  rw [← hf]
  have hstr : intStrlen topic = len := by
    rw [intStrlen, strlen_of_notMem h0, ← hlen, toInt32_of_lt (by omega)]
  have h4 : intAdd 4 len = some (4 + (len : ℤ)) := intAdd_of_lt (by omega)
  have h5 : intAdd (4 + len) 1 = some ((len + 5 : ℕ) : ℤ) := by
    rw [intAdd_of_lt (by omega)]
    exact congrArg some (by push_cast; ring)
  have hbyte : 0x02 ||| mqttMsgTypeSubscribe = 0x82 := rfl
  have hmid := @Buffer.padded_memcpy_at (some 0) n (0x82 :: f) (be16 msgId) (1 + f.length)
    (by simp; omega) (by simp; omega)
  have htop := @mqttEncodeString_cut (some 0) n (0x82 :: f ++ be16 msgId) topic (1 + f.length + 2)
    (by simp; omega) (by simp; omega)
  rw [← hlen] at htop
  obtain ⟨cut, hcut⟩ : ∃ cut, cut = topic.take (len % 65536) := ⟨_, rfl⟩
  have hcutle : cut.length ≤ len := by
    rw [hcut, hlen]
    exact List.length_take_le' _ _
  rw [← hcut] at htop ⊢
  clear hcut
  obtain ⟨b, hb⟩ : ∃ b, b = Buffer.padded (some 0)
    (0x82 :: f ++ be16 msgId ++ (be16 (UInt16.ofNat len) ++ cut)) n := ⟨_, rfl⟩
  have hsize : b.length = n := by
    rw [hb, Buffer.length_padded]
    simp only [List.length_append, List.length_cons, length_be16]
    omega
  have hassoc : 0x82 :: f ++ be16 msgId ++ (be16 (UInt16.ofNat len) ++ cut)
      = 0x82 :: (f ++ (be16 msgId ++ (be16 (UInt16.ofNat len) ++ cut))) := by
    simp only [List.cons_append, List.append_assoc]
  rw [← hb] at htop
  obtain ⟨packet, hpacket⟩ : ∃ packet, b.store (1 + f.length + 2 + len + 2)
      (UInt8.ofInt (qos % 4)) = some packet := by
    rw [Buffer.store, if_pos ⟨by omega, by rw [hsize]; omega⟩]
    exact ⟨_, rfl⟩
  refine ⟨n, 1 + f.length + 2 + len + 2, packet, hn, by omega, ?_, ?_⟩
  · rw [← hassoc, ← hb]
    exact hpacket
  rw [mqttMsgBuildSubscribe, hstr, Option.bind_eq_bind, h4, Option.bind_some, h5,
    Option.bind_some, hframe.fixedHeaderLen]
  simp only [hframe.totalLen, hframe.block, Int.toNat_natCast, Buffer.alloc_memset, hbyte,
    hframe.store, hframe.encode, hostBytes16_swap16, hmid, htop, hpacket, Option.bind_eq_bind,
    Option.bind_some]
  rfl

/-! ## Requests -/

/-- A C string that fits its length field. -/
structure PacketString where
  chars : List UInt8
  noNul : 0 ∉ chars
  length_le : chars.length ≤ 65535

namespace PacketString

def str (s : PacketString) : Mqtt31.Str := ⟨s.chars, s.length_le⟩

theorem intStrlen_chars (s : PacketString) : intStrlen s.chars = s.chars.length := by
  have := s.length_le
  rw [intStrlen, strlen_of_notMem s.noNul, toInt32_of_lt (by omega)]

theorem length_encode (s : PacketString) : s.str.encode.length = s.chars.length + 2 := by
  simp [str, Mqtt31.Str.encode, add_comm]

theorem encode_padded {c : Option UInt8} {n : ℕ} {bs : List UInt8} {ptr : ℤ} (s : PacketString)
    (hptr : ptr = bs.length) (h : bs.length + s.str.encode.length ≤ n) :
    mqttEncodeString (Buffer.padded c bs n) ptr s.chars (UInt16.ofInt s.chars.length)
      = some (Buffer.padded c (bs ++ s.str.encode) n) := by
  rw [length_encode] at h
  exact mqttEncodeString_padded hptr s.length_le (by omega)

end PacketString

/-- What is built: user name and password are both there or neither. -/
inductive BuildRequest
  | connect (clientId : PacketString) (login : Option (PacketString × PacketString))
      (keepalive : UInt16)
  | subscribe (topic : PacketString) (qos : Mqtt31.Qos) (msgId : UInt16)
  | unsubscribe (topic : PacketString) (msgId : UInt16)

namespace BuildRequest

/-- The builder's call. -/
def build (malloc : Bool) : BuildRequest → Option (Except ℤ Buffer)
  | connect clientId login keepalive =>
      mqttMsgBuildConnect malloc clientId.chars (login.map (·.1.chars)) (login.map (·.2.chars))
        keepalive
  | subscribe topic qos msgId => mqttMsgBuildSubscribe malloc topic.chars qos.byte.toNat msgId
  | unsubscribe topic msgId => mqttMsgBuildUnsubscribe malloc topic.chars msgId

/-- The fields, as MQTT 3.1 names them. -/
def packet : BuildRequest → Mqtt31.Packet
  | connect clientId login keepalive =>
      .connect ⟨clientId.str, none, login.map fun l => (l.1.str, some l.2.str), false, keepalive⟩
  | subscribe topic qos msgId => .subscribe msgId [(topic.str, qos)] (List.cons_ne_nil _ _)
  | unsubscribe topic msgId => .unsubscribe msgId [topic.str] (List.cons_ne_nil _ _)

end BuildRequest

/-! ## The layout -/

theorem mqttMsgBuildUnsubscribe_bytes (malloc : Bool) (topic : PacketString) (msgId : UInt16) :
    mqttMsgBuildUnsubscribe malloc topic.chars msgId
      = some (if malloc then .ok ((BuildRequest.unsubscribe topic msgId).packet.bytes.map some)
          else .error errTr50Malloc) := by
  have hle := topic.length_le
  have hlen := topic.length_encode
  obtain ⟨body, hbody⟩ : ∃ body, body = be16 msgId ++ topic.str.encode := ⟨_, rfl⟩
  have hbytes : (BuildRequest.unsubscribe topic msgId).packet.bytes
      = 0xA2 :: (lengthField body.length ++ body) := by
    rw [hbody]
    simp [BuildRequest.packet, Mqtt31.Packet.bytes, Mqtt31.Packet.byte1, Mqtt31.Packet.body]
  have hsize : body.length = topic.chars.length + 4 := by
    rw [hbody, List.length_append, length_be16, hlen]
    omega
  have hframe := framed 0xA2 (show body.length ≤ 268435455 by omega)
  rw [hbytes]
  obtain ⟨f, hf⟩ : ∃ f, f = lengthField body.length := ⟨_, rfl⟩
  obtain ⟨n, hn⟩ : ∃ n, n = 1 + f.length + body.length := ⟨_, rfl⟩
  rw [← hf, ← hn] at hframe
  rw [← hf]
  have h4 : intAdd 4 topic.chars.length = some (body.length : ℤ) := by
    rw [intAdd_of_lt (by omega), hsize]
    exact congrArg some (by push_cast; ring)
  have hbyte : 0x02 ||| mqttMsgTypeUnsubscribe = 0xA2 := rfl
  cases malloc with
  | false =>
    rw [mqttMsgBuildUnsubscribe, topic.intStrlen_chars, Option.bind_eq_bind, h4, Option.bind_some,
      hframe.fixedHeaderLen]
    simp only [hframe.totalLen, hframe.refused, Option.bind_eq_bind, Option.bind_some]
    rfl
  | true =>
    have hmid := @Buffer.padded_memcpy_at (some 0) n (0xA2 :: f) (be16 msgId) (1 + f.length)
      (by simp; omega) (by simp; omega)
    have htop := @PacketString.encode_padded (some 0) n (0xA2 :: f ++ be16 msgId) (1 + f.length + 2)
      topic (by simp; omega) (by simp; omega)
    have hall : 0xA2 :: f ++ be16 msgId ++ topic.str.encode = 0xA2 :: (f ++ body) := by
      simp [hbody]
    have hfull : n = (0xA2 :: (f ++ body)).length := by
      simp [hn]; omega
    rw [hall, hfull, Buffer.padded_length, ← hfull] at htop
    rw [mqttMsgBuildUnsubscribe, topic.intStrlen_chars, Option.bind_eq_bind, h4, Option.bind_some,
      hframe.fixedHeaderLen]
    simp only [hframe.totalLen, hframe.block, Int.toNat_natCast, Buffer.alloc_memset, hbyte,
      hframe.store, hframe.encode, hostBytes16_swap16, hmid, htop, Option.bind_eq_bind,
      Option.bind_some]
    rfl

theorem ofInt_qos (q : Mqtt31.Qos) : UInt8.ofInt ((q.byte.toNat : ℤ) % 4) = q.byte := by
  cases q <;> decide

theorem mqttMsgBuildSubscribe_bytes (malloc : Bool) (topic : PacketString) (qos : Mqtt31.Qos)
    (msgId : UInt16) :
    mqttMsgBuildSubscribe malloc topic.chars qos.byte.toNat msgId
      = some (if malloc then .ok ((BuildRequest.subscribe topic qos msgId).packet.bytes.map some)
          else .error errTr50Malloc) := by
  have hle := topic.length_le
  have hlen := topic.length_encode
  obtain ⟨body, hbody⟩ : ∃ body, body = be16 msgId ++ (topic.str.encode ++ [qos.byte]) := ⟨_, rfl⟩
  have hbytes : (BuildRequest.subscribe topic qos msgId).packet.bytes
      = 0x82 :: (lengthField body.length ++ body) := by
    rw [hbody]
    simp [BuildRequest.packet, Mqtt31.Packet.bytes, Mqtt31.Packet.byte1, Mqtt31.Packet.body,
      Mqtt31.encodeTopic]
  have hsize : body.length = topic.chars.length + 5 := by
    rw [hbody, List.length_append, length_be16, List.length_append, hlen, List.length_singleton]
    omega
  cases malloc with
  | false =>
    have hframe := framed 0x82 (show body.length ≤ 268435455 by omega)
    have h4 : intAdd 4 topic.chars.length = some (4 + (topic.chars.length : ℤ)) :=
      intAdd_of_lt (by omega)
    have h5 : intAdd (4 + topic.chars.length) 1 = some (body.length : ℤ) := by
      rw [intAdd_of_lt (by omega), hsize]
      exact congrArg some (by push_cast; ring)
    rw [mqttMsgBuildSubscribe, topic.intStrlen_chars, Option.bind_eq_bind, h4, Option.bind_some, h5,
      Option.bind_some, hframe.fixedHeaderLen]
    simp only [hframe.totalLen, hframe.refused, Option.bind_eq_bind, Option.bind_some]
    rfl
  | true =>
    obtain ⟨n, i, packet, hn, hi, hlast, hbuild⟩ :=
      mqttMsgBuildSubscribe_cut topic.noNul (by omega) qos.byte.toNat msgId
    rw [Nat.mod_eq_of_lt (by omega), List.take_length, ofInt_qos, ← hsize] at hlast
    rw [← hsize] at hn
    obtain ⟨f, hf⟩ : ∃ f, f = lengthField body.length := ⟨_, rfl⟩
    rw [← hf] at hlast hn hbytes
    -- the layout stops one cell before the end of the block
    obtain ⟨front, hfront⟩ : ∃ front, front = 0x82 :: (f ++ (be16 msgId
      ++ (be16 (UInt16.ofNat topic.chars.length) ++ topic.chars))) := ⟨_, rfl⟩
    have hall : front ++ [qos.byte] = 0x82 :: (f ++ body) := by
      rw [hfront, hbody]
      simp [PacketString.str, Mqtt31.Str.encode]
    have hfull : n = (front ++ [qos.byte]).length := by
      rw [hall, hn, List.length_cons, List.length_append]
      omega
    rw [← hfront, Buffer.padded_store_at (by rw [hfull] at hi; simp at hi; omega)
      (by rw [hfull]; simp), hfull, Buffer.padded_length] at hlast
    rw [hbuild, hbytes, ← hall, ← Option.some.inj hlast]
    rfl

/-! ## A CONNECT -/

/-- A string that may be missing, on the wire. -/
def optionalBytes (o : Option PacketString) : List UInt8 := o.elim [] (·.str.encode)

theorem length_optionalBytes_le (o : Option PacketString) :
    (optionalBytes o).length ≤ 65537 := by
  cases o with
  | none => exact Nat.zero_le _
  | some s =>
    have := s.length_le
    rw [optionalBytes, Option.elim_some, s.length_encode]
    omega

theorem optionalLen_map (o : Option PacketString) :
    optionalLen (o.map (·.chars)) (intStrlen ((o.map (·.chars)).getD []))
      = (optionalBytes o).length := by
  cases o with
  | none => rfl
  | some s =>
    rw [optionalBytes, Option.elim_some, s.length_encode, Option.map_some, Option.getD_some,
      s.intStrlen_chars, optionalLen, if_pos Option.isSome_some]
    push_cast
    rfl

theorem addOptionalLen_map {len : ℕ} (o : Option PacketString) (h : len ≤ 268435455) :
    addOptionalLen len (o.map (·.chars)) (intStrlen ((o.map (·.chars)).getD []))
      = some ((len + (optionalBytes o).length : ℕ) : ℤ) := by
  cases o with
  | none => rfl
  | some s =>
    have := s.length_le
    rw [optionalBytes, Option.elim_some, s.length_encode, Option.map_some, Option.getD_some,
      s.intStrlen_chars, addOptionalLen, if_pos Option.isSome_some, intAdd_of_lt (by omega),
      Option.bind_some, intAdd_of_lt (by omega)]
    push_cast
    rfl

theorem mqttEncodeOptional_padded {c : Option UInt8} {n : ℕ} {bs : List UInt8} {ptr : ℤ}
    (o : Option PacketString) (hptr : ptr = bs.length)
    (h : bs.length + (optionalBytes o).length ≤ n) :
    mqttEncodeOptional (Buffer.padded c bs n) ptr (o.map (·.chars))
        (intStrlen ((o.map (·.chars)).getD []))
      = some (Buffer.padded c (bs ++ optionalBytes o) n) := by
  cases o with
  | none =>
    rw [optionalBytes, Option.elim_none, List.append_nil]
    rfl
  | some s =>
    rw [Option.map_some, Option.getD_some, s.intStrlen_chars]
    exact s.encode_padded hptr h

/-- The flags say which of the two is there. -/
theorem connectFlags_byte (clientId : Mqtt31.Str) (keepalive : UInt16)
    (login : Option (PacketString × PacketString)) :
    connectFlags (login.map (·.1.chars)) (login.map (·.2.chars))
      = (Mqtt31.Connect.flags ⟨clientId, none, login.map fun l => (l.1.str, some l.2.str), false,
          keepalive⟩).byte := by
  cases login with
  | none =>
    change (0 ||| 0 : UInt8) = Mqtt31.Flags.byte ⟨false, false, false, .atMostOnce, false, false⟩
    decide
  | some l =>
    change mqttConnOptUsername ||| mqttConnOptPassword
      = Mqtt31.Flags.byte ⟨true, true, false, .atMostOnce, false, false⟩
    decide

/-- The body of a CONNECT with these flags. -/
def connectBody (flags : UInt8) (keepalive : UInt16) (clientId : PacketString)
    (u p : Option PacketString) : List UInt8 :=
  Mqtt31.protocolName.encode ++ ([3] ++ ([flags] ++ (be16 keepalive
    ++ (clientId.str.encode ++ (optionalBytes u ++ optionalBytes p)))))

section Connect

variable (clientId : PacketString) (u p : Option PacketString) (flags : UInt8) (keepalive : UInt16)

theorem length_connectBody :
    (connectBody flags keepalive clientId u p).length
      = 14 + clientId.chars.length + (optionalBytes u).length + (optionalBytes p).length := by
  have hname : Mqtt31.protocolName.encode.length = 8 := rfl
  simp only [connectBody, List.length_append, hname, List.length_singleton, length_be16,
    clientId.length_encode]
  omega

theorem length_connectBody_le :
    (connectBody flags keepalive clientId u p).length ≤ 268435455 := by
  have hclient := clientId.length_le
  have hu := length_optionalBytes_le u
  have hp := length_optionalBytes_le p
  rw [length_connectBody]
  omega

/-- **The lengths are those of the body.** -/
theorem connectRemainingLen_eq :
    connectRemainingLen (intStrlen clientId.chars) (u.map (·.chars))
        (intStrlen ((u.map (·.chars)).getD [])) (p.map (·.chars))
        (intStrlen ((p.map (·.chars)).getD []))
      = some ((connectBody flags keepalive clientId u p).length : ℤ) := by
  have hclient := clientId.length_le
  have hu := length_optionalBytes_le u
  have hsum : (12 : ℤ) + (clientId.chars.length + 2) = ((14 + clientId.chars.length : ℕ) : ℤ) := by
    push_cast
    ring
  rw [clientId.intStrlen_chars, connectRemainingLen, intAdd_of_lt (by omega), Option.bind_some,
    intAdd_of_lt (by omega), hsum, Option.bind_eq_bind, Option.bind_some,
    addOptionalLen_map u (by omega), Option.bind_some, addOptionalLen_map p (by omega),
    length_connectBody]

/-- **The fields are laid out as the body.** -/
theorem mqttMsgBuildConnect_layout
    (hflags : flags = connectFlags (u.map (·.chars)) (p.map (·.chars))) {body : List UInt8}
    (hbody : body = connectBody flags keepalive clientId u p) :
    mqttMsgBuildConnect true clientId.chars (u.map (·.chars)) (p.map (·.chars)) keepalive
      = some (.ok ((0x10 :: (lengthField body.length ++ body)).map some)) := by
  have hclient := clientId.length_encode
  have hsize := length_connectBody clientId u p flags keepalive
  have hframe := framed 0x10 (length_connectBody_le clientId u p flags keepalive)
  have hrem := connectRemainingLen_eq clientId u p flags keepalive
  rw [← hbody] at hsize hframe hrem
  obtain ⟨f, hf⟩ : ∃ f, f = lengthField body.length := ⟨_, rfl⟩
  obtain ⟨n, hn⟩ : ∃ n, n = 1 + f.length + body.length := ⟨_, rfl⟩
  rw [← hf, ← hn] at hframe
  rw [← hf]
  have htotal : intAdd body.length (1 + f.length) = some (n : ℤ) := by
    rw [intAdd, add_comm, ← intAdd, hframe.totalLen]
  have hbyte : 0x00 ||| mqttMsgTypeConnect = 0x10 := rfl
  have hversion : mqttConnProtocolVersion3 = 3 := rfl
  have hsix : (mqttConnProtocolNameLen.toNat : ℤ) = 6 := rfl
  have hnameLen : mqttConnProtocolNameLen = UInt16.ofInt mqttConnProtocolName.length := by decide
  obtain ⟨name, hname⟩ : ∃ name, name = Mqtt31.protocolName.encode := ⟨_, rfl⟩
  have hnamelen : name.length = 8 := by rw [hname]; rfl
  have hnameEq : be16 (UInt16.ofNat mqttConnProtocolName.length) ++ mqttConnProtocolName
      = name := by
    rw [hname]
    rfl
  rw [connectBody, ← hname] at hbody
  -- what is written after each of the fields
  obtain ⟨b₁, hb₁⟩ : ∃ b₁, b₁ = 0x10 :: f := ⟨_, rfl⟩
  obtain ⟨b₂, hb₂⟩ : ∃ b₂, b₂ = b₁ ++ name := ⟨_, rfl⟩
  obtain ⟨b₃, hb₃⟩ : ∃ b₃, b₃ = b₂ ++ [3] := ⟨_, rfl⟩
  obtain ⟨b₄, hb₄⟩ : ∃ b₄, b₄ = b₃ ++ [flags] := ⟨_, rfl⟩
  obtain ⟨b₅, hb₅⟩ : ∃ b₅, b₅ = b₄ ++ be16 keepalive := ⟨_, rfl⟩
  obtain ⟨b₆, hb₆⟩ : ∃ b₆, b₆ = b₅ ++ clientId.str.encode := ⟨_, rfl⟩
  obtain ⟨b₇, hb₇⟩ : ∃ b₇, b₇ = b₆ ++ optionalBytes u := ⟨_, rfl⟩
  have hall : b₇ ++ optionalBytes p = 0x10 :: (f ++ body) := by
    simp only [hb₇, hb₆, hb₅, hb₄, hb₃, hb₂, hb₁, hbody, List.cons_append, List.append_assoc]
  have hlen₁ : b₁.length = 1 + f.length := by rw [hb₁, List.length_cons, add_comm]
  have hlen₂ : b₂.length = 1 + f.length + 8 := by rw [hb₂, List.length_append, hlen₁, hnamelen]
  have hlen₃ : b₃.length = 1 + f.length + 8 + 1 := by rw [hb₃, List.length_append, hlen₂]; rfl
  have hlen₄ : b₄.length = 1 + f.length + 8 + 1 + 1 := by
    rw [hb₄, List.length_append, hlen₃]; rfl
  have hlen₅ : b₅.length = 1 + f.length + 8 + 1 + 1 + 2 := by
    rw [hb₅, List.length_append, hlen₄]; rfl
  have hlen₆ : b₆.length = 1 + f.length + 8 + 1 + 1 + 2 + (clientId.chars.length + 2) := by
    rw [hb₆, List.length_append, hlen₅, hclient]
  have hlen₇ : b₇.length = 1 + f.length + 8 + 1 + 1 + 2 + (clientId.chars.length + 2)
      + (optionalBytes u).length := by
    rw [hb₇, List.length_append, hlen₆]
  have h₂ := @mqttEncodeString_padded none n b₁ mqttConnProtocolName (1 + f.length)
    (by omega) (by decide) (by rw [show mqttConnProtocolName.length = 6 from rfl]; omega)
  have h₃ := @Buffer.padded_store_at none b₂ n (1 + f.length + (6 + 2)) (by omega) (by omega) 3
  have h₄ := @Buffer.padded_store_at none b₃ n (1 + f.length + (6 + 2) + 1) (by omega) (by omega)
    flags
  have h₅ := @Buffer.padded_memcpy_at none n b₄ (be16 keepalive)
    (1 + f.length + (6 + 2) + 1 + 1) (by omega) (by rw [length_be16]; omega)
  have h₆ := @PacketString.encode_padded none n b₅ (1 + f.length + (6 + 2) + 1 + 1 + 2) clientId
    (by omega) (by omega)
  have h₇ := @mqttEncodeOptional_padded none n b₆
    (1 + f.length + (6 + 2) + 1 + 1 + 2 + (clientId.chars.length + 2)) u (by omega) (by omega)
  have h₈ := @mqttEncodeOptional_padded none n b₇
    (1 + f.length + (6 + 2) + 1 + 1 + 2 + (clientId.chars.length + 2) + (optionalBytes u).length) p
    (by omega) (by omega)
  have hfull : n = (0x10 :: (f ++ body)).length := by
    rw [hn, List.length_cons, List.length_append]
    omega
  rw [← hnameLen, hnameEq, ← hb₂] at h₂
  rw [← hb₃] at h₃
  rw [← hb₄] at h₄
  rw [← hb₅] at h₅
  rw [← hb₆] at h₆
  rw [← hb₇] at h₇
  rw [hall, hfull, Buffer.padded_length, ← hfull] at h₈
  have hstart := hframe.encode none
  rw [← hb₁] at hstart
  rw [hflags] at h₄
  rw [mqttMsgBuildConnect, hrem, Option.bind_eq_bind, Option.bind_some, hframe.fixedHeaderLen,
    clientId.intStrlen_chars]
  simp only [htotal, hframe.block, Int.toNat_natCast, Buffer.alloc_eq_filled,
    Buffer.filled_eq_padded, hbyte, hframe.store, hstart, hsix, h₂, hversion, h₃, h₄,
    hostBytes16_swap16, h₅, h₆, h₇, optionalLen_map, h₈, Option.bind_eq_bind, Option.bind_some]
  rfl

/-- Without memory there is no packet. -/
theorem mqttMsgBuildConnect_refused :
    mqttMsgBuildConnect false clientId.chars (u.map (·.chars)) (p.map (·.chars)) keepalive
      = some (.error errTr50Malloc) := by
  have hframe := framed 0x10 (length_connectBody_le clientId u p 0 keepalive)
  have htotal := hframe.totalLen
  rw [intAdd, add_comm, ← intAdd] at htotal
  rw [mqttMsgBuildConnect, connectRemainingLen_eq clientId u p 0 keepalive, Option.bind_eq_bind,
    Option.bind_some, hframe.fixedHeaderLen]
  simp only [htotal, hframe.refused, Option.bind_eq_bind, Option.bind_some]
  rfl

end Connect

/-- User name and password are two strings that may be missing. -/
theorem connect_body (clientId : PacketString) (login : Option (PacketString × PacketString))
    (keepalive : UInt16) :
    (BuildRequest.connect clientId login keepalive).packet.body
      = connectBody (connectFlags (login.map (·.1.chars)) (login.map (·.2.chars))) keepalive
        clientId (login.map (·.1)) (login.map (·.2)) := by
  rw [connectFlags_byte clientId.str keepalive login]
  cases login <;> rfl

theorem mqttMsgBuildConnect_bytes (malloc : Bool) (clientId : PacketString)
    (login : Option (PacketString × PacketString)) (keepalive : UInt16) :
    mqttMsgBuildConnect malloc clientId.chars (login.map (·.1.chars)) (login.map (·.2.chars))
        keepalive
      = some (if malloc then
          .ok ((BuildRequest.connect clientId login keepalive).packet.bytes.map some)
          else .error errTr50Malloc) := by
  have hu : login.map (·.1.chars) = (login.map (·.1)).map (·.chars) := by rw [Option.map_map]; rfl
  have hp : login.map (·.2.chars) = (login.map (·.2)).map (·.chars) := by rw [Option.map_map]; rfl
  have hbody := connect_body clientId login keepalive
  rw [hu, hp] at hbody ⊢
  cases malloc with
  | false => exact mqttMsgBuildConnect_refused clientId _ _ keepalive
  | true => exact mqttMsgBuildConnect_layout clientId _ _ _ keepalive rfl hbody

/-! ## The packets -/

namespace BuildRequest

/-- **A builder writes the packet of MQTT 3.1**, cell by cell. -/
theorem build_eq (req : BuildRequest) (malloc : Bool) :
    req.build malloc
      = some (if malloc then .ok (req.packet.bytes.map some) else .error errTr50Malloc) := by
  cases req with
  | connect clientId login keepalive =>
    exact mqttMsgBuildConnect_bytes malloc clientId login keepalive
  | subscribe topic qos msgId => exact mqttMsgBuildSubscribe_bytes malloc topic qos msgId
  | unsubscribe topic msgId => exact mqttMsgBuildUnsubscribe_bytes malloc topic msgId

theorem length_body_le (req : BuildRequest) : req.packet.body.length ≤ 268435455 := by
  cases req with
  | connect clientId login keepalive =>
    rw [connect_body]
    exact length_connectBody_le _ _ _ _ _
  | subscribe topic qos msgId =>
    have hle := topic.length_le
    have hlen : (subscribe topic qos msgId).packet.body.length
        = 2 + (topic.chars.length + 2 + 1) := by
      simp [packet, Mqtt31.Packet.body, Mqtt31.encodeTopic, topic.length_encode]
    omega
  | unsubscribe topic msgId =>
    have hle := topic.length_le
    have hlen : (unsubscribe topic msgId).packet.body.length
        = 2 + (topic.chars.length + 2) := by
      simp [packet, Mqtt31.Packet.body, topic.length_encode]
    omega

/-- **Whatever is built is a packet of MQTT 3.1 with these fields**: the block is written from end
to end, the length field gives the length of the body, and a decoder reads the fields back. -/
theorem decode_build (req : BuildRequest) :
    ∃ packet : List UInt8,
      (∀ malloc, req.build malloc
          = some (if malloc then .ok (packet.map some) else .error errTr50Malloc))
        ∧ (∃ type field body, packet = type :: (field ++ body) ∧ field.length ≤ 4
            ∧ IsLengthField field body.length)
        ∧ Mqtt31.decode packet = some req.packet := by
  have h4 := length_lengthField_le req.length_body_le
  exact ⟨req.packet.bytes, req.build_eq, ⟨_, _, _, rfl, h4, isLengthField_lengthField _⟩,
    Mqtt31.decode_bytes req.packet h4⟩

end BuildRequest

end Tr50
