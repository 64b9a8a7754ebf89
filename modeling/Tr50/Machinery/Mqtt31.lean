import Tr50.Machinery.Bytes

/-!
# Machinery/Mqtt31 — packets of MQTT 3.1, written and read

    type and flags | length field | body

A `Reader` takes a field off the front of the bytes, and `r.Takes bs x` says that it takes exactly
`bs` for `x`, whatever follows: fields that are read one after another are read off their bytes one
after another (`Takes.bind`).  `decode` reads a CONNECT, a SUBSCRIBE or an UNSUBSCRIBE and nothing
else: the body is as long as the length field says, and every byte of it belongs to a field.  What
`Packet.bytes` writes is what `decode` reads (`decode_bytes`).
-/

namespace Tr50.Machinery

namespace Mqtt31

/-! ## Readers -/

/-- Takes a value off the front of the bytes. -/
abbrev Reader := StateT (List UInt8) Option

namespace Reader

variable {α β : Type} {r : Reader α} {bs cs : List UInt8} {x : α} {y : β}

/-- The reader takes exactly `bs` for `x`, whatever follows. -/
def Takes (r : Reader α) (bs : List UInt8) (x : α) : Prop :=
  ∀ rest, r (bs ++ rest) = some (x, rest)

theorem Takes.pure (x : α) : Takes (Pure.pure x) [] x := fun _ => rfl

/-- **One field after another.** -/
theorem Takes.bind {f : α → Reader β} (h : r.Takes bs x) (h' : (f x).Takes cs y) :
    (r >>= f).Takes (bs ++ cs) y := by
  intro rest
  have hfirst := h (cs ++ rest)
  rw [← List.append_assoc] at hfirst
  change (r (bs ++ cs ++ rest)).bind (fun p => f p.1 p.2) = _
  rw [hfirst]
  exact h' rest

/-- The last field: what follows takes no bytes. -/
theorem Takes.last {f : α → Reader β} (h : r.Takes bs x) (h' : (f x).Takes [] y) :
    (r >>= f).Takes bs y := by
  have hall := h.bind h'
  rwa [List.append_nil] at hall

theorem Takes.map {f : α → β} (h : r.Takes bs x) :
    (r >>= fun a => Pure.pure (f a)).Takes bs (f x) := h.last (.pure _)

/-- No value. -/
def reject : Reader α := fun _ => none

def byte : Reader UInt8
  | [] => none
  | b :: bs => some (b, bs)

/-- High byte first. -/
def word : Reader UInt16 := do
  let hi ← byte
  let lo ← byte
  return word16 hi lo

def take (n : ℕ) : Reader (List UInt8) := fun bs =>
  if n ≤ bs.length then some (bs.take n, bs.drop n) else none

/-- A length field of at most so many digits. -/
def length : ℕ → Reader ℕ
  | 0 => reject
  | k + 1 => do
      let d ← byte
      if d.toNat < 128 then return d.toNat
      else
        let v ← length k
        return d.toNat % 128 + 128 * v

/-- A field that is there or not. -/
def optional (present : Bool) (r : Reader α) : Reader (Option α) :=
  if present then r >>= fun x => Pure.pure (some x) else Pure.pure none

/-- The bytes are those of one value. -/
def whole (r : Reader α) (bs : List UInt8) : Option α :=
  (r bs).bind fun p => if p.2 = [] then some p.1 else none

/-- The bytes are those of so many values at most. -/
def many (r : Reader α) : ℕ → List UInt8 → Option (List α)
  | _, [] => some []
  | 0, _ :: _ => none
  | k + 1, b :: bs => (r (b :: bs)).bind fun p => (many r k p.2).map (p.1 :: ·)

theorem takes_byte (b : UInt8) : byte.Takes [b] b := fun _ => rfl

theorem takes_word (n : UInt16) : word.Takes (be16 n) n := by
  have h := (takes_byte (n >>> 8).toUInt8).bind
    ((takes_byte n.toUInt8).map (f := word16 (n >>> 8).toUInt8))
    (f := fun hi => byte >>= fun lo => Pure.pure (word16 hi lo))
  rwa [word16_be16] at h

theorem takes_take (bs : List UInt8) : (take bs.length).Takes bs bs := by
  intro rest
  rw [take, if_pos (by simp), List.take_left, List.drop_left]

theorem length_succ_cons (k : ℕ) (d : UInt8) (bs : List UInt8) :
    length (k + 1) (d :: bs) = if d.toNat < 128 then some (d.toNat, bs)
      else (length k bs).map fun p => (d.toNat % 128 + 128 * p.1, p.2) := by
  change (if d.toNat < 128 then pure d.toNat else length k >>= fun v =>
    pure (d.toNat % 128 + 128 * v) : Reader ℕ) bs = _
  split_ifs
  · rfl
  · exact (@Option.map_eq_bind _ _ _ (length k bs)).symm

/-- **A length field is read to its end.** -/
theorem takes_length {f : List UInt8} {v : ℕ} (hf : IsLengthField f v) : ∀ {k : ℕ}, f.length ≤ k →
    (length k).Takes f v := by
  induction hf with
  | @last d hd =>
    intro k hk rest
    obtain ⟨k, rfl⟩ : ∃ m, k = m + 1 := ⟨k - 1, by simp at hk; omega⟩
    rw [List.singleton_append, length_succ_cons, if_pos hd]
  | @more d f v hd hf ih =>
    intro k hk rest
    rw [List.length_cons] at hk
    obtain ⟨k, rfl⟩ : ∃ m, k = m + 1 := ⟨k - 1, by omega⟩
    rw [List.cons_append, length_succ_cons, if_neg (by omega), ih (by omega) rest]
    rfl

theorem takes_optional {o : Option α} {enc : α → List UInt8}
    (h : ∀ x ∈ o, r.Takes (enc x) x) : (optional o.isSome r).Takes (o.elim [] enc) o := by
  cases o with
  | none => exact .pure none
  | some x => exact (h x rfl).map

theorem Takes.whole (h : r.Takes bs x) : r.whole bs = some x := by
  have hall := h []
  rw [List.append_nil] at hall
  rw [Reader.whole, hall]
  rfl

/-- Values are read off to the last, if each takes a byte at least. -/
theorem many_flatMap {enc : α → List UInt8} (h : ∀ x, r.Takes (enc x) x) (hne : ∀ x, enc x ≠ []) :
    ∀ {k : ℕ} (xs : List α), xs.length ≤ k → r.many k (xs.flatMap enc) = some xs
  | k, [], _ => by cases k <;> rfl
  | k + 1, x :: xs, hk => by
      have hread := h x (xs.flatMap enc)
      obtain ⟨b, bs, hb⟩ := List.exists_cons_of_ne_nil (hne x)
      rw [List.flatMap_cons, hb, List.cons_append, many, ← List.cons_append, ← hb, hread,
        Option.bind_some, many_flatMap h hne xs (by simpa using hk)]
      rfl

end Reader

/-! ## Values -/

/-- Bytes with a 16-bit length. -/
structure Str where
  bytes : List UInt8
  length_le : bytes.length ≤ 65535

/-- The QoS levels. -/
inductive Qos
  | atMostOnce
  | atLeastOnce
  | exactlyOnce
deriving DecidableEq, Repr

/-- What the peer publishes for a client that it loses. -/
structure Will where
  topic : Str
  message : Str
  qos : Qos
  retain : Bool

/-- A CONNECT.  There is no password without a user name. -/
structure Connect where
  clientId : Str
  will : Option Will
  login : Option (Str × Option Str)
  cleanSession : Bool
  keepalive : UInt16

inductive Packet
  | connect (c : Connect)
  | subscribe (msgId : UInt16) (topics : List (Str × Qos)) (topics_ne : topics ≠ [])
  | unsubscribe (msgId : UInt16) (topics : List Str) (topics_ne : topics ≠ [])

/-! ## Writing -/

def Str.encode (s : Str) : List UInt8 := be16 (UInt16.ofNat s.bytes.length) ++ s.bytes

def Qos.byte : Qos → UInt8
  | atMostOnce => 0
  | atLeastOnce => 1
  | exactlyOnce => 2

/-- `MQIsdp` -/
def protocolName : Str := ⟨[0x4D, 0x51, 0x49, 0x73, 0x64, 0x70], by decide⟩

def protocolVersion : UInt8 := 3

/-- The flags of a CONNECT, from the highest bit to the lowest but one. -/
structure Flags where
  username : Bool
  password : Bool
  willRetain : Bool
  willQos : Qos
  will : Bool
  cleanSession : Bool
deriving DecidableEq, Repr

def Flags.byte (f : Flags) : UInt8 :=
  f.username.toUInt8 <<< 7 ||| f.password.toUInt8 <<< 6 ||| f.willRetain.toUInt8 <<< 5
    ||| f.willQos.byte <<< 3 ||| f.will.toUInt8 <<< 2 ||| f.cleanSession.toUInt8 <<< 1

def Connect.flags (c : Connect) : Flags where
  username := c.login.isSome
  password := (c.login.bind (·.2)).isSome
  willRetain := c.will.any (·.retain)
  willQos := c.will.elim .atMostOnce (·.qos)
  will := c.will.isSome
  cleanSession := c.cleanSession

def Will.encode (w : Will) : List UInt8 := w.topic.encode ++ w.message.encode

def encodeLogin (l : Str × Option Str) : List UInt8 := l.1.encode ++ l.2.elim [] Str.encode

def Connect.body (c : Connect) : List UInt8 :=
  protocolName.encode ++ ([protocolVersion] ++ ([c.flags.byte] ++ (be16 c.keepalive
    ++ (c.clientId.encode ++ (c.will.elim [] Will.encode ++ c.login.elim [] encodeLogin)))))

def encodeTopic (t : Str × Qos) : List UInt8 := t.1.encode ++ [t.2.byte]

namespace Packet

/-- The type and its flags: a SUBSCRIBE and an UNSUBSCRIBE are sent at QoS 1. -/
def byte1 : Packet → UInt8
  | connect _ => 0x10
  | subscribe _ _ _ => 0x82
  | unsubscribe _ _ _ => 0xA2

def body : Packet → List UInt8
  | connect c => c.body
  | subscribe msgId topics _ => be16 msgId ++ topics.flatMap encodeTopic
  | unsubscribe msgId topics _ => be16 msgId ++ topics.flatMap Str.encode

/-- The packet on the wire. -/
def bytes (p : Packet) : List UInt8 := p.byte1 :: (lengthField p.body.length ++ p.body)

end Packet

/-! ## Reading -/

open Reader

def str : Reader Str := do
  let n ← word
  let bs ← take n.toNat
  if h : bs.length ≤ 65535 then return ⟨bs, h⟩ else reject

def qosOf (b : UInt8) : Option Qos :=
  if b = 0 then some .atMostOnce else if b = 1 then some .atLeastOnce
  else if b = 2 then some .exactlyOnce else none

def qos : Reader Qos := do
  let b ← byte
  (qosOf b).elim reject pure

/-- The lowest bit is reserved. -/
def flagsOf (b : UInt8) : Option Flags :=
  if b &&& 1 = 0 then
    (qosOf (b >>> 3 &&& 3)).map fun q =>
      ⟨b &&& 0x80 ≠ 0, b &&& 0x40 ≠ 0, b &&& 0x20 ≠ 0, q, b &&& 4 ≠ 0, b &&& 2 ≠ 0⟩
  else none

def flags : Reader Flags := do
  let b ← byte
  (flagsOf b).elim reject pure

def will (f : Flags) : Reader Will := do
  let topic ← str
  let message ← str
  return ⟨topic, message, f.willQos, f.willRetain⟩

def login (f : Flags) : Reader (Str × Option Str) := do
  let username ← str
  let password ← optional f.password str
  return (username, password)

def connect : Reader Connect := do
  let name ← str
  let version ← byte
  if name.bytes = protocolName.bytes ∧ version = protocolVersion then
    let f ← flags
    if f.password ∧ ¬ f.username then reject
    else
      let keepalive ← word
      let clientId ← str
      let w ← optional f.will (will f)
      let l ← optional f.username (login f)
      return ⟨clientId, w, l, f.cleanSession, keepalive⟩
  else reject

def topic : Reader (Str × Qos) := do
  let s ← str
  let q ← qos
  return (s, q)

/-- A message id and as many values as the body holds, one at least. -/
def listBody {α : Type} (r : Reader α) (packet : UInt16 → (xs : List α) → xs ≠ [] → Packet)
    (body : List UInt8) : Option Packet :=
  (word body).bind fun p => (many r p.2.length p.2).bind fun xs =>
    if h : xs ≠ [] then some (packet p.1 xs h) else none

/-- The body, by the type. -/
def decodeBody (type : UInt8) (body : List UInt8) : Option Packet :=
  if type &&& 0xF0 = 0x10 then (connect.whole body).map .connect
  else if type &&& 0xF6 = 0x82 then listBody topic .subscribe body
  else if type &&& 0xF6 = 0xA2 then listBody str .unsubscribe body
  else none

/-- The packet that the bytes are. -/
def decode (bs : List UInt8) : Option Packet :=
  (byte bs).bind fun type => (Reader.length 4 type.2).bind fun len =>
    if len.2.length = len.1 then decodeBody type.1 len.2 else none

/-! ## The round trip -/

theorem takes_str (s : Str) : str.Takes s.encode s := by
  have hn : (UInt16.ofNat s.bytes.length).toNat = s.bytes.length :=
    UInt16.toNat_ofNat_of_lt' (by have := s.length_le; simp only [UInt16.size]; omega)
  refine (takes_word _).bind ?_
  rw [hn]
  refine (takes_take s.bytes).last ?_
  rw [dif_pos s.length_le]
  exact .pure s

theorem qosOf_byte (q : Qos) : qosOf q.byte = some q := by
  cases q <;> rfl

theorem takes_qos (q : Qos) : qos.Takes [q.byte] q := by
  refine (takes_byte q.byte).last ?_
  rw [qosOf_byte]
  exact .pure q

/-- The bits of the flags are told apart. -/
theorem flagsOf_byte (f : Flags) : flagsOf f.byte = some f := by
  obtain ⟨u, p, r, q, w, c⟩ := f
  cases u <;> cases p <;> cases r <;> cases q <;> cases w <;> cases c <;> rfl

theorem takes_flags (f : Flags) : flags.Takes [f.byte] f := by
  refine (takes_byte f.byte).last ?_
  rw [flagsOf_byte]
  exact .pure f

theorem takes_will (f : Flags) (w : Will) (hqos : f.willQos = w.qos)
    (hretain : f.willRetain = w.retain) : (will f).Takes w.encode w := by
  refine (takes_str w.topic).bind ((takes_str w.message).last ?_)
  rw [hqos, hretain]
  exact .pure w

theorem takes_login (f : Flags) (l : Str × Option Str) (h : f.password = l.2.isSome) :
    (login f).Takes (encodeLogin l) l := by
  refine (takes_str l.1).bind (Takes.last ?_ (.pure l))
  rw [h]
  exact takes_optional fun p _ => takes_str p

theorem takes_topic (t : Str × Qos) : topic.Takes (encodeTopic t) t :=
  (takes_str t.1).bind ((takes_qos t.2).last (.pure t))

/-- **The body of a CONNECT is read field by field.** -/
theorem takes_connect (c : Connect) : connect.Takes c.body c := by
  refine (takes_str protocolName).bind ((takes_byte protocolVersion).bind ?_)
  rw [if_pos ⟨rfl, rfl⟩]
  refine (takes_flags c.flags).bind ?_
  have hlogin : ¬ (c.flags.password ∧ ¬ c.flags.username) := by
    rintro ⟨hp, hu⟩
    simp only [Connect.flags] at hp hu
    cases hl : c.login <;> simp [hl] at hp hu
  rw [if_neg hlogin]
  refine (takes_word c.keepalive).bind ((takes_str c.clientId).bind ?_)
  have hw : (optional c.flags.will (will c.flags)).Takes (c.will.elim [] Will.encode) c.will :=
    takes_optional fun w hw => by
      rw [Option.mem_def] at hw
      exact takes_will c.flags w (by rw [Connect.flags, hw]; rfl) (by rw [Connect.flags, hw]; rfl)
  have hl : (optional c.flags.username (login c.flags)).Takes (c.login.elim [] encodeLogin)
      c.login :=
    takes_optional fun l hl => by
      rw [Option.mem_def] at hl
      exact takes_login c.flags l (by rw [Connect.flags, hl]; rfl)
  exact hw.bind (hl.last (.pure c))

theorem Str.encode_ne_nil (s : Str) : s.encode ≠ [] := by simp [Str.encode, be16]

theorem encodeTopic_ne_nil (t : Str × Qos) : encodeTopic t ≠ [] := by simp [encodeTopic]

/-- A list of values behind a message id. -/
theorem listBody_flatMap {α : Type} {r : Reader α} {enc : α → List UInt8}
    {packet : UInt16 → (xs : List α) → xs ≠ [] → Packet} (h : ∀ x, r.Takes (enc x) x)
    (hne : ∀ x, enc x ≠ []) (msgId : UInt16) {xs : List α} (hxs : xs ≠ []) :
    listBody r packet (be16 msgId ++ xs.flatMap enc) = some (packet msgId xs hxs) := by
  have hlen : xs.length ≤ (xs.flatMap enc).length := by
    have hone : ∀ n ∈ xs.map fun x => (enc x).length, 1 ≤ n := by
      intro n hn
      obtain ⟨x, -, rfl⟩ := List.mem_map.mp hn
      exact List.length_pos_of_ne_nil (hne x)
    have hle := List.length_le_sum_of_one_le _ hone
    rwa [List.length_map, ← List.length_flatMap] at hle
  rw [listBody, takes_word msgId (xs.flatMap enc), Option.bind_some,
    many_flatMap h hne xs hlen, Option.bind_some, dif_pos hxs]

theorem decodeBody_body (p : Packet) : decodeBody p.byte1 p.body = some p := by
  cases p with
  | connect c =>
    rw [decodeBody, Packet.byte1, if_pos (by decide), Packet.body, (takes_connect c).whole]
    rfl
  | subscribe msgId topics hne =>
    rw [decodeBody, Packet.byte1, if_neg (by decide), if_pos (by decide), Packet.body,
      listBody_flatMap takes_topic encodeTopic_ne_nil]
  | unsubscribe msgId topics hne =>
    rw [decodeBody, Packet.byte1, if_neg (by decide), if_neg (by decide), if_pos (by decide),
      Packet.body, listBody_flatMap takes_str Str.encode_ne_nil]

/-- **What is written is read**, if a length field of four digits carries the length. -/
theorem decode_bytes (p : Packet) (h : (lengthField p.body.length).length ≤ 4) :
    decode p.bytes = some p := by
  have hlen := takes_length (isLengthField_lengthField p.body.length) h p.body
  rw [decode, Packet.bytes, ← List.singleton_append, takes_byte, Option.bind_some, hlen,
    Option.bind_some, if_pos rfl, decodeBody_body]

end Mqtt31

end Tr50.Machinery
