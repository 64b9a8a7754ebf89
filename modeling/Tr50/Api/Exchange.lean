import Tr50.Machinery.Decimal
import Tr50.Api.Ids
import Tr50.Api.Payload
import Tr50.Api.Submit
import Tr50.Mqtt.Async
import Tr50.Mqtt.Packet
import Tr50.Mqtt.Publish

/-!
# Api/Exchange — a reply, from the socket to the callback of its request

The id that a request has been given is written into the topic, the peer writes it into the topic of
the reply, and `_tr50_publish_handler` reads it back with `atoi`.  `Answers` says what the peer is
to send; `reply_exchange` follows such a packet through the receive thread: to `mqtt_recv`, to
`_mqtt_async_handler_process`, to the pending list, to the callback.  A second copy of it finds
nobody, as long as its id is not given out again.
-/

namespace Tr50

open Machinery

variable {κ : Type}

/-! ## Topics -/

/-- `TR50_TOPIC_REPLY` and `TR50_TOPIC_COMPRESS_REPLY`. -/
def tr50TopicReply : List UInt8 := cstring ['r', 'e', 'p', 'l', 'y']
def tr50TopicCompressReply : List UInt8 := cstring ['r', 'e', 'p', 'l', 'y', 'z']

/-- What the peer may answer the request `seqId` with for it to be given `data`: topic and
payload. -/
inductive Answers (inflate : List UInt8 → Option (List UInt8)) (seqId : ℤ) (data : List UInt8) :
    (topic payload : List UInt8) → Prop
  | plain : Answers inflate seqId data (topicWithSeq tr50TopicReply seqId) data
  | deflated {payload : List UInt8} (h : inflate payload = some data) :
      Answers inflate seqId data (topicWithSeq tr50TopicCompressReply seqId) payload

/-- `"%d"` of a number that is not negative. -/
theorem cstring_toDigits (n : ℕ) : cstring (Nat.toDigits 10 n) = decimalDigits n := by
  have hdigit : ∀ d : Fin 10, ch (Nat.digitChar d) = UInt8.ofNat (48 + d) := by decide
  induction n using Nat.strong_induction_on with
  | _ n ih =>
    by_cases hn : n < 10
    · rw [Nat.toDigits_of_lt_base hn, decimalDigits_of_lt hn]
      exact congrArg (· :: []) (hdigit ⟨n, hn⟩)
    · have hlast := hdigit ⟨n % 10, Nat.mod_lt _ (by decide)⟩
      rw [Nat.toDigits_of_base_le (by decide) (not_lt.mp hn), decimalDigits_of_le (not_lt.mp hn),
        ← ih (n / 10) (by omega), cstring, List.map_append]
      exact congrArg _ (congrArg (· :: []) hlast)

theorem topicWithSeq_natCast (topic : List UInt8) (n : ℕ) :
    topicWithSeq topic n = topic ++ ch '/' :: decimalDigits n := by
  have htext : (toString (n : ℤ)).toList = Nat.toDigits 10 n := Nat.toList_repr
  rw [topicWithSeq, htext, ← cstring_toDigits]
  rfl

/-- `atoi` reads an id back from its digits. -/
theorem atoi_digits {n : ℕ} (h : n < 2 ^ 31) : atoi (decimalDigits n) = n := by
  obtain ⟨hne, hdigits⟩ := isDecimal_digits n
  have hvalue := decimalValue_digits n
  obtain ⟨c, digits, hcons⟩ := List.exists_cons_of_ne_nil hne
  rw [hcons] at hdigits hvalue ⊢
  obtain ⟨hlow, hhigh⟩ := hdigits c List.mem_cons_self
  rw [UInt8.le_iff_toNat_le] at hlow hhigh
  have hspace : ¬ (c = 32 ∨ (9 ≤ c ∧ c ≤ 13)) := by
    rintro (rfl | ⟨-, h13⟩)
    · exact absurd hlow (by decide)
    · rw [UInt8.le_iff_toNat_le] at h13
      exact absurd (hlow.trans h13) (by decide)
  have hminus : c ≠ ch '-' := by
    rintro rfl
    exact absurd hlow (by decide)
  have hplus : c ≠ ch '+' := by
    rintro rfl
    exact absurd hlow (by decide)
  have htake : (c :: digits).takeWhile isDigit = c :: digits :=
    List.takeWhile_eq_self_iff.mpr fun d hd => by
      obtain ⟨hl, hh⟩ := hdigits d hd
      exact decide_eq_true ⟨hl, hh⟩
  have hfold : (c :: digits).foldl (fun n d => n * 10 + (d - ch '0').toNat) 0 = n := by
    rw [← hvalue, decimalValue]
    exact congrFun (congrFun (congrArg _ (funext fun n => funext fun d => by
      rw [decimalStep, Nat.mul_comm]; rfl)) _) _
  unfold atoi
  rw [List.dropWhile_cons_of_neg (by simpa using hspace)]
  simp only [deref, List.headD_cons, hminus, hplus, false_or, if_false, htake, hfold]
  rw [toInt32, Int.bmod_def]
  omega

/-- **The handler reads the id and the text of an answer.** -/
theorem Answers.handler {inflate : List UInt8 → Option (List UInt8)} {n : ℕ} (hn : n < 2 ^ 31)
    {data topic payload : List UInt8} (h : Answers inflate n data topic payload) :
    tr50PublishHandler inflate topic payload = .reply n data := by
  cases h with
  | plain =>
    rw [topicWithSeq_natCast]
    have hz : hasPrefix ['r', 'e', 'p', 'l', 'y', 'z', '/']
        (tr50TopicReply ++ ch '/' :: decimalDigits n) = false := rfl
    have hplain : hasPrefix ['r', 'e', 'p', 'l', 'y', '/']
        (tr50TopicReply ++ ch '/' :: decimalDigits n) = true := rfl
    have hdrop : (tr50TopicReply ++ ch '/' :: decimalDigits n).drop 6 = decimalDigits n := rfl
    unfold tr50PublishHandler
    rw [hz, hplain, hdrop, atoi_digits hn]
    rfl
  | deflated hinflate =>
    rw [topicWithSeq_natCast]
    have hz : hasPrefix ['r', 'e', 'p', 'l', 'y', 'z', '/']
        (tr50TopicCompressReply ++ ch '/' :: decimalDigits n) = true := rfl
    have hdrop : (tr50TopicCompressReply ++ ch '/' :: decimalDigits n).drop 7
        = decimalDigits n := rfl
    unfold tr50PublishHandler
    rw [hz, hdrop, atoi_digits hn, hinflate]
    rfl

/-! ## Packets -/

/-- A PUBLISH packet with this topic and payload. -/
def IsPublish (p topic payload : List UInt8) : Prop :=
  ∃ b0 f body, p = b0 :: (f ++ body) ∧ b0 &&& mqttGetMsgType = mqttMsgTypePublish
    ∧ IsLengthField f body.length ∧ f.length ≤ 4 ∧ PublishWellFormed b0 body
    ∧ publishTopic body = topic ∧ publishPayload b0 body = payload

theorem IsPublish.isPacket {p topic payload : List UInt8} (h : IsPublish p topic payload) :
    IsPacket p := by
  obtain ⟨b0, f, body, rfl, -, hf, h4, -⟩ := h
  exact ⟨b0, f, body, rfl, hf, h4⟩

/-- **`mqtt_recv` hands over the packet that the stream begins with**, and takes no more. -/
theorem mqttRecv_front {env : RecvEnv} {script : List TcpRecv} {p rest : List UInt8} {byteRecv : ℤ}
    {r : RecvReturn} (hp : IsPacket p)
    (h : mqttRecv env script (p ++ rest) byteRecv = .returned r) (hret : r.ret = 0) :
    r.data.take r.len = p.map some ∧ r.stream = rest := by
  obtain ⟨q, hq, hdata, heq⟩ := mqttRecv_eq_zero h hret
  obtain ⟨rfl, hrest⟩ := hp.unique hq heq
  exact ⟨hdata, hrest.symm⟩

/-- …and `_mqtt_async_handler_process` gives the callback its topic and payload. -/
theorem IsPublish.published {γ κ : Type} {env : ProcessEnv} {client : MqttAsyncClient γ κ}
    {done : Processed γ κ} {p topic payload : List UInt8} (h : IsPublish p topic payload)
    (hmalloc : ∀ i, env.mallocCopy i) (hdone : mqttAsyncHandlerProcess env client p = some done) :
    ∃ msg, done.published = some msg ∧ msg.topic = some topic ∧ msg.payload = some payload
      ∧ msg.payloadLen = payload.length := by
  obtain ⟨b0, f, body, rfl, hb, hf, h4, hwf, rfl, rfl⟩ := h
  have hread := mqttMsgProcessPublish_wellFormed env.mallocCopy hb hf h4 hwf
  rw [if_pos (hmalloc 0), if_pos (hmalloc 1)] at hread
  have hcmd : mqttMsgCmdGet (b0 :: (f ++ body)) = some mqttMsgTypePublish := by
    rw [mqttMsgCmdGet, List.getElem?_cons_zero]
    simp only [Option.bind_eq_bind, Option.bind_some, hb]
    rfl
  rw [mqttAsyncHandlerProcess, hcmd] at hdone
  simp only [if_true, mqttAsyncHandlerPublish, hread] at hdone
  split_ifs at hdone
  · split at hdone
    · exact absurd hdone.symm (Option.some_ne_none _)
    · split at hdone
      · exact absurd hdone.symm (Option.some_ne_none _)
      · obtain rfl := Option.some.inj hdone
        exact ⟨_, rfl, rfl, rfl, rfl⟩
  · obtain rfl := Option.some.inj hdone
    exact ⟨_, rfl, rfl, rfl, rfl⟩

/-! ## Requests -/

namespace Tr50Client

variable {inflate : List UInt8 → Option (List UInt8)} {s t : Tr50Client κ} {a : Action κ}

/-- No request waits for `id`, nor is one on its way into the list. -/
structure Unawaited (id : ℤ) (s : Tr50Client κ) : Prop where
  pending : ∀ m ∈ s.pending.list, m.seqId ≠ id
  call : ∀ call, s.call = some call → call.stage = .payload ∨ call.stage = .add →
    call.message.seqId ≠ id

/-- The step does not give `id` to a call. -/
def Spares (id : ℤ) (s : Tr50Client κ) : Action κ → Prop
  | .api _ _ _ _ => tr50ApiMsgIdNext s.seqId ≠ id
  | _ => True

theorem Unawaited.remove {id : ℤ} (hs : Unawaited id s) (message : Tr50Message κ) :
    ∀ m ∈ (tr50PendingLinklistRemove s.pending message).list, m.seqId ≠ id :=
  fun m hm => hs.pending m (List.mem_of_mem_eraseP hm)

/-- **Nobody waits for an id until it is given out again.** -/
theorem Unawaited.step {id : ℤ} (hs : Unawaited id s) (hspares : Spares id s a)
    (h : Effect s a t) : Unawaited id t := by
  cases h with
  | refuse message ret hcall hhandle hret =>
    exact ⟨hs.pending, fun _ h => absurd h.symm (Option.some_ne_none _)⟩
  | enter call hcall hhandle hid hstage hsweep =>
    refine ⟨hs.pending, fun call' h _ => ?_⟩
    obtain rfl := Option.some.inj h
    exact fun heq => hspares (hid.symm.trans heq)
  | leave call ret hcall hret =>
    exact ⟨hs.pending, fun _ h => absurd h.symm (Option.some_ne_none _)⟩
  | goOn call stage hcall hstage =>
    refine ⟨hs.pending, fun call' h hearly => ?_⟩
    obtain rfl := Option.some.inj h
    rcases hstage with ⟨hpayload, -⟩ | ⟨-, hstage⟩ | ⟨-, ret, -, hstage⟩
    · exact hs.call call hcall (Or.inl hpayload)
    · exact absurd hearly (by simp [hstage])
    · exact absurd hearly (by simp [hstage])
  | add call now stage hcall hadd hstage =>
    have hne := hs.call call hcall (Or.inr hadd)
    refine ⟨fun m hm => ?_, fun call' h _ => ?_⟩
    · rcases List.mem_append.mp hm with hm | hm
      · exact hs.pending m hm
      · rw [List.mem_singleton.mp hm]
        exact hne
    · obtain rfl := Option.some.inj h
      exact hne
  | takeBack call ret message hcall hstage hfree hmem hid =>
    exact ⟨hs.remove message, fun _ h => absurd h.symm (Option.some_ne_none _)⟩
  | expired call ret hcall hstage hid =>
    exact ⟨hs.pending, fun _ h => absurd h.symm (Option.some_ne_none _)⟩
  | take message seqId data hdelivery hidle hmem hid => exact ⟨hs.remove message, hs.call⟩
  | deliver d hdelivery => exact ⟨hs.pending, hs.call⟩
  | expire message sweep pending hscan hnext hmem hpending =>
    exact ⟨hpending ▸ hs.remove message, hs.call⟩
  | quiet seqId stopped isStopping sweep pending hnext hkeep hpending hids =>
    refine ⟨fun m hm => ?_, hs.call⟩
    obtain ⟨m', hm', heq⟩ := List.mem_map.mp (hids ▸ List.mem_map_of_mem hm)
    exact (Prod.mk.inj heq).1 ▸ hs.pending m' hm'

theorem Unawaited.run {id : ℤ} (hs : Unawaited id s)
    (h : Reach (Tr50Client.step inflate) (Spares id) s t) : Unawaited id t :=
  h.invariant hs fun _ _ _ hs hspares hstep => hs.step hspares (step_effect hstep)

/-- A reply that nobody waits for changes nothing. -/
theorem Unawaited.receive {id : ℤ} (hs : Unawaited id s) {topic payload data : List UInt8}
    (hreply : tr50PublishHandler inflate topic payload = .reply id data)
    (h : s.step inflate (.receive topic payload) = some t) : t = s := by
  simp only [Tr50Client.step, Tr50Client.receive, hreply] at h
  split_ifs at h
  rcases findAndRemove_cases s.pending id with ⟨hfind, -⟩ | ⟨m, hm, hid, -⟩
  · rw [hfind] at h
    exact (Option.some.inj h).symm
  · exact absurd hid (hs.pending m hm)

/-- **A reply takes the request out that has its id**, and leaves the others. -/
theorem SubmitInv.receive (hs : SubmitInv s) {m : Tr50Message κ} (hm : m ∈ s.pending.list)
    (hdelivery : s.delivery = none) (hidle : s.sweep = .idle) {topic payload data : List UInt8}
    (hreply : tr50PublishHandler inflate topic payload = .reply m.seqId data) :
    ∃ t, s.step inflate (.receive topic payload) = some t
      ∧ t.delivery = some ⟨m, m.seqId, data⟩ ∧ s.pending.list.Perm (m :: t.pending.list)
      ∧ t.history.callbacks = s.history.callbacks ∧ Unawaited m.seqId t := by
  obtain ⟨m', hm', hid, hfind⟩ :=
    (findAndRemove_cases s.pending m.seqId).resolve_left fun h => h.2 m hm rfl
  obtain rfl : m' = m := List.inj_on_of_nodup_map hs.ids.nodup hm' hm hid
  have hperm := eraseP_handle hs.inv.accounted.pending_nodup hm
  have hnodup := (hperm.map fun m => m.seqId).nodup_iff.mp hs.ids.nodup
  refine ⟨{ s with
      pending := tr50PendingLinklistRemove s.pending m'
      delivery := some ⟨m', m'.seqId, data⟩
      history.unlinked := (m'.submission, .reply) :: s.history.unlinked }, ?_, rfl, hperm, rfl,
    ⟨fun m'' hm'' heq => ?_, fun call hcall hearly heq => ?_⟩⟩
  · rw [Tr50Client.step, Tr50Client.receive, hdelivery, hreply]
    simp only [Option.isSome_none, Bool.false_eq_true, if_false, hfind,
      if_pos (show s.PendingFree false from Or.inr hidle)]
  · exact (List.nodup_cons.mp hnodup).1 (List.mem_map.mpr ⟨m'', hm'', heq⟩)
  · -- its call would not have added it yet
    exact (hs.inv.callPlaced call hcall).early hearly _ (hs.inv.accounted.mem_added hm)
      (hs.ids.call call hcall m' hm heq.symm)

end Tr50Client

open Tr50Client

end Tr50
