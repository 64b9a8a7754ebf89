import Tr50.Mqtt.Build

/-!
# Mqtt/Oversize — what no packet can hold

A string of a packet has a 16-bit length and a body a 28-bit one.  The header macro answers `-1` for
a body past that, and no builder looks at it; the length of a string is cut to 16 bits where it is
stored, and the pointer moves by the whole of it.  So an input that has no packet is not refused as
such: a builder returns an error only where it gets no block (`mqttMsgBuildPublish_error_iff` and
the three beside it), which for an allocator that has memory takes a negative size
(`BuilderInput.refused_iff`).
-/

namespace Tr50

open Machinery

/-! ## Adding up -/

/-- What an `int` holds. -/
def IsInt (n : ℤ) : Prop := -2 ^ 31 ≤ n ∧ n < 2 ^ 31

instance (n : ℤ) : Decidable (IsInt n) := inferInstanceAs (Decidable (_ ∧ _))

/-- Every number that is added and every sum on the way is an `int`. -/
def Adds : ℤ → List ℤ → Prop
  | _, [] => True
  | sum, n :: ns => IsInt n ∧ IsInt (sum + n) ∧ Adds (sum + n) ns

theorem adds_nil {sum : ℤ} : Adds sum [] ↔ True := Iff.rfl

theorem adds_cons {sum n : ℤ} {ns : List ℤ} :
    Adds sum (n :: ns) ↔ IsInt n ∧ IsInt (sum + n) ∧ Adds (sum + n) ns := Iff.rfl

theorem Adds.sum_isInt : ∀ {sum : ℤ} {ns : List ℤ}, IsInt sum → Adds sum ns →
    IsInt (sum + ns.sum)
  | sum, [], h, _ => by simpa using h
  | sum, n :: ns, _, ⟨_, hsum, hadds⟩ => by
      rw [List.sum_cons, ← add_assoc]
      exact hadds.sum_isInt hsum

theorem intAdd_eq_some_iff {a b n : ℤ} : intAdd a b = some n ↔ IsInt (a + b) ∧ n = a + b := by
  unfold intAdd IsInt
  split_ifs with h
  · rw [Option.some.injEq, eq_comm, and_iff_right h]
  · exact iff_of_false (fun h => nomatch h) fun hn => h hn.1

theorem isInt_intStrlen (s : List UInt8) : IsInt (intStrlen s) := by
  have hlo := @Int.le_bmod (strlen s) (2 ^ 32) (by norm_num)
  have hhi := @Int.bmod_lt (strlen s) (2 ^ 32) (by norm_num)
  unfold intStrlen toInt32 IsInt
  omega

theorem mallocBlock_eq_none_iff {malloc : Bool} {size : ℤ} :
    mallocBlock malloc size = none ↔ malloc = false ∨ size < 0 := by
  unfold mallocBlock
  split_ifs with h
  · exact iff_of_false (fun h => nomatch h) fun hn => by
      rcases hn with hn | hn
      · rw [hn] at h
        exact absurd h.1 (by decide)
      · omega
  · refine iff_of_true rfl ?_
    rcases Bool.eq_false_or_eq_true malloc with hm | hm
    · exact Or.inr (not_le.mp fun h0 => h ⟨hm, h0⟩)
    · exact Or.inl hm

/-- The total never overflows, and where there is memory only a negative body has no block. -/
theorem block_of_remaining (malloc : Bool) {n : ℤ} (hn : IsInt n) :
    ∃ t, intAdd (mqttCalcFheaderLength n) n = some t
      ∧ (mallocBlock malloc t = none ↔ malloc = false ∨ n < -2) := by
  obtain ⟨hlo, hhi⟩ := hn
  refine ⟨mqttCalcFheaderLength n + n, intAdd_of_lt ?_, ?_⟩
  · unfold mqttCalcFheaderLength
    split_ifs <;> omega
  · rw [mallocBlock_eq_none_iff]
    unfold mqttCalcFheaderLength
    split_ifs <;> exact or_congr_right (by omega)

/-! ## Inputs -/

/-- What a builder is called with; the length of a payload is an `int`. -/
inductive BuilderInput
  | connect (clientId : List UInt8) (username password : Option (List UInt8)) (keepalive : UInt16)
  | publish (topic : List UInt8) (qos retain : ℤ) (msgId : UInt16) (payload : List UInt8)
      (payload_lt : payload.length < 2 ^ 31)
  | subscribe (topic : List UInt8) (qos : ℤ) (msgId : UInt16)
  | unsubscribe (topic : List UInt8) (msgId : UInt16)

namespace BuilderInput

/-- The builder's call. -/
def build (malloc : Bool) : BuilderInput → Option (Except ℤ Buffer)
  | connect clientId username password keepalive =>
      mqttMsgBuildConnect malloc clientId username password keepalive
  | publish topic qos retain msgId payload _ =>
      mqttMsgBuildPublish malloc topic qos retain msgId payload
  | subscribe topic qos msgId => mqttMsgBuildSubscribe malloc topic qos msgId
  | unsubscribe topic msgId => mqttMsgBuildUnsubscribe malloc topic msgId

/-- The strings of the packet. -/
def strings : BuilderInput → List (List UInt8)
  | connect clientId username password _ => clientId :: (username.toList ++ password.toList)
  | publish topic _ _ _ _ _ => [topic]
  | subscribe topic _ _ => [topic]
  | unsubscribe topic _ => [topic]

/-- The bytes of the body beside the characters of its strings. -/
def overhead : BuilderInput → ℕ
  | connect _ username password _ => 14 + 2 * (username.toList ++ password.toList).length
  | publish _ qos _ _ payload _ => 2 + (if qos > 0 then 2 else 0) + payload.length
  | subscribe _ _ _ => 5
  | unsubscribe _ _ => 4

/-- The input is one of a packet: its lengths fit their fields. -/
def HasPacket (i : BuilderInput) : Prop :=
  (∀ s ∈ i.strings, strlen s ≤ 65535) ∧ (i.strings.map strlen).sum + i.overhead ≤ 268435455

/-- The builder returns an error, and no packet. -/
def Refused (malloc : Bool) (i : BuilderInput) : Prop :=
  ∃ e, e ≠ 0 ∧ i.build malloc = some (.error e)

/-- The lengths the builder adds up, each as an `int`. -/
def addends : BuilderInput → List ℤ
  | connect clientId username password _ =>
      12 :: (clientId :: (username.toList ++ password.toList)).map fun s => intStrlen s + 2
  | publish topic qos _ _ payload _ =>
      [intStrlen topic + 2, if qos > 0 then 2 else 0, payload.length]
  | subscribe topic _ _ => [4, intStrlen topic, 1]
  | unsubscribe topic _ => [4, intStrlen topic]

/-- `remaining_len`. -/
def remaining : BuilderInput → Option ℤ
  | connect clientId username password _ =>
      connectRemainingLen (intStrlen clientId) username (intStrlen (username.getD [])) password
        (intStrlen (password.getD []))
  | publish topic qos _ _ payload _ => publishRemainingLen (intStrlen topic) qos payload.length
  | subscribe topic _ _ => (intAdd 4 (intStrlen topic)).bind (intAdd · 1)
  | unsubscribe topic _ => intAdd 4 (intStrlen topic)

theorem refused_iff_remaining {malloc : Bool} {i : BuilderInput} :
    i.Refused malloc ↔ ∃ n t, i.remaining = some n ∧ intAdd (mqttCalcFheaderLength n) n = some t
      ∧ mallocBlock malloc t = none := by
  have hcomm : ∀ n, intAdd n (mqttCalcFheaderLength n) = intAdd (mqttCalcFheaderLength n) n :=
    fun n => by rw [intAdd, intAdd, add_comm]
  have hcore : ∀ e, i.build malloc = some (.error e) ↔ ∃ n t, i.remaining = some n
      ∧ intAdd (mqttCalcFheaderLength n) n = some t ∧ mallocBlock malloc t = none
      ∧ e = errTr50Malloc := by
    intro e
    cases i with
    | connect =>
      simp only [← hcomm]
      exact mqttMsgBuildConnect_error_iff
    | publish => exact mqttMsgBuildPublish_error_iff
    | subscribe => exact mqttMsgBuildSubscribe_error_iff
    | unsubscribe => exact mqttMsgBuildUnsubscribe_error_iff
  constructor
  · rintro ⟨e, -, he⟩
    obtain ⟨n, t, hn, ht, hblock, -⟩ := (hcore e).mp he
    exact ⟨n, t, hn, ht, hblock⟩
  · rintro ⟨n, t, hn, ht, hblock⟩
    exact ⟨errTr50Malloc, by decide, (hcore _).mpr ⟨n, t, hn, ht, hblock, rfl⟩⟩

theorem Adds.append {ns : List ℤ} : ∀ {sum : ℤ} {ms : List ℤ},
    Adds sum (ms ++ ns) ↔ Adds sum ms ∧ Adds (sum + ms.sum) ns
  | sum, [] => by simp [adds_nil]
  | sum, m :: ms => by
      rw [List.cons_append, adds_cons, adds_cons, Adds.append, List.sum_cons, and_assoc, and_assoc,
        ← add_assoc]

/-- A string's length and the two bytes before it are added in one. -/
theorem intAdd_two_eq_some_iff {sum m n : ℤ} :
    (intAdd m 2).bind (intAdd sum) = some n ↔ Adds sum [m + 2] ∧ n = sum + (m + 2) := by
  rw [Option.bind_eq_some_iff]
  simp only [intAdd_eq_some_iff, adds_cons, adds_nil, and_true]
  constructor
  · rintro ⟨k, ⟨hk, rfl⟩, hn, rfl⟩
    exact ⟨⟨hk, hn⟩, rfl⟩
  · rintro ⟨⟨hk, hn⟩, h⟩
    exact ⟨m + 2, ⟨hk, rfl⟩, hn, h⟩

theorem addOptionalLen_eq_some_iff {sum n : ℤ} {data : Option (List UInt8)} :
    addOptionalLen sum data (intStrlen (data.getD [])) = some n
      ↔ Adds sum (data.toList.map fun s => intStrlen s + 2)
        ∧ n = sum + (data.toList.map fun s => intStrlen s + 2).sum := by
  cases data with
  | none =>
    simp only [addOptionalLen, Option.toList_none, List.map_nil, adds_nil, List.sum_nil, add_zero,
      true_and, Option.isSome_none, Bool.false_eq_true, if_false, Option.some.injEq]
    exact eq_comm
  | some s =>
    rw [addOptionalLen, if_pos Option.isSome_some, Option.getD_some, intAdd_two_eq_some_iff,
      Option.toList_some, List.map_singleton, List.sum_singleton]

theorem subscribe_sum_iff {len n : ℤ} (hlen : IsInt len) :
    (intAdd 4 len).bind (intAdd · 1) = some n ↔ Adds 0 [4, len, 1] ∧ n = [4, len, 1].sum := by
  have h4 : IsInt 4 := by decide
  have h1 : IsInt 1 := by decide
  simp only [Option.bind_eq_some_iff, intAdd_eq_some_iff, adds_cons, adds_nil, zero_add,
    and_iff_right h4, and_iff_right h1, and_iff_right hlen, and_true, List.sum_cons, List.sum_nil,
    add_zero]
  constructor
  · rintro ⟨m, ⟨hm, rfl⟩, hn, rfl⟩
    exact ⟨⟨hm, hn⟩, add_assoc _ _ _⟩
  · rintro ⟨⟨hm, hn⟩, rfl⟩
    exact ⟨_, ⟨hm, rfl⟩, hn, (add_assoc _ _ _).symm⟩

theorem unsubscribe_sum_iff {len n : ℤ} (hlen : IsInt len) :
    intAdd 4 len = some n ↔ Adds 0 [4, len] ∧ n = [4, len].sum := by
  have h4 : IsInt 4 := by decide
  simp only [intAdd_eq_some_iff, adds_cons, adds_nil, zero_add, and_iff_right h4,
    and_iff_right hlen, and_true, List.sum_cons, List.sum_nil, add_zero]

theorem publish_sum_iff {len qos payloadLen n : ℤ} (hpay : IsInt payloadLen) :
    publishRemainingLen len qos payloadLen = some n
      ↔ Adds 0 [len + 2, if qos > 0 then 2 else 0, payloadLen]
        ∧ n = [len + 2, if qos > 0 then 2 else 0, payloadLen].sum := by
  have hid : IsInt (if qos > 0 then 2 else 0) := by
    split_ifs <;> decide
  simp only [publishRemainingLen, Option.bind_eq_bind, Option.bind_eq_some_iff, intAdd_eq_some_iff,
    adds_cons, adds_nil, zero_add, and_iff_right hid, and_iff_right hpay, and_true, List.sum_cons,
    List.sum_nil, add_zero]
  constructor
  · rintro ⟨m, ⟨hm, rfl⟩, k, ⟨hk, rfl⟩, hn, rfl⟩
    exact ⟨⟨hm, hm, hk, hn⟩, by simp only [add_assoc]⟩
  · rintro ⟨⟨hm, -, hk, hn⟩, rfl⟩
    exact ⟨_, ⟨hm, rfl⟩, _, ⟨hk, rfl⟩, hn, by simp only [add_assoc]⟩

theorem connect_sum_iff {len n : ℤ} {username password : Option (List UInt8)} :
    connectRemainingLen len username (intStrlen (username.getD [])) password
        (intStrlen (password.getD [])) = some n
      ↔ Adds 0 (12 :: (len + 2)
          :: (username.toList ++ password.toList).map fun s => intStrlen s + 2)
        ∧ n = (12 :: (len + 2)
          :: (username.toList ++ password.toList).map fun s => intStrlen s + 2).sum := by
  have h12 : IsInt 12 := by decide
  rw [connectRemainingLen, Option.bind_eq_bind, Option.bind_eq_some_iff, List.map_append]
  simp only [intAdd_two_eq_some_iff]
  simp only [Option.bind_eq_some_iff, addOptionalLen_eq_some_iff]
  generalize username.toList.map (fun s => intStrlen s + 2) = us
  generalize password.toList.map (fun s => intStrlen s + 2) = ps
  simp only [adds_cons, adds_nil, Adds.append, zero_add, and_iff_right h12, and_true,
    List.sum_cons, List.sum_append]
  constructor
  · rintro ⟨m, ⟨⟨hc, hsum⟩, rfl⟩, k, ⟨hu, rfl⟩, hp, rfl⟩
    exact ⟨⟨hc, hsum, hu, hp⟩, by simp only [add_assoc]⟩
  · rintro ⟨⟨hc, hsum, hu, hp⟩, rfl⟩
    exact ⟨_, ⟨⟨hc, hsum⟩, rfl⟩, _, ⟨hu, rfl⟩, hp, by simp only [add_assoc]⟩

/-- **The builder adds its lengths up, and nothing overflows.** -/
theorem remaining_eq_some_iff {i : BuilderInput} {n : ℤ} :
    i.remaining = some n ↔ Adds 0 i.addends ∧ n = i.addends.sum := by
  cases i with
  | connect clientId username password keepalive => exact connect_sum_iff
  | publish topic qos retain msgId payload hlt => exact publish_sum_iff ⟨by omega, by omega⟩
  | subscribe topic qos msgId =>
    rw [remaining, addends]
    exact subscribe_sum_iff (isInt_intStrlen topic)
  | unsubscribe topic msgId =>
    rw [remaining, addends]
    exact unsubscribe_sum_iff (isInt_intStrlen topic)

/-- **A builder refuses an input exactly where its lengths add up, and there is no memory or the
sum is below `-2`.** -/
theorem refused_iff {malloc : Bool} {i : BuilderInput} :
    i.Refused malloc ↔ Adds 0 i.addends ∧ (malloc = false ∨ i.addends.sum < -2) := by
  rw [refused_iff_remaining]
  constructor
  · rintro ⟨n, t, hn, ht, hblock⟩
    obtain ⟨hadds, rfl⟩ := remaining_eq_some_iff.mp hn
    have hint := hadds.sum_isInt (by decide)
    rw [zero_add] at hint
    obtain ⟨t', ht', hiff⟩ := block_of_remaining malloc hint
    obtain rfl := Option.some.inj (ht.symm.trans ht')
    exact ⟨hadds, hiff.mp hblock⟩
  · rintro ⟨hadds, hwhy⟩
    have hint := hadds.sum_isInt (by decide)
    rw [zero_add] at hint
    obtain ⟨t, ht, hiff⟩ := block_of_remaining malloc hint
    exact ⟨_, t, remaining_eq_some_iff.mpr ⟨hadds, rfl⟩, ht, hiff.mpr hwhy⟩

/-- **What has no packet is refused only for want of memory, or where the lengths, taken as `int`s,
sum below `-2`.** -/
theorem refused_of_oversize_iff (malloc : Bool) (i : BuilderInput) :
    (¬ i.HasPacket → i.Refused malloc)
      ↔ i.HasPacket ∨ Adds 0 i.addends ∧ (malloc = false ∨ i.addends.sum < -2) := by
  rw [refused_iff, ← or_iff_not_imp_left]

/-- A topic filter of `65536` bytes is not refused. -/
theorem not_refused_of_oversize :
    ¬ (¬ (BuilderInput.subscribe (List.replicate 65536 97) 1 7).HasPacket →
        (BuilderInput.subscribe (List.replicate 65536 97) 1 7).Refused true)
      ∧ ∃ packet, (BuilderInput.subscribe (List.replicate 65536 97) 1 7).build true
          = some (.ok packet)
        ∧ (0x82 :: (lengthField 65541 ++ (be16 7 ++ be16 0))).map some <+: packet := by
  have h0 : (0 : UInt8) ∉ List.replicate 65536 97 := fun h =>
    absurd (List.eq_of_mem_replicate h) (by decide)
  have hlen : (List.replicate 65536 (97 : UInt8)).length = 65536 := List.length_replicate
  obtain ⟨n, i, packet, hn, hi, hlast, hbuild⟩ :=
    mqttMsgBuildSubscribe_cut h0 (by rw [hlen]; norm_num) 1 7
  rw [hlen] at hn hlast
  have hfront : (0x82 :: (lengthField 65541 ++ (be16 7 ++ be16 0))).map some <+: packet := by
    have hzero : (List.replicate 65536 (97 : UInt8)).take (65536 % 65536) = [] := rfl
    have hword : UInt16.ofNat 65536 = 0 := by decide
    rw [hzero, hword, List.append_nil] at hlast
    have hsize : n = 1 + (lengthField 65541).length + 65541 := hn
    refine Buffer.padded_store_prefix ?_ hlast
    rw [List.length_cons, List.length_append, List.length_append, length_be16, length_be16]
    omega
  refine ⟨fun h => ?_, packet, hbuild, hfront⟩
  have hover : ¬ (BuilderInput.subscribe (List.replicate 65536 97) 1 7).HasPacket := fun hp => by
    have hle := hp.1 _ (List.mem_singleton_self _)
    rw [strlen_of_notMem h0, hlen] at hle
    omega
  obtain ⟨e, -, he⟩ := h hover
  cases hbuild.symm.trans he

end BuilderInput

end Tr50
