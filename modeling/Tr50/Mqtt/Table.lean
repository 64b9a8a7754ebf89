import Tr50.Machinery.Bag
import Tr50.Mqtt.Ids

/-!
# Mqtt/Table — the table of records as a bag

Threads add and signal, look for expired records, and clear, all on one table (`QosTable`).  Each
call is one section under the table's lock, but for `mqtt_qos_clear`: it keeps the lock from slot to
slot up to a record in use, and gives it up around that record's callback.  Any number of clears can
be at their callbacks at a time, and one of them has the lock.

Whatever the threads do, the table is a bag of at most `max_size` keys (`MqttQos.IsBag`), and its
operations are the bag's.
-/

namespace Tr50

open Machinery

variable {γ κ : Type}

/-! ## Threads on one table -/

/-- A table, and the calls of `mqtt_qos_clear` on it. -/
structure QosTable (γ κ : Type) where
  qos : MqttQos γ κ
  /-- The slot at which a clear stands with the lock. -/
  clearing : Option ℕ
  /-- The slots whose records are being called back, by clears without the lock. -/
  calling : List ℕ

inductive QosAction (γ κ : Type)
  | add (now : ℤ) (msgId : UInt16) (callback : Option γ) (custom : Option κ)
  | signal (msgId : UInt16)
  | anyExpired (now : ℤ)
  /-- `mqtt_qos_clear` is called… -/
  | clear
  /-- …goes on to the next slot… -/
  | slot
  /-- …or comes back from its callback: the `k`th of those that are at one. -/
  | back (k : ℕ)

namespace QosTable

def create (size : UInt8) (timeoutInSec : ℤ) : QosTable γ κ :=
  ⟨mqttQosCreate size timeoutInSec, none, []⟩

/-- A clear with the lock at slot `i`. -/
def clearSlot (s : QosTable γ κ) (i : ℕ) : QosTable γ κ :=
  if i < s.qos.records.length then
    match mqttQosClearStep s.qos i with
    | (_, none) => { s with clearing := some (i + 1) }
    | (qos, some _) => ⟨qos, none, i :: s.calling⟩
  else { s with clearing := none }

/-- Without the lock nobody gets to the table. -/
def step (s : QosTable γ κ) : QosAction γ κ → Option (QosTable γ κ)
  | .add now msgId callback custom =>
      if s.clearing.isSome then none
      else some { s with qos := (mqttQosAdd s.qos now msgId callback custom).2 }
  | .signal msgId =>
      if s.clearing.isSome then none else some { s with qos := (mqttQosSignal s.qos msgId).2.1 }
  | .anyExpired now =>
      if s.clearing.isSome then none else some { s with qos := (mqttQosAnyExpired s.qos now).2 }
  | .clear =>
      if s.clearing.isSome then none
      else if s.qos.currentSize = 0 then some s
      else some { s with clearing := some 0 }
  | .slot => s.clearing.map s.clearSlot
  | .back k =>
      if s.clearing.isSome then none
      else s.calling[k]?.map fun i =>
        { s with clearing := some (i + 1), calling := s.calling.eraseIdx k }

end QosTable

/-! ## The operations on a counted table -/

/-- A table of `n` slots that keeps its count. -/
structure MqttQos.Holds (n : ℕ) (mq : MqttQos γ κ) : Prop where
  counted : mq.Counted
  length : mq.records.length = n

section Ops

variable {n : ℕ} {mq mq' : MqttQos γ κ}

theorem MqttQos.holds_create (size : UInt8) (timeoutInSec : ℤ) :
    (mqttQosCreate size timeoutInSec : MqttQos γ κ).Holds size.toNat :=
  ⟨MqttQos.counted_create _ _, List.length_replicate⟩

namespace MqttQos.Holds

theorem length_keys_le (h : mq.Holds n) : mq.keys.length ≤ n := by
  rw [mq.length_keys, ← h.length]
  exact List.length_filter_le _ _

/-- The keys in use, as a bag. -/
def bag (h : mq.Holds n) : Bag (RecordKey γ κ) n := ⟨↑mq.keys, h.length_keys_le⟩

/-- All slots are taken where there are as many keys. -/
theorem length_keys_eq (h : mq.Holds n) (hall : ∀ r ∈ mq.records, r.isUsed) :
    mq.keys.length = n := by
  rw [mq.length_keys, MqttQos.used, List.filter_eq_self.mpr hall, h.length]

/-- **An add is an add to the bag.** -/
theorem add (h : mq.Holds n) {now ret : ℤ} {msgId : UInt16} {callback : Option γ}
    {custom : Option κ} (hadd : mqttQosAdd mq now msgId callback custom = (ret, mq')) :
    ∃ h' : mq'.Holds n, h.bag.Adds ⟨msgId, callback, custom⟩ (ret = 0) h'.bag
      ∧ (ret = 0 ∨ ret = errMqttQosFull ∧ mq' = mq) := by
  rcases mqttQosAdd_cases hadd with ⟨rfl, hperm, hsize, -, hlength⟩ | ⟨rfl, rfl, hall⟩
  · refine ⟨⟨h.counted.added hperm hsize, hlength.trans h.length⟩, ?_, Or.inl rfl⟩
    exact .added (Multiset.coe_eq_coe.mpr (hperm.map _))
  · exact ⟨h, .full (h.length_keys_eq hall), Or.inr ⟨rfl, rfl⟩⟩

/-- **A signal takes a record with its id out of the bag.** -/
theorem signal (h : mq.Holds n) {msgId : UInt16} {ret : ℤ} {released : Option (MqttQosRecord γ κ)}
    (hsignal : mqttQosSignal mq msgId = (ret, mq', released)) :
    ∃ h' : mq'.Holds n, h.bag.Takes (·.msgId = msgId) (released.map (·.key)) h'.bag
      ∧ (released.isSome ∧ ret = 0 ∨ released = none ∧ ret = errMqttQosNotfound ∧ mq' = mq) := by
  rcases mqttQosSignal_cases hsignal with
    ⟨r, rfl, rfl, hid, hperm, hsize, hlength⟩ | ⟨rfl, rfl, rfl⟩
  · refine ⟨⟨h.counted.taken hperm hsize, hlength.trans h.length⟩, ?_, Or.inl ⟨rfl, rfl⟩⟩
    exact .taken hid (Multiset.coe_eq_coe.mpr (hperm.map _))
  · refine ⟨h, .missing fun k hk hid => ?_, Or.inr ⟨rfl, rfl, rfl⟩⟩
    obtain ⟨r, hr, rfl⟩ := List.mem_map.mp (Multiset.mem_coe.mp hk)
    obtain rfl : r.msgId = msgId := hid
    have hsome := mqttQosSignal_isSome h.counted hr
    rw [hsignal] at hsome
    cases hsome

/-- A clear takes the record of its slot, if there is one. -/
theorem clearStep (h : mq.Holds n) {i : ℕ} {released : Option (MqttQosRecord γ κ)}
    (hclear : mqttQosClearStep mq i = (mq', released)) : mq'.Holds n := by
  rcases mqttQosClearStep_cases hclear with ⟨r, rfl, hperm, hsize, hrecords⟩ | ⟨-, rfl, -⟩
  · exact ⟨h.counted.taken hperm hsize, by rw [hrecords, List.length_set, h.length]⟩
  · exact h

theorem anyExpired (h : mq.Holds n) {now : ℤ} {found : Bool}
    (hscan : mqttQosAnyExpired mq now = (found, mq')) : mq'.Holds n := by
  obtain ⟨hkeys, hsize⟩ := mqttQosAnyExpired_keys hscan
  exact ⟨h.counted.of_keys hkeys hsize, (mqttQosAnyExpired_length hscan).trans h.length⟩

end MqttQos.Holds

end Ops

/-! ## The table as a bag -/

/-- The table behaves as a bag of at most `n` keys: it keeps its count, an add is refused by a full
table and by no other, a signal finds nothing where no key has its id and nowhere else, and what is
refused or finds nothing changes nothing. -/
structure MqttQos.IsBag (n : ℕ) (mq : MqttQos γ κ) (b : Bag (RecordKey γ κ) n) : Prop where
  items : b.items = ↑(mq.used.map (·.key))
  count : mq.currentSize = mq.used.length
  bound : 0 ≤ mq.currentSize ∧ mq.currentSize ≤ n
  add : ∀ (now : ℤ) (msgId : UInt16) (callback : Option γ) (custom : Option κ) (ret : ℤ)
    (mq' : MqttQos γ κ), mqttQosAdd mq now msgId callback custom = (ret, mq') →
      (ret = errMqttQosFull ↔ mq.used.length = n) ∧ (ret = errMqttQosFull → mq' = mq)
        ∧ ∃ b' : Bag (RecordKey γ κ) n, b'.items = ↑(mq'.used.map (·.key))
          ∧ b.Adds ⟨msgId, callback, custom⟩ (ret = 0) b'
  signal : ∀ (msgId : UInt16) (ret : ℤ) (mq' : MqttQos γ κ)
    (released : Option (MqttQosRecord γ κ)), mqttQosSignal mq msgId = (ret, mq', released) →
      (ret = errMqttQosNotfound ↔ ∀ r ∈ mq.used, r.msgId ≠ msgId)
        ∧ (ret = errMqttQosNotfound → mq' = mq) ∧ (ret = errMqttQosNotfound ∨ ret = 0)
        ∧ ∃ b' : Bag (RecordKey γ κ) n, b'.items = ↑(mq'.used.map (·.key))
          ∧ b.Takes (·.msgId = msgId) (released.map (·.key)) b' ∧ (released.isSome ↔ ret = 0)

theorem MqttQos.Holds.isBag {n : ℕ} {mq : MqttQos γ κ} (h : mq.Holds n) : mq.IsBag n h.bag where
  items := rfl
  count := h.counted
  bound := by
    have hcount : mq.currentSize = mq.used.length := h.counted
    have hlen := h.length_keys_le
    rw [mq.length_keys] at hlen
    omega
  add now msgId callback custom ret mq' hadd := by
    obtain ⟨h', hadds, hret⟩ := h.add hadd
    have hfull : ret = errMqttQosFull ↔ (decide (ret = 0)) = false := by
      rcases hret with rfl | ⟨rfl, -⟩ <;> decide
    refine ⟨?_, ?_, h'.bag, rfl, hadds⟩
    · rw [hfull, hadds.eq_false_iff, ← mq.length_keys]
      rfl
    · rintro rfl
      exact (hret.resolve_left (by decide)).2
  signal msgId ret mq' released hsignal := by
    obtain ⟨h', htakes, hret⟩ := h.signal hsignal
    have hnone : ret = errMqttQosNotfound ↔ released.map (·.key) = none := by
      rcases hret with ⟨hsome, rfl⟩ | ⟨rfl, rfl, -⟩
      · rw [Option.map_eq_none_iff]
        exact iff_of_false (by decide) fun h => by simp [h] at hsome
      · exact iff_of_true rfl rfl
    refine ⟨?_, ?_, ?_, h'.bag, rfl, htakes, ?_⟩
    · rw [hnone, htakes.eq_none_iff]
      exact List.forall_mem_map
    · rintro rfl
      rcases hret with ⟨-, hret⟩ | ⟨-, -, hmq⟩
      · exact absurd hret (by decide)
      · exact hmq
    · rcases hret with ⟨-, rfl⟩ | ⟨-, rfl, -⟩
      · exact Or.inr rfl
      · exact Or.inl rfl
    · rcases hret with ⟨hsome, rfl⟩ | ⟨rfl, rfl, -⟩
      · exact iff_of_true hsome rfl
      · exact iff_of_false (by simp) (by decide)

namespace QosTable

variable {s t : QosTable γ κ} {a : QosAction γ κ} {n : ℕ}

/-- Every step keeps the table counted. -/
theorem step_holds (hs : s.qos.Holds n) (h : s.step a = some t) : t.qos.Holds n := by
  cases a with
  | add now msgId callback custom =>
    simp only [step] at h
    split_ifs at h
    obtain rfl := Option.some.inj h
    obtain ⟨ht, -⟩ := hs.add (Eq.refl (mqttQosAdd s.qos now msgId callback custom))
    exact ht
  | signal msgId =>
    simp only [step] at h
    split_ifs at h
    obtain rfl := Option.some.inj h
    obtain ⟨ht, -⟩ := hs.signal (Eq.refl (mqttQosSignal s.qos msgId))
    exact ht
  | anyExpired now =>
    simp only [step] at h
    split_ifs at h
    obtain rfl := Option.some.inj h
    exact hs.anyExpired (Eq.refl (mqttQosAnyExpired s.qos now))
  | clear =>
    simp only [step] at h
    split_ifs at h <;> obtain rfl := Option.some.inj h <;> exact hs
  | slot =>
    obtain ⟨i, -, rfl⟩ := Option.map_eq_some_iff.mp h
    unfold clearSlot
    split_ifs
    · split
      · exact hs
      · rename_i qos r hclear
        exact hs.clearStep hclear
    · exact hs
  | back k =>
    simp only [step] at h
    split_ifs at h
    obtain ⟨i, -, rfl⟩ := Option.map_eq_some_iff.mp h
    exact hs

/-- **The table is a bag with a bound**, at every point of every run. -/
theorem qosTable_isBag (size : UInt8) (timeoutInSec : ℤ)
    (h : Reach QosTable.step (fun _ _ => True) (create size timeoutInSec) s) :
    ∃ b : Bag (RecordKey γ κ) size.toNat, s.qos.IsBag size.toNat b := by
  have hs : s.qos.Holds size.toNat := by
    refine h.invariant (I := fun s => s.qos.Holds size.toNat) (MqttQos.holds_create _ _) ?_
    intro s a t hs _ hstep
    exact step_holds hs hstep
  exact ⟨hs.bag, hs.isBag⟩

/-- …such as a table of one slot, one record added and a clear at its callback. -/
theorem qosTable_isBag_one :
    ∃ s : QosTable Unit Unit, [.add 0 7 (some ()) none, .clear, .slot].foldlM QosTable.step
        (create 1 30) = some s ∧ s.calling = [0]
      ∧ ∃ b : Bag (RecordKey Unit Unit) 1, s.qos.IsBag 1 b := by
  have heval : ([.add 0 7 (some ()) none, .clear, .slot].foldlM QosTable.step
      (create 1 30 : QosTable Unit Unit)).map (·.calling) = some [0] := by decide +kernel
  obtain ⟨s, hs, hcalling⟩ := Option.map_eq_some_iff.mp heval
  exact ⟨s, hs, hcalling, qosTable_isBag 1 30 (Reach.of_foldlM _ (by simp) hs)⟩

end QosTable

end Tr50
