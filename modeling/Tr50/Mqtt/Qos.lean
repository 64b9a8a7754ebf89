import Tr50.Util.Error

/-!
# Mqtt/Qos — the table of requests waiting for their acknowledgement

`src/mqtt/mqtt.qos.c`.  Callbacks and their custom pointers are opaque (`γ`, `κ`), `none` being
NULL.  Every function here is one critical section of the table's lock; `mqtt_qos_clear`, which
gives the lock up around each callback, is its step `mqttQosClearStep` from one slot to the next.

A table that keeps its count (`MqttQos.Counted`) is a bag of the records in use (`MqttQos.used`):
an add puts one in, a release takes one out, and nothing else changes.
-/

namespace Tr50

/-- `_MQTT_QOS_RECORD`. -/
structure MqttQosRecord (γ κ : Type) where
  isUsed : Bool
  msgId : UInt16
  callback : Option γ
  custom : Option κ
  expirationTimestamp : ℤ
deriving DecidableEq, Repr

/-- `_MQTT_QOS`. -/
structure MqttQos (γ κ : Type) where
  currentSize : ℤ
  records : List (MqttQosRecord γ κ)
  timeoutInSec : ℤ
deriving DecidableEq, Repr

variable {γ κ : Type}

/-! ## The operations -/

/-- `mqtt_qos_create` with the memory it asks for, all of it zeroed. -/
def mqttQosCreate (size : UInt8) (timeoutInSec : ℤ) : MqttQos γ κ :=
  ⟨0, List.replicate size.toNat ⟨false, 0, none, none, 0⟩, timeoutInSec⟩

/-- The scan of `mqtt_qos_add` for a free slot. -/
def mqttQosAddLoop (new : MqttQosRecord γ κ) :
    List (MqttQosRecord γ κ) → Option (List (MqttQosRecord γ κ))
  | [] => none
  | r :: records =>
      if r.isUsed then (mqttQosAddLoop new records).map (r :: ·) else some (new :: records)

/-- `mqtt_qos_add` at time `now`. -/
def mqttQosAdd (mq : MqttQos γ κ) (now : ℤ) (msgId : UInt16) (callback : Option γ)
    (custom : Option κ) : ℤ × MqttQos γ κ :=
  match mqttQosAddLoop ⟨true, msgId, callback, custom, now + mq.timeoutInSec⟩ mq.records with
  | some records => (0, { mq with records := records, currentSize := mq.currentSize + 1 })
  | none => (errMqttQosFull, mq)

/-- The scan of `mqtt_qos_signal`: the slots after the release, and the record released. -/
def mqttQosSignalLoop (msgId : UInt16) :
    List (MqttQosRecord γ κ) → Option (List (MqttQosRecord γ κ) × MqttQosRecord γ κ)
  | [] => none
  | r :: records =>
      if r.isUsed ∧ r.msgId = msgId then some ({ r with isUsed := false } :: records, r)
      else (mqttQosSignalLoop msgId records).map fun (records, released) => (r :: records, released)

/-- `mqtt_qos_signal` up to the callback it makes on the record it releases. -/
def mqttQosSignal (mq : MqttQos γ κ) (msgId : UInt16) :
    ℤ × MqttQos γ κ × Option (MqttQosRecord γ κ) :=
  if mq.currentSize = 0 then (errMqttQosNotfound, mq, none)
  else
    match mqttQosSignalLoop msgId mq.records with
    | some (records, released) =>
      (0, { mq with records := records, currentSize := mq.currentSize - 1 }, some released)
    | none => (errMqttQosNotfound, mq, none)

/-- One slot of `mqtt_qos_clear`: released if it is used. -/
def mqttQosClearStep (mq : MqttQos γ κ) (i : ℕ) : MqttQos γ κ × Option (MqttQosRecord γ κ) :=
  match mq.records[i]? with
  | some r =>
    if r.isUsed then
      ({ mq with
        records := mq.records.set i { r with isUsed := false }
        currentSize := mq.currentSize - 1 }, some r)
    else (mq, none)
  | none => (mq, none)

/-- The scan of `mqtt_qos_any_expired` over its first `n` slots. -/
def mqttQosExpiredLoop (timeoutInSec currentTime : ℤ) :
    ℕ → List (MqttQosRecord γ κ) → List (MqttQosRecord γ κ) × Bool
  | n + 1, r :: records =>
      if r.isUsed ∧ r.expirationTimestamp - timeoutInSec > currentTime then
        let (records, found) := mqttQosExpiredLoop timeoutInSec currentTime n records
        ({ r with expirationTimestamp := timeoutInSec + currentTime } :: records, found)
      else if r.isUsed ∧ r.expirationTimestamp ≤ currentTime then (r :: records, true)
      else
        let (records, found) := mqttQosExpiredLoop timeoutInSec currentTime n records
        (r :: records, found)
  | _, records => (records, false)

/-- `mqtt_qos_any_expired`.  The scan stops after `current_size` slots. -/
def mqttQosAnyExpired (mq : MqttQos γ κ) (currentTime : ℤ) : Bool × MqttQos γ κ :=
  if mq.currentSize = 0 then (false, mq)
  else
    let (records, found) :=
      mqttQosExpiredLoop mq.timeoutInSec currentTime mq.currentSize.toNat mq.records
    (found, { mq with records := records })

/-! ## The bag of records in use -/

namespace MqttQos

/-- The records in use, slot by slot. -/
def used (mq : MqttQos γ κ) : List (MqttQosRecord γ κ) := mq.records.filter (·.isUsed)

/-- `current_size` counts the records in use. -/
def Counted (mq : MqttQos γ κ) : Prop := mq.currentSize = mq.used.length

theorem counted_create (size : UInt8) (timeoutInSec : ℤ) :
    (mqttQosCreate size timeoutInSec : MqttQos γ κ).Counted := by
  simp [Counted, used, mqttQosCreate]

/-- A record more is counted… -/
theorem Counted.added {mq mq' : MqttQos γ κ} {r : MqttQosRecord γ κ} (h : mq.Counted)
    (hperm : mq'.used.Perm (r :: mq.used)) (hsize : mq'.currentSize = mq.currentSize + 1) :
    mq'.Counted := by
  have hlen := hperm.length_eq
  rw [List.length_cons] at hlen
  unfold Counted at h ⊢
  omega

/-- …and so is a record less. -/
theorem Counted.taken {mq mq' : MqttQos γ κ} {r : MqttQosRecord γ κ} (h : mq.Counted)
    (hperm : mq.used.Perm (r :: mq'.used)) (hsize : mq'.currentSize = mq.currentSize - 1) :
    mq'.Counted := by
  have hlen := hperm.length_eq
  rw [List.length_cons] at hlen
  unfold Counted at h ⊢
  omega

end MqttQos

theorem mqttQosAddLoop_some {new : MqttQosRecord γ κ} :
    ∀ {records records' : List (MqttQosRecord γ κ)}, mqttQosAddLoop new records = some records' →
      ∃ pre r post, records = pre ++ r :: post ∧ r.isUsed = false ∧ records' = pre ++ new :: post
  | [], _, h => by simp [mqttQosAddLoop] at h
  | r :: records, records', h => by
      rw [mqttQosAddLoop] at h
      split_ifs at h with hr
      · obtain ⟨rest, hrest, rfl⟩ := Option.map_eq_some_iff.mp h
        obtain ⟨pre, s, post, rfl, hs, rfl⟩ := mqttQosAddLoop_some hrest
        exact ⟨r :: pre, s, post, rfl, hs, rfl⟩
      · obtain rfl := Option.some.inj h
        exact ⟨[], r, records, rfl, by simpa using hr, rfl⟩

theorem mqttQosAddLoop_eq_none {new : MqttQosRecord γ κ} {records : List (MqttQosRecord γ κ)} :
    mqttQosAddLoop new records = none ↔ ∀ r ∈ records, r.isUsed := by
  induction records with
  | nil => simp [mqttQosAddLoop]
  | cons r records ih =>
    rw [mqttQosAddLoop, List.forall_mem_cons, ← ih]
    split_ifs with hr <;> simp [hr]

theorem mqttQosSignalLoop_some {msgId : UInt16} {r : MqttQosRecord γ κ} :
    ∀ {records records' : List (MqttQosRecord γ κ)},
      mqttQosSignalLoop msgId records = some (records', r) →
      r.isUsed ∧ r.msgId = msgId ∧ ∃ pre post, records = pre ++ r :: post
        ∧ records' = pre ++ { r with isUsed := false } :: post
  | [], _, h => by simp [mqttQosSignalLoop] at h
  | s :: records, records', h => by
      rw [mqttQosSignalLoop] at h
      split_ifs at h with hs
      · obtain ⟨rfl, rfl⟩ := Prod.mk.inj (Option.some.inj h)
        exact ⟨hs.1, hs.2, [], records, rfl, rfl⟩
      · obtain ⟨⟨rest, t⟩, hrest, heq⟩ := Option.map_eq_some_iff.mp h
        obtain ⟨rfl, rfl⟩ := Prod.mk.inj heq
        obtain ⟨hu, hid, pre, post, rfl, rfl⟩ := mqttQosSignalLoop_some hrest
        exact ⟨hu, hid, s :: pre, post, rfl, rfl⟩

/-- Putting a used record into a free slot puts it into the bag. -/
theorem perm_filter_add {pre post : List (MqttQosRecord γ κ)} {r new : MqttQosRecord γ κ}
    (hr : r.isUsed = false) (hnew : new.isUsed) :
    ((pre ++ new :: post).filter (·.isUsed)).Perm
      (new :: (pre ++ r :: post).filter (·.isUsed)) := by
  rw [List.filter_append, List.filter_append, List.filter_cons_of_pos hnew,
    List.filter_cons_of_neg (by simp [hr])]
  exact List.perm_middle

/-- Releasing a slot takes its record out of the bag. -/
theorem perm_filter_release {pre post : List (MqttQosRecord γ κ)} {r : MqttQosRecord γ κ}
    (hr : r.isUsed) :
    ((pre ++ r :: post).filter (·.isUsed)).Perm
      (r :: (pre ++ { r with isUsed := false } :: post).filter (·.isUsed)) := by
  rw [List.filter_append, List.filter_append, List.filter_cons_of_pos hr,
    List.filter_cons_of_neg (by simp)]
  exact List.perm_middle

section Ops

variable {mq mq' : MqttQos γ κ}

/-- **An add puts its record into the bag**, or the table is full and stays as it is. -/
theorem mqttQosAdd_cases {now ret : ℤ} {msgId : UInt16} {callback : Option γ} {custom : Option κ}
    (h : mqttQosAdd mq now msgId callback custom = (ret, mq')) :
    (ret = 0 ∧ mq'.used.Perm (⟨true, msgId, callback, custom, now + mq.timeoutInSec⟩ :: mq.used)
      ∧ mq'.currentSize = mq.currentSize + 1 ∧ mq'.timeoutInSec = mq.timeoutInSec
      ∧ mq'.records.length = mq.records.length)
    ∨ (ret = errMqttQosFull ∧ mq' = mq ∧ ∀ r ∈ mq.records, r.isUsed) := by
  unfold mqttQosAdd at h
  split at h
  · rename_i records hloop
    obtain ⟨rfl, rfl⟩ := Prod.mk.inj h
    obtain ⟨pre, r, post, hpre, hr, rfl⟩ := mqttQosAddLoop_some hloop
    refine Or.inl ⟨rfl, ?_, rfl, rfl, ?_⟩
    · rw [MqttQos.used, MqttQos.used, hpre]
      exact perm_filter_add hr rfl
    · simp [hpre]
  · rename_i hloop
    obtain ⟨rfl, rfl⟩ := Prod.mk.inj h
    exact Or.inr ⟨rfl, rfl, mqttQosAddLoop_eq_none.mp hloop⟩

/-- **A signal takes one record with its id out of the bag**, or changes nothing. -/
theorem mqttQosSignal_cases {ret : ℤ} {msgId : UInt16} {released : Option (MqttQosRecord γ κ)}
    (h : mqttQosSignal mq msgId = (ret, mq', released)) :
    (∃ r, released = some r ∧ ret = 0 ∧ r.msgId = msgId ∧ mq.used.Perm (r :: mq'.used)
      ∧ mq'.currentSize = mq.currentSize - 1 ∧ mq'.records.length = mq.records.length)
    ∨ (released = none ∧ ret = errMqttQosNotfound ∧ mq' = mq) := by
  unfold mqttQosSignal at h
  split_ifs at h with h0
  · obtain ⟨rfl, hrest⟩ := Prod.mk.inj h
    obtain ⟨rfl, rfl⟩ := Prod.mk.inj hrest
    exact Or.inr ⟨rfl, rfl, rfl⟩
  split at h
  · rename_i records r hloop
    obtain ⟨rfl, hrest⟩ := Prod.mk.inj h
    obtain ⟨rfl, rfl⟩ := Prod.mk.inj hrest
    obtain ⟨hu, hid, pre, post, hpre, rfl⟩ := mqttQosSignalLoop_some hloop
    refine Or.inl ⟨r, rfl, rfl, hid, ?_, rfl, by simp [hpre]⟩
    rw [MqttQos.used, MqttQos.used, hpre]
    exact perm_filter_release hu
  · obtain ⟨rfl, hrest⟩ := Prod.mk.inj h
    obtain ⟨rfl, rfl⟩ := Prod.mk.inj hrest
    exact Or.inr ⟨rfl, rfl, rfl⟩

/-- **A clear step takes the record of its slot out of the bag**, if the slot is used. -/
theorem mqttQosClearStep_cases {i : ℕ} {released : Option (MqttQosRecord γ κ)}
    (h : mqttQosClearStep mq i = (mq', released)) :
    (∃ r, released = some r ∧ mq.used.Perm (r :: mq'.used)
      ∧ mq'.currentSize = mq.currentSize - 1
      ∧ mq'.records = mq.records.set i { r with isUsed := false })
    ∨ (released = none ∧ mq' = mq ∧ ∀ r, mq.records[i]? = some r → r.isUsed = false) := by
  unfold mqttQosClearStep at h
  split at h
  · rename_i r hr
    split_ifs at h with hu
    · obtain ⟨rfl, rfl⟩ := Prod.mk.inj h
      refine Or.inl ⟨r, rfl, ?_, rfl, rfl⟩
      obtain ⟨hi, hget⟩ := List.getElem?_eq_some_iff.mp hr
      have hsplit : mq.records = mq.records.take i ++ r :: mq.records.drop (i + 1) := by
        rw [← hget, ← List.drop_eq_getElem_cons hi, List.take_append_drop]
      have hset : mq.records.set i { r with isUsed := false }
          = mq.records.take i ++ { r with isUsed := false } :: mq.records.drop (i + 1) := by
        rw [List.set_eq_take_append_cons_drop, if_pos hi]
      rw [MqttQos.used, MqttQos.used, hset]
      conv_lhs => rw [hsplit]
      exact perm_filter_release hu
    · obtain ⟨rfl, rfl⟩ := Prod.mk.inj h
      refine Or.inr ⟨rfl, rfl, fun s hs => ?_⟩
      rw [hr] at hs
      simpa [← Option.some.inj hs] using hu
  · rename_i hr
    obtain ⟨rfl, rfl⟩ := Prod.mk.inj h
    exact Or.inr ⟨rfl, rfl, fun s hs => by rw [hr] at hs; cases hs⟩

end Ops

theorem mqttQosSignal_timeout (mq : MqttQos γ κ) (msgId : UInt16) :
    (mqttQosSignal mq msgId).2.1.timeoutInSec = mq.timeoutInSec := by
  unfold mqttQosSignal
  split_ifs
  · rfl
  · split <;> rfl

theorem mqttQosClearStep_timeout (mq : MqttQos γ κ) (i : ℕ) :
    (mqttQosClearStep mq i).1.timeoutInSec = mq.timeoutInSec := by
  unfold mqttQosClearStep
  split
  · split_ifs <;> rfl
  · rfl

end Tr50
