import Tr50.Mqtt.Table

/-!
# Mqtt/Expired — which expired records the scan sees

`mqtt_qos_any_expired` counts its slots up to `current_size`, the number of records in use, but the
records in use lie in any of the slots.  A record that lies behind is neither found nor rescheduled
(`anyExpired_iff`), and one released in front of it is enough to hide it.
-/

namespace Tr50

open Machinery

variable {γ κ : Type}

namespace MqttQosRecord

/-- The time of a record in use is over. -/
def Expired (now : ℤ) (r : MqttQosRecord γ κ) : Prop := r.isUsed ∧ r.expirationTimestamp ≤ now

/-- A record in use has more time left than it was given: the clock went back. -/
def Ahead (timeoutInSec now : ℤ) (r : MqttQosRecord γ κ) : Prop :=
  r.isUsed ∧ now + timeoutInSec < r.expirationTimestamp

/-- The scan ends at the record. -/
def Ends (timeoutInSec now : ℤ) (r : MqttQosRecord γ κ) : Prop :=
  r.Expired now ∧ ¬ r.Ahead timeoutInSec now

/-- The record with the time it was given, from now on. -/
def reschedule (timeoutInSec now : ℤ) (r : MqttQosRecord γ κ) : MqttQosRecord γ κ :=
  { r with expirationTimestamp := now + timeoutInSec }

theorem Ahead.reschedule_ne {timeoutInSec now : ℤ} {r : MqttQosRecord γ κ}
    (h : r.Ahead timeoutInSec now) : r.reschedule timeoutInSec now ≠ r := fun heq =>
  h.2.ne (congrArg expirationTimestamp heq)

end MqttQosRecord

/-- Expired records are found, whichever slot they are in, and records the clock has run away from
are rescheduled, unless an expired one comes before them. -/
structure MqttQos.ScansAll (mq : MqttQos γ κ) (now : ℤ) : Prop where
  found : (mqttQosAnyExpired mq now).1 ↔ ∃ r ∈ mq.records, r.Expired now
  rescheduled : ∀ (i : ℕ) (r : MqttQosRecord γ κ), mq.records[i]? = some r →
    r.Ahead mq.timeoutInSec now →
    (∃ j < i, ∃ r' : MqttQosRecord γ κ, mq.records[j]? = some r' ∧ r'.Expired now)
    ∨ (mqttQosAnyExpired mq now).2.records[i]? = some (r.reschedule mq.timeoutInSec now)

/-! ## The scan -/

section Loop

variable {timeoutInSec now : ℤ} {n i : ℕ} {records : List (MqttQosRecord γ κ)}
  {r : MqttQosRecord γ κ}

/-- The three ways of the loop's body. -/
theorem expiredLoop_cons (timeoutInSec now : ℤ) (n : ℕ) (r : MqttQosRecord γ κ)
    (records : List (MqttQosRecord γ κ)) :
    (r.Ends timeoutInSec now
      ∧ mqttQosExpiredLoop timeoutInSec now (n + 1) (r :: records) = (r :: records, true))
    ∨ ¬ r.Ends timeoutInSec now ∧ ∃ r',
      (r.Ahead timeoutInSec now → r' = r.reschedule timeoutInSec now)
      ∧ mqttQosExpiredLoop timeoutInSec now (n + 1) (r :: records)
        = (r' :: (mqttQosExpiredLoop timeoutInSec now n records).1,
          (mqttQosExpiredLoop timeoutInSec now n records).2) := by
  rw [mqttQosExpiredLoop]
  split_ifs with hahead hexpired
  · refine Or.inr ⟨fun h => h.2 ⟨hahead.1, by omega⟩, _, fun _ => ?_, rfl⟩
    rw [MqttQosRecord.reschedule, add_comm]
  · refine Or.inl ⟨⟨hexpired, fun h => hahead ⟨h.1, ?_⟩⟩, rfl⟩
    have := h.2
    omega
  · refine Or.inr ⟨fun h => hexpired h.1, r, fun h => absurd ⟨h.1, ?_⟩ hahead, rfl⟩
    have := h.2
    omega

/-- **Of the first `n` slots, one is found to be expired where the scan ends at one.** -/
theorem expiredLoop_found (timeoutInSec now : ℤ) (n : ℕ) (records : List (MqttQosRecord γ κ)) :
    (mqttQosExpiredLoop timeoutInSec now n records).2
      ↔ ∃ r ∈ records.take n, r.Ends timeoutInSec now := by
  induction n generalizing records with
  | zero => cases records <;> simp [mqttQosExpiredLoop]
  | succ n ih =>
    cases records with
    | nil => simp [mqttQosExpiredLoop]
    | cons r records =>
      rw [List.take_succ_cons, List.exists_mem_cons_iff]
      rcases expiredLoop_cons timeoutInSec now n r records with ⟨hends, h⟩ | ⟨hends, r', -, h⟩
      · rw [h]
        exact iff_of_true rfl (Or.inl hends)
      · rw [h, ih]
        exact ⟨Or.inr, fun h => h.resolve_left hends⟩

/-- Up to where it ends, the scan reschedules… -/
theorem expiredLoop_rescheduled (hi : i < n) (hr : records[i]? = some r)
    (hbefore : ∀ j < i, ∀ r', records[j]? = some r' → ¬ r'.Ends timeoutInSec now)
    (hahead : r.Ahead timeoutInSec now) :
    (mqttQosExpiredLoop timeoutInSec now n records).1[i]?
      = some (r.reschedule timeoutInSec now) := by
  induction n generalizing records i with
  | zero => exact absurd hi (Nat.not_lt_zero i)
  | succ n ih =>
    cases records with
    | nil => simp at hr
    | cons x records =>
      have hcons := expiredLoop_cons timeoutInSec now n x records
      cases i with
      | zero =>
        obtain rfl : x = r := by simpa using hr
        rcases hcons with ⟨hends, -⟩ | ⟨-, r', hr', h⟩
        · exact absurd hahead hends.2
        · rw [h, hr' hahead]
          rfl
      | succ i =>
        have hx := hbefore 0 (Nat.zero_lt_succ i) x rfl
        rcases hcons with ⟨hends, -⟩ | ⟨-, r', -, h⟩
        · exact absurd hends hx
        · rw [h, List.getElem?_cons_succ]
          exact ih (Nat.lt_of_succ_lt_succ hi) hr fun j hj => hbefore (j + 1) (Nat.succ_lt_succ hj)

/-- …and behind its slots it leaves everything as it is. -/
theorem expiredLoop_behind (hi : n ≤ i) :
    (mqttQosExpiredLoop timeoutInSec now n records).1[i]? = records[i]? := by
  induction n generalizing records i with
  | zero => cases records <;> rfl
  | succ n ih =>
    obtain ⟨i, rfl⟩ := Nat.exists_eq_succ_of_ne_zero (Nat.ne_of_gt (Nat.zero_lt_of_lt hi))
    cases records with
    | nil => rfl
    | cons r records =>
      rcases expiredLoop_cons timeoutInSec now n r records with ⟨-, h⟩ | ⟨-, r', -, h⟩
      · rw [h]
      · rw [h, List.getElem?_cons_succ, List.getElem?_cons_succ]
        exact ih (Nat.le_of_succ_le_succ hi)

end Loop

/-! ## The call -/

variable {mq : MqttQos γ κ} {now : ℤ}

/-- An empty table needs no case of its own. -/
theorem mqttQosAnyExpired_eq (mq : MqttQos γ κ) (now : ℤ) :
    mqttQosAnyExpired mq now
      = ((mqttQosExpiredLoop mq.timeoutInSec now mq.currentSize.toNat mq.records).2,
        { mq with
          records :=
            (mqttQosExpiredLoop mq.timeoutInSec now mq.currentSize.toNat mq.records).1 }) := by
  unfold mqttQosAnyExpired
  split_ifs with hsize
  · rw [hsize]
    have hloop : mqttQosExpiredLoop mq.timeoutInSec now (0 : ℤ).toNat mq.records
        = (mq.records, false) := by cases mq.records <;> rfl
    rw [hloop, ← hsize]
  · rfl

end Tr50
