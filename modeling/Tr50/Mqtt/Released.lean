import Tr50.Mqtt.States

/-!
# Mqtt/Released — every record is released once, and called back once

Three places release records: a signal, the clearing of an expired table, and the clearing that
ends the receive thread.  Each takes its record out of the bag of those in use, and goes on to its
callback with nothing but that record in hand (`HandlerPc.pending`): so the books of `AsyncHistory`
balance all along (`Ledger`).

The last clearing leaves no record behind.  It frees slot after slot (`HandlerPc.scanned`), and
nobody fills one again: an add needs `client->mux` and a client that is CONNECTED, and the thread
stops only where it is not (`Phase.stopping`).
-/

namespace Tr50

open Machinery
open scoped List

variable {γ κ : Type}

/-! ## Whom a record calls -/

/-- The callback that a record asks for, with its own pointer. -/
def RecordKey.call (k : RecordKey γ κ) : Option (γ × Option κ) := k.callback.map (·, k.custom)

/-- The callback that has been invoked. -/
def QosInvocation.call (i : QosInvocation γ κ) : γ × Option κ := (i.callback, i.custom)

namespace HandlerPc

/-- The callback of the record in hand. -/
def pending : HandlerPc γ κ → List (γ × Option κ)
  | signalCallback r | clearCallback _ r _ => r.key.call.toList
  | _ => []

/-- The slots that the last clearing has passed. -/
def scanned : HandlerPc γ κ → ℕ
  | clear true i => i
  | clearCallback true _ i => i + 1
  | _ => 0

theorem pending_of_plain {pc : HandlerPc γ κ} (h : pc.plain) : pc.pending = [] := by
  cases pc <;> simp_all [plain, pending]

theorem scanned_of_plain {pc : HandlerPc γ κ} (h : pc.plain) : pc.scanned = 0 := by
  cases pc <;> simp_all [plain, scanned]

theorem scanned_of_not_stopping {pc : HandlerPc γ κ} (h : pc.stopping = false) :
    pc.scanned = 0 := by
  cases pc with
  | clear last i => cases last <;> simp_all [stopping, scanned]
  | clearCallback last r i => cases last <;> simp_all [stopping, scanned]
  | _ => rfl

end HandlerPc

/-- Who invokes a callback had it in hand, and has it no more. -/
theorem Invokes.pending {pc pc' : HandlerPc γ κ} {r : MqttQosRecord γ κ} {status : ℤ}
    (h : Invokes pc r status pc') :
    pc.pending = r.key.call.toList ∧ pc'.pending = [] ∧ pc'.scanned = pc.scanned
      ∧ pc' ≠ .ended := by
  cases h with
  | signal => exact ⟨rfl, rfl, rfl, fun h => by cases h⟩
  | clear last r i => exact ⟨rfl, rfl, by cases last <;> rfl, fun h => by cases h⟩

/-! ## The records in use -/

section Qos

variable {mq mq' : MqttQos γ κ}

/-- What the records in use are for. -/
def MqttQos.keys (mq : MqttQos γ κ) : List (RecordKey γ κ) := mq.used.map (·.key)

theorem mqttQosExpiredLoop_keys (timeoutInSec now : ℤ) (n : ℕ)
    (records : List (MqttQosRecord γ κ)) :
    ((mqttQosExpiredLoop timeoutInSec now n records).1.filter (·.isUsed)).map (·.key)
      = (records.filter (·.isUsed)).map (·.key) := by
  induction n generalizing records with
  | zero => cases records <;> rfl
  | succ n ih =>
    cases records with
    | nil => rfl
    | cons r records =>
      rw [mqttQosExpiredLoop]
      split_ifs with hearly hexpired
      · simp only [List.filter_cons, hearly.1, if_true, List.map_cons, ih]
        rfl
      · rfl
      · simp only [List.filter_cons]
        split_ifs <;> simp [ih]

/-- **The scan for an expired record moves deadlines, and nothing else.** -/
theorem mqttQosAnyExpired_keys {now : ℤ} {found : Bool}
    (h : mqttQosAnyExpired mq now = (found, mq')) :
    mq'.keys = mq.keys ∧ mq'.currentSize = mq.currentSize := by
  unfold mqttQosAnyExpired at h
  split_ifs at h with hsize
  · obtain ⟨-, rfl⟩ := Prod.mk.inj h
    exact ⟨rfl, rfl⟩
  · obtain ⟨-, rfl⟩ := Prod.mk.inj h
    exact ⟨mqttQosExpiredLoop_keys _ _ _ _, rfl⟩

theorem mqttQosExpiredLoop_length (timeoutInSec now : ℤ) (n : ℕ)
    (records : List (MqttQosRecord γ κ)) :
    (mqttQosExpiredLoop timeoutInSec now n records).1.length = records.length := by
  induction n generalizing records with
  | zero => cases records <;> rfl
  | succ n ih =>
    cases records with
    | nil => rfl
    | cons r records =>
      rw [mqttQosExpiredLoop]
      split_ifs <;> simp [ih]

theorem mqttQosAnyExpired_length {now : ℤ} {found : Bool}
    (h : mqttQosAnyExpired mq now = (found, mq')) : mq'.records.length = mq.records.length := by
  unfold mqttQosAnyExpired at h
  split_ifs at h with hsize
  · obtain ⟨-, rfl⟩ := Prod.mk.inj h
    rfl
  · obtain ⟨-, rfl⟩ := Prod.mk.inj h
    exact mqttQosExpiredLoop_length _ _ _ _

theorem MqttQos.length_keys (mq : MqttQos γ κ) : mq.keys.length = mq.used.length :=
  List.length_map _

/-- The count is kept where the keys are. -/
theorem MqttQos.Counted.of_keys (h : mq.Counted) (hkeys : mq'.keys = mq.keys)
    (hsize : mq'.currentSize = mq.currentSize) : mq'.Counted := by
  unfold MqttQos.Counted at h ⊢
  rw [← mq'.length_keys, hkeys, mq.length_keys, hsize, h]

theorem MqttQos.Counted.keys_eq_nil (h : mq.Counted) (hsize : mq.currentSize = 0) :
    mq.keys = [] := by
  unfold MqttQos.Counted at h
  rw [List.eq_nil_iff_length_eq_zero, mq.length_keys]
  omega

theorem MqttQos.keys_eq_nil (h : ∀ j < mq.records.length, ∀ r, mq.records[j]? = some r →
    r.isUsed = false) : mq.keys = [] := by
  unfold MqttQos.keys MqttQos.used
  rw [List.map_eq_nil_iff, List.filter_eq_nil_iff]
  intro r hr
  obtain ⟨j, hj, hget⟩ := List.mem_iff_getElem.mp hr
  simp [h j hj r (by rw [List.getElem?_eq_getElem hj, hget])]

end Qos

namespace AsyncSystem

variable {params : MqttConnectParams} {s t : AsyncSystem γ κ} {a : AsyncAction γ κ}

/-! ## The books -/

/-- The records that have been added. -/
def added (s : AsyncSystem γ κ) : List (RecordKey γ κ) := s.history.added.map fun e => e.2

/-- The callbacks that have been invoked. -/
def invoked (s : AsyncSystem γ κ) : List (γ × Option κ) :=
  s.history.invoked.map QosInvocation.call

theorem invoked_invoke (r : MqttQosRecord γ κ) (status : ℤ) :
    (s.invoke r status).invoked = r.key.call.toList ++ s.invoked := by
  unfold AsyncSystem.invoked invoke RecordKey.call MqttQosRecord.key
  cases r.callback <;> rfl

structure Ledger (s : AsyncSystem γ κ) : Prop where
  counted : s.client.qos.Counted
  /-- What has been added has been released, or is in use. -/
  released : s.added.Perm (s.history.released ++ s.client.qos.keys)
  /-- What has been released has been called back, or is in hand. -/
  invoked : s.history.released.filterMap RecordKey.call = s.handler.pending ++ s.invoked
  scanned : ∀ j < s.handler.scanned, ∀ r, s.client.qos.records[j]? = some r → r.isUsed = false
  ended : s.handler = .ended → s.client.qos.keys = []

theorem ledger_init : Ledger (init : AsyncSystem γ κ) where
  counted := MqttQos.counted_create _ _
  released := by
    have hkeys : (mqttQosCreate mqttQosDefaultSize mqttQosDefaultTimeout : MqttQos γ κ).keys = [] :=
      (MqttQos.counted_create _ _).keys_eq_nil rfl
    change List.Perm [] ([] ++ (mqttQosCreate mqttQosDefaultSize mqttQosDefaultTimeout :
      MqttQos γ κ).keys)
    rw [hkeys]
    exact List.Perm.nil
  invoked := rfl
  scanned := fun j hj => absurd hj (Nat.not_lt_zero j)
  ended := fun h => by cases h

/-- The books stay as they are, and so does the table. -/
theorem Ledger.same (hs : Ledger s) (hqos : t.client.qos = s.client.qos)
    (hadded : t.history.added = s.history.added)
    (hreleased : t.history.released = s.history.released)
    (hinvoked : t.history.invoked = s.history.invoked)
    (hpending : t.handler.pending = s.handler.pending)
    (hscanned : t.handler.scanned = 0 ∨ t.handler.scanned = s.handler.scanned)
    (hended : t.handler = .ended → s.handler = .ended ∨ s.client.qos.keys = []) : Ledger t where
  counted := by
    rw [hqos]
    exact hs.counted
  released := by
    rw [AsyncSystem.added, hadded, hreleased, hqos]
    exact hs.released
  invoked := by
    rw [AsyncSystem.invoked, hinvoked, hreleased, hpending]
    exact hs.invoked
  scanned := by
    rw [hqos]
    rcases hscanned with h | h <;> rw [h]
    · exact fun j hj => absurd hj (Nat.not_lt_zero j)
    · exact hs.scanned
  ended := by
    rw [hqos]
    exact fun h => (hended h).elim hs.ended id

/-- The receive thread goes on to a place that has nothing in hand. -/
theorem Ledger.plain (hs : Ledger s) (pc : HandlerPc γ κ) (hpc : t.handler = pc)
    (hqos : t.client.qos = s.client.qos) (hadded : t.history.added = s.history.added)
    (hreleased : t.history.released = s.history.released)
    (hinvoked : t.history.invoked = s.history.invoked) (hpending : s.handler.pending = [])
    (hpending' : pc.pending = []) (hscanned : pc.scanned = 0)
    (hended : pc = .ended → s.client.qos.keys = []) : Ledger t := by
  subst hpc
  exact hs.same hqos hadded hreleased hinvoked (by rw [hpending, hpending']) (Or.inl hscanned)
    fun h => Or.inr (hended h)

/-- A record goes out of the bag, and into the hand. -/
theorem Ledger.take (hs : Ledger s) (r : MqttQosRecord γ κ)
    (hadded : t.history.added = s.history.added)
    (hreleased : t.history.released = r.key :: s.history.released)
    (hinvoked : t.history.invoked = s.history.invoked)
    (hqos : s.client.qos.used.Perm (r :: t.client.qos.used))
    (hsize : t.client.qos.currentSize = s.client.qos.currentSize - 1)
    (hpending : s.handler.pending = []) (hpending' : t.handler.pending = r.key.call.toList)
    (hscanned : ∀ j < t.handler.scanned, ∀ r, t.client.qos.records[j]? = some r →
      r.isUsed = false) (hended : t.handler ≠ .ended) : Ledger t where
  counted := hs.counted.taken hqos hsize
  released := by
    rw [AsyncSystem.added, hadded, hreleased]
    calc s.added
        ~ s.history.released ++ s.client.qos.keys := hs.released
      _ ~ s.history.released ++ r.key :: t.client.qos.keys := (hqos.map (·.key)).append_left _
      _ ~ r.key :: (s.history.released ++ t.client.qos.keys) := List.perm_middle
  invoked := by
    have hbefore := hs.invoked
    rw [hpending, List.nil_append] at hbefore
    rw [hreleased, AsyncSystem.invoked, hinvoked, hpending']
    cases hcall : r.key.call with
    | none => rw [List.filterMap_cons_none hcall, hbefore]; rfl
    | some call => rw [List.filterMap_cons_some hcall, hbefore]; rfl
  scanned := hscanned
  ended := fun h => absurd h hended

theorem mqttAsyncSent_qos (client : MqttAsyncClient γ κ) (ret : ℤ) (mqtt : MqttClient) :
    (mqttAsyncSent client ret mqtt).qos = client.qos := by
  unfold mqttAsyncSent
  split_ifs <;> rfl

theorem mqttAsyncBreak_qos (client : MqttAsyncClient γ κ) (error : ℤ) (why : String) :
    (mqttAsyncBreak client error why).qos = client.qos := by
  unfold mqttAsyncBreak
  split_ifs <;> rfl

/-- A record goes into the bag. -/
theorem Ledger.add (hs : Ledger s) (hphase : Phase s) {call : AsyncCall γ κ}
    (hcall : s.call = some call) {now : ℤ} {record : Option γ × Option κ} {qos : MqttQos γ κ}
    (h : mqttQosAdd s.client.qos now (UInt16.ofInt s.client.msgIdSeq) record.1 record.2 = (0, qos))
    (hqos : t.client.qos = qos) (hhandler : t.handler = s.handler)
    (hadded : t.history.added = s.recordKey record :: s.history.added)
    (hreleased : t.history.released = s.history.released)
    (hinvoked : t.history.invoked = s.history.invoked) : Ledger t := by
  subst hqos
  rcases mqttQosAdd_cases h with ⟨-, hperm, hsize, -⟩ | ⟨hret, -⟩
  · -- a request is taken only while the receive thread is not stopping
    have hstop : s.handler.stopping = false := by
      by_contra hstop
      obtain ⟨hstate, -⟩ := hphase.call (by simp [hcall])
      rcases hphase.stopping (by simpa using hstop) with h | h <;> rw [hstate] at h <;> cases h
    refine ⟨hs.counted.added hperm hsize, ?_, ?_, ?_, fun hended => ?_⟩
    · rw [AsyncSystem.added, hadded, hreleased, List.map_cons]
      calc (s.recordKey record).2 :: s.added
        _ ~ (s.recordKey record).2 :: (s.history.released ++ s.client.qos.keys) :=
          hs.released.cons _
        _ ~ s.history.released ++ (s.recordKey record).2 :: s.client.qos.keys :=
          List.perm_middle.symm
        _ ~ s.history.released ++ t.client.qos.keys := (hperm.map (·.key)).symm.append_left _
    · rw [AsyncSystem.invoked, hinvoked, hreleased, hhandler]
      exact hs.invoked
    · rw [hhandler, HandlerPc.scanned_of_not_stopping hstop]
      exact fun j hj => absurd hj (Nat.not_lt_zero j)
    · rw [hhandler.symm.trans hended] at hstop
      cases hstop
  · cases hret

/-- A place of the table that is not in use is passed over. -/
theorem Ledger.skip (hs : Ledger s) {last : Bool} {i : ℕ} (hpc : s.handler = .clear last i)
    (hunused : ∀ r, s.client.qos.records[i]? = some r → r.isUsed = false)
    (hpc' : t.handler = .clear last (i + 1)) (hqos : t.client.qos = s.client.qos)
    (hadded : t.history.added = s.history.added)
    (hreleased : t.history.released = s.history.released)
    (hinvoked : t.history.invoked = s.history.invoked) : Ledger t := by
  have hscanned := hs.scanned
  rw [hpc] at hscanned
  refine ⟨hqos ▸ hs.counted, ?_, ?_, fun j hj r hr => ?_, fun h => ?_⟩
  · rw [AsyncSystem.added, hadded, hreleased, hqos]
    exact hs.released
  · rw [AsyncSystem.invoked, hinvoked, hreleased, hs.invoked, hpc, hpc']
    rfl
  · rw [hpc'] at hj
    rw [hqos] at hr
    cases last with
    | false => exact absurd hj (Nat.not_lt_zero j)
    | true =>
      rcases Nat.lt_succ_iff_lt_or_eq.mp hj with hj | rfl
      · exact hscanned j hj r hr
      · exact hunused r hr
  · rw [hpc'] at h
    cases h

/-- The receive thread goes on by itself. -/
theorem Ledger.moves (hs : Ledger s) {pc : HandlerPc γ κ} (h : Moves s.client s.handler pc)
    (hpc : t.handler = pc) (hqos : t.client.qos = s.client.qos)
    (hadded : t.history.added = s.history.added)
    (hreleased : t.history.released = s.history.released)
    (hinvoked : t.history.invoked = s.history.invoked) : Ledger t := by
  generalize hold : s.handler = old at h
  cases h with
  | plain hplain hplain' huse =>
    exact hs.plain pc hpc hqos hadded hreleased hinvoked
      (by rw [hold]; exact HandlerPc.pending_of_plain hplain)
      (HandlerPc.pending_of_plain hplain') (HandlerPc.scanned_of_plain hplain')
      (fun h => by rw [h] at hplain'; cases hplain')
  | stop hstate =>
    exact hs.plain (.clearEntry true) hpc hqos hadded hreleased hinvoked (by rw [hold]; rfl) rfl
      rfl (fun h => by cases h)
  | empty last hsize =>
    refine hs.plain (.afterClear last) hpc hqos hadded hreleased hinvoked (by rw [hold]; rfl) ?_ ?_
      fun _ => hs.counted.keys_eq_nil hsize <;> cases last <;> rfl
  | enter last =>
    refine hs.plain (.clear last 0) hpc hqos hadded hreleased hinvoked (by rw [hold]; rfl) rfl ?_
      (fun h => by cases h)
    cases last <;> rfl
  | skip last i hunused => exact hs.skip hold hunused hpc hqos hadded hreleased hinvoked
  | done last i hi =>
    have hscanned := hs.scanned
    rw [hold] at hscanned
    cases last with
    | false =>
      exact hs.plain .keepalive hpc hqos hadded hreleased hinvoked (by rw [hold]; rfl) rfl rfl
        (fun h => by cases h)
    | true =>
      exact hs.plain .ended hpc hqos hadded hreleased hinvoked (by rw [hold]; rfl) rfl rfl
        (fun _ => MqttQos.keys_eq_nil fun j hj => hscanned j (lt_of_lt_of_le hj hi))

/-- A record that is in use is taken out of its place. -/
theorem Ledger.clear (hs : Ledger s) {last : Bool} {i : ℕ} (hpc : s.handler = .clear last i)
    {r : MqttQosRecord γ κ} {qos : MqttQos γ κ}
    (h : mqttQosClearStep s.client.qos i = (qos, some r)) (hqos : t.client.qos = qos)
    (hpc' : t.handler = .clearCallback last r i) (hadded : t.history.added = s.history.added)
    (hreleased : t.history.released = r.key :: s.history.released)
    (hinvoked : t.history.invoked = s.history.invoked) : Ledger t := by
  subst hqos
  have hscanned := hs.scanned
  rw [hpc] at hscanned
  rcases mqttQosClearStep_cases h with ⟨r', hr, hperm, hsize, hrecords⟩ | ⟨hr, -⟩
  · obtain rfl := Option.some.inj hr
    refine hs.take r hadded hreleased hinvoked hperm hsize (by rw [hpc]; rfl) (by rw [hpc']; rfl)
      (fun j hj r' hr' => ?_) (by rw [hpc']; exact fun h => by cases h)
    rw [hpc'] at hj
    cases last with
    | false => exact absurd hj (Nat.not_lt_zero j)
    | true =>
      rw [hrecords, List.getElem?_set] at hr'
      split_ifs at hr' with hij hi
      · obtain rfl := Option.some.inj hr'
        rfl
      · exact hscanned j (by change j < i + 1 at hj; change j < i; omega) r' hr'
  · cases hr

theorem Ledger.step (hs : Ledger s) (hphase : Phase s) (h : Effect params s a t) : Ledger t := by
  cases h with
  | started hmain =>
    have habsent := hphase.early (by rw [hmain]; rfl)
    exact hs.plain .starting rfl rfl rfl rfl rfl (by rw [habsent]; rfl) rfl rfl
      (fun h => by cases h)
  | added call call' hcall now record qos hqos h => exact hs.add hphase hcall h rfl rfl rfl rfl rfl
  | requested call hcall mqtt mqtt' hmqtt hsock ret links h =>
    exact hs.same (mqttAsyncSent_qos _ _ _) rfl rfl rfl rfl (Or.inr rfl) Or.inl
  | moved pc threadId ping h => exact hs.moves h rfl rfl rfl rfl rfl
  | received mqtt hmqtt answer hpc =>
    cases answer with
    | failed ret hret taken =>
      refine hs.plain (if ret = errTr50TcpTimeout then .expired else .recvFailed) rfl rfl rfl rfl
        rfl (by rw [hpc]; rfl) ?_ ?_ ?_ <;> split_ifs <;> first | rfl | exact fun h => by cases h
    | packet data hdata now =>
      exact hs.plain (.process data) rfl rfl rfl rfl rfl (by rw [hpc]; rfl) rfl rfl
        (fun h => by cases h)
  | broke error why pc ping hfree hpc hpc' huse =>
    refine hs.plain pc rfl (mqttAsyncBreak_qos _ _ _) rfl rfl rfl (HandlerPc.pending_of_plain hpc)
      ?_ ?_ ?_ <;> rcases hpc' with hpc' | rfl
    · exact HandlerPc.pending_of_plain hpc'
    · rfl
    · exact HandlerPc.scanned_of_plain hpc'
    · rfl
    · exact fun h => by rw [h] at hpc'; cases hpc'
    · exact fun h => by cases h
  | sent mqtt mqtt' hmqtt hsock links h pc ping hpc hpc' huse =>
    exact hs.plain pc rfl rfl rfl rfl rfl (HandlerPc.pending_of_plain hpc)
      (HandlerPc.pending_of_plain hpc') (HandlerPc.scanned_of_plain hpc')
      (fun h => by rw [h] at hpc'; cases hpc')
  | signalled data hpc msgId r ret qos h =>
    rcases mqttQosSignal_cases h with ⟨r', hr, -, -, hperm, hsize, -⟩ | ⟨hr, -⟩
    · obtain rfl := Option.some.inj hr
      exact hs.take r rfl rfl rfl hperm hsize (by rw [hpc]; rfl) rfl
        (fun j hj => absurd hj (Nat.not_lt_zero j)) (fun h => by cases h)
    · cases hr
  | invoked r status pc h =>
    obtain ⟨hpending, hpending', hscanned, hended⟩ := h.pending
    refine ⟨hs.counted, hs.released, ?_, ?_, fun h => absurd h hended⟩
    · change s.history.released.filterMap RecordKey.call = pc.pending ++ (s.invoke r status).invoked
      rw [hs.invoked, hpending, hpending', invoked_invoke, List.nil_append]
    · change ∀ j < pc.scanned, _
      rw [hscanned]
      exact hs.scanned
  | scanned now found qos pc h hpc hpc' huse =>
    obtain ⟨hkeys, hsize⟩ := mqttQosAnyExpired_keys h
    refine ⟨hs.counted.of_keys hkeys hsize, ?_, ?_, ?_, fun h => ?_⟩
    · change s.added ~ s.history.released ++ qos.keys
      rw [hkeys]
      exact hs.released
    · have hinvoked := hs.invoked
      rw [HandlerPc.pending_of_plain hpc] at hinvoked
      change _ = pc.pending ++ s.invoked
      rw [HandlerPc.pending_of_plain hpc']
      exact hinvoked
    · change ∀ j < pc.scanned, _
      rw [HandlerPc.scanned_of_plain hpc']
      exact fun j hj => absurd hj (Nat.not_lt_zero j)
    · rw [show pc = .ended from h] at hpc'
      cases hpc'
  | cleared last i hpc r qos h => exact hs.clear hpc h rfl rfl rfl rfl rfl
  | reopened total hpc hfree hstate links h =>
    exact hs.plain (.connecting total) rfl rfl rfl rfl rfl (by rw [hpc]; rfl) rfl rfl
      (fun h => by cases h)
  | reconnected total hpc mqtt links h =>
    exact hs.plain .loop rfl rfl rfl rfl rfl (by rw [hpc]; rfl) rfl rfl (fun h => by cases h)
  | unreconnected total hpc ret links h =>
    exact hs.plain (.waiting total 0) rfl rfl rfl rfl rfl (by rw [hpc]; rfl) rfl rfl
      (fun h => by cases h)
  | _ => exact hs.same rfl rfl rfl rfl rfl (Or.inr rfl) Or.inl

theorem ledger_reach (h : Reach (AsyncSystem.step params) (fun _ _ => True) init s) :
    Ledger s := by
  refine And.right (h.invariant (I := fun s => Phase s ∧ Ledger s) ⟨phase_init, ledger_init⟩ ?_)
  rintro s a t ⟨hphase, hs⟩ - hstep
  exact ⟨hphase.step (step_effect hstep), hs.step hphase (step_effect hstep)⟩

/-- **Each record that has been added is released once and called back once** by the time the
receive thread has ended, and none more than that before. -/
theorem qosAdd_released (h : Reach (AsyncSystem.step params) (fun _ _ => True) init s) :
    s.history.released <+~ s.added ∧ s.invoked <+~ s.added.filterMap RecordKey.call
    ∧ (s.handler = .ended → s.client.qos.used = [] ∧ s.added ~ s.history.released
        ∧ s.added.filterMap RecordKey.call ~ s.invoked) := by
  have hs := ledger_reach h
  have hreleased : s.history.released <+~ s.added :=
    (List.sublist_append_left _ _).subperm.trans hs.released.symm.subperm
  refine ⟨hreleased, ?_, fun hended => ?_⟩
  · have hinvoked : s.invoked <+~ s.history.released.filterMap RecordKey.call := by
      rw [hs.invoked]
      exact (List.sublist_append_right _ _).subperm
    obtain ⟨some_added, hperm, hsub⟩ := hreleased
    exact hinvoked.trans ((hperm.filterMap _).symm.subperm.trans (hsub.filterMap _).subperm)
  · have hkeys := hs.ended hended
    have hall := hs.released
    have hinvoked := hs.invoked
    rw [hkeys, List.append_nil] at hall
    rw [hended] at hinvoked
    refine ⟨List.map_eq_nil_iff.mp hkeys, hall, ?_⟩
    calc s.added.filterMap RecordKey.call
      _ ~ s.history.released.filterMap RecordKey.call := hall.filterMap _
      _ = s.invoked := hinvoked

/-- …as in a session with one publish. -/
theorem qosAdd_released_session :
    ∃ s, session.foldlM (AsyncSystem.step .anonymous) init = some s ∧ s.handler = .ended
      ∧ s.added = [⟨0, some (), none⟩] ∧ s.added ~ s.history.released
      ∧ s.added.filterMap RecordKey.call ~ s.invoked := by
  have heval : ((session.foldlM (AsyncSystem.step .anonymous) init).map fun s =>
      (s.handler, s.added)) = some (.ended, [⟨0, some (), none⟩]) := by decide +kernel
  obtain ⟨s, hs, hview⟩ := Option.map_eq_some_iff.mp heval
  obtain ⟨hended, hadded⟩ := Prod.mk.inj hview
  obtain ⟨-, -, hreleased⟩ := qosAdd_released (Reach.of_foldlM _ (by simp) hs)
  exact ⟨s, hs, hended, hadded, (hreleased hended).2⟩

end AsyncSystem

end Tr50
