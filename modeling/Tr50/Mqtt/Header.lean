import Tr50.Mqtt.Msg

/-!
# Mqtt/Header — the fixed header, both ways

The encoder stores the shortest length field, and the decoder reads any length field of at most
four digits — whatever follows it, and with the bound `ptr_len` one short of it as much as exact.
One that is cut off is read on behind the bytes that are given (`decodesWithin_iff`).
-/

namespace Tr50

open Machinery

/-! ## Encoding -/

/-- **The encoder stores the shortest length field.** -/
theorem mqttEncodeFixedHeaderLen_eq_memcpy (l : ℕ) (msg : Buffer) (ptr : ℤ) :
    mqttEncodeFixedHeaderLen l msg ptr = msg.memcpy ptr (lengthField l) := by
  induction l using Nat.strong_induction_on generalizing msg ptr with
  | _ l ih =>
    rw [mqttEncodeFixedHeaderLen]
    by_cases hl : l < 128
    · rw [if_neg (by omega), lengthField_of_lt hl, Nat.mod_eq_of_lt hl]
      exact Buffer.store_eq_memcpy msg ptr _
    · rw [if_pos (by omega), lengthField_of_le (by omega), Buffer.memcpy]
      congr 1
      funext msg
      exact ih (l / 128) (by omega) msg (ptr + 1)

/-- …at the edge of what is written. -/
theorem mqttEncodeFixedHeaderLen_padded (c : Option UInt8) (n l : ℕ) (bs : List UInt8)
    (h : bs.length + (lengthField l).length ≤ n) :
    mqttEncodeFixedHeaderLen l (Buffer.padded c bs n) bs.length
      = some (Buffer.padded c (bs ++ lengthField l) n) := by
  rw [mqttEncodeFixedHeaderLen_eq_memcpy]
  exact Buffer.padded_memcpy h

theorem mqttEncodeFixedHeaderLen_filled (n l : ℕ) (bs : List UInt8)
    (h : bs.length + (lengthField l).length ≤ n) :
    mqttEncodeFixedHeaderLen l (Buffer.filled bs n) bs.length
      = some (Buffer.filled (bs ++ lengthField l) n) :=
  mqttEncodeFixedHeaderLen_padded none n l bs h

/-- The header macro leaves room for the type byte and the length field. -/
theorem mqttCalcFheaderLength_eq {l : ℕ} (h : l ≤ 268435455) :
    mqttCalcFheaderLength l = 1 + (lengthField l).length := by
  unfold mqttCalcFheaderLength
  split_ifs with h1 h2 h3 h4
  · rw [length_lengthField 0 (Or.inl rfl) (by omega)]; rfl
  · rw [length_lengthField 1 (Or.inr (by omega)) (by omega)]; rfl
  · rw [length_lengthField 2 (Or.inr (by omega)) (by omega)]; rfl
  · rw [length_lengthField 3 (Or.inr (by omega)) (by omega)]; rfl
  · omega

theorem length_lengthField_le {l : ℕ} (h : l ≤ 268435455) : (lengthField l).length ≤ 4 := by
  have h1 := mqttCalcFheaderLength_eq h
  unfold mqttCalcFheaderLength at h1
  split_ifs at h1 <;> omega

/-- What a builder does before it comes to the body: it asks for `n` cells, and stores the type and
the length field `f` of a body of `l` bytes. -/
structure Framed (type : UInt8) (l : ℕ) (f : List UInt8) (n : ℕ) : Prop where
  fixedHeaderLen : mqttCalcFheaderLength l = 1 + f.length
  totalLen : intAdd (1 + f.length) l = some (n : ℤ)
  block : mallocBlock true n = some (Buffer.alloc n)
  refused : mallocBlock false n = none
  store (c : Option UInt8) : (Buffer.padded c [] n).store 0 type = some (Buffer.padded c [type] n)
  encode (c : Option UInt8) :
    mqttEncodeFixedHeaderLen l (Buffer.padded c [type] n) 1 = some (Buffer.padded c (type :: f) n)

/-- **A body that fits is framed.** -/
theorem framed (type : UInt8) {l : ℕ} (h : l ≤ 268435455) :
    Framed type l (lengthField l) (1 + (lengthField l).length + l) := by
  have h4 := length_lengthField_le h
  refine ⟨mqttCalcFheaderLength_eq h, ?_, ?_, by simp [mallocBlock], fun c => ?_, fun c => ?_⟩
  · rw [intAdd_of_lt (by omega)]
    push_cast
    rfl
  · rw [mallocBlock, if_pos ⟨rfl, by omega⟩, Int.toNat_natCast]
  · exact Buffer.padded_store_at rfl (by simp) type
  · have henc := mqttEncodeFixedHeaderLen_padded c (1 + (lengthField l).length + l) l [type]
      (by rw [List.length_singleton]; omega)
    rwa [List.length_singleton, Nat.cast_one] at henc

/-! ## Decoding -/

/-- One digit taken into the running sum. -/
private theorem decoded_digit (dec m mul v : ℕ) :
    dec + m * mul + v * (mul * 128) = dec + (m + 128 * v) * mul := by ring

/-- **The decoder reads a length field**, and looks at nothing behind it. -/
theorem mqttDecodeHeaderLoop_field {f : List UInt8} {v : ℕ} (hf : IsLengthField f v) {ptrLen : ℤ}
    (rest : List UInt8) {rl mul dec : ℕ} (h4 : rl + f.length ≤ 4)
    (hlen : (rl + f.length : ℤ) ≤ ptrLen + 1) :
    mqttDecodeHeaderLoop ptrLen (f ++ rest) rl mul dec
      = some ⟨0, some (rl + f.length), dec + v * mul⟩ := by
  induction hf generalizing rl mul dec with
  | @last d hd =>
      have hstop : ¬ d &&& 128 ≠ 0 := by rw [and_128_ne_zero_iff]; omega
      rw [List.singleton_append, mqttDecodeHeaderLoop, if_neg fun h => hstop h.1, if_neg hstop,
        toNat_and_127, Nat.mod_eq_of_lt hd]
      rfl
  | @more d f v hd hf ih =>
      have hpos := hf.length_pos
      rw [List.length_cons] at h4 hlen
      have hgo : d &&& 128 ≠ 0 ∧ ((rl + 1 : ℕ) : ℤ) ≤ ptrLen ∧ rl + 1 < 4 :=
        ⟨(and_128_ne_zero_iff d).mpr hd, by omega, by omega⟩
      rw [List.cons_append, mqttDecodeHeaderLoop, if_pos hgo, ih (by omega) (by omega),
        toNat_and_127, List.length_cons, decoded_digit, add_assoc rl, add_comm 1]

theorem mqttDecodeHeaderLength_field {f : List UInt8} {v : ℕ} (hf : IsLengthField f v)
    (h4 : f.length ≤ 4) (ptrLen : ℤ) (hlen : (f.length : ℤ) ≤ ptrLen + 1) (rest : List UInt8) :
    mqttDecodeHeaderLength (f ++ rest) ptrLen = some ⟨0, some f.length, v⟩ := by
  rw [mqttDecodeHeaderLength, mqttDecodeHeaderLoop_field hf rest (by omega) (by omega)]
  simp

/-- A field of more than four digits makes the decoder give up. -/
theorem mqttDecodeHeaderLoop_long {f : List UInt8} {v : ℕ} (hf : IsLengthField f v) {ptrLen : ℤ}
    (rest : List UInt8) {rl mul dec : ℕ} (h4 : rl < 4) (hlong : 4 < rl + f.length)
    (hlen : 4 ≤ ptrLen) : mqttDecodeHeaderLoop ptrLen (f ++ rest) rl mul dec
      = some ⟨-1, none, 0⟩ := by
  induction hf generalizing rl mul dec with
  | last =>
      rw [List.length_singleton] at hlong
      omega
  | @more d f v hd hf ih =>
      have hcont := (and_128_ne_zero_iff d).mpr hd
      rw [List.length_cons] at hlong
      rw [List.cons_append, mqttDecodeHeaderLoop]
      by_cases hgo : rl + 1 < 4
      · rw [if_pos ⟨hcont, by omega, hgo⟩]
        exact ih hgo (by omega)
      · rw [if_neg fun h => hgo h.2.2, if_pos hcont]

theorem mqttDecodeHeaderLength_long {f : List UInt8} {v : ℕ} (hf : IsLengthField f v)
    (hlong : 4 < f.length) (ptrLen : ℤ) (hlen : 4 ≤ ptrLen) (rest : List UInt8) :
    mqttDecodeHeaderLength (f ++ rest) ptrLen = some ⟨-1, none, 0⟩ :=
  mqttDecodeHeaderLoop_long hf rest (by omega) (by omega) hlen

/-- **The header macro, the encoder and the decoder agree** on every length: the encoder fills as
many cells as the macro says and no others, and the decoder reads the length off them. -/
theorem fixedHeaderLen_roundTrip {l : ℕ} (h : l ≤ 268435455) :
    ∃ field : List UInt8, (field.length : ℤ) = mqttCalcFheaderLength l - 1
      ∧ 1 ≤ field.length ∧ field.length ≤ 4
      ∧ (∀ pre old post : Buffer, old.length = field.length →
        mqttEncodeFixedHeaderLen l (pre ++ (old ++ post)) pre.length
          = some (pre ++ (field.map some ++ post)))
      ∧ ∀ (rest : List UInt8) (ptrLen : ℤ), field.length ≤ ptrLen →
        mqttDecodeHeaderLength (field ++ rest) ptrLen = some ⟨0, some field.length, l⟩ := by
  have hfield := isLengthField_lengthField l
  have h4 := length_lengthField_le h
  refine ⟨lengthField l, ?_, hfield.length_pos, h4, fun pre old post hold => ?_,
    fun rest ptrLen hlen => ?_⟩
  · rw [mqttCalcFheaderLength_eq h]
    ring
  · rw [mqttEncodeFixedHeaderLen_eq_memcpy]
    exact Buffer.memcpy_over hold
  · exact mqttDecodeHeaderLength_field hfield h4 ptrLen (by omega) rest

/-- At the first length of three digits. -/
theorem fixedHeaderLen_roundTrip_three : ∃ field : List UInt8, field.length = 3
    ∧ mqttDecodeHeaderLength (field ++ [0xFF]) 3 = some ⟨0, some 3, 16384⟩ := by
  obtain ⟨field, hlen, -, -, -, hdecode⟩ := fixedHeaderLen_roundTrip (l := 16384) (by decide)
  have h3 : field.length = 3 := by
    have hcalc : mqttCalcFheaderLength (16384 : ℕ) = 4 := by decide
    omega
  refine ⟨field, h3, ?_⟩
  rw [hdecode [0xFF] 3 (by omega), h3]

/-! ## Bounds -/

/-- What the bytes at `ptr` decode to: the digits up to the first one that no other follows, if it
is among the first four. -/
def decodedLength (mem : List UInt8) : DecodedLength :=
  match (mem.take 4).findIdx? fun d => d.toNat < 128 with
  | some i => ⟨0, some (i + 1), ∑ j ∈ Finset.range (i + 1), (mem.getD j 0).toNat % 128 * 128 ^ j⟩
  | none => ⟨-1, none, 0⟩

/-- The decoder, given `ptr_len` bytes, reads no others: whatever stands behind them, also if
nothing does, it decodes what they are. -/
def DecodesWithin (mem : List UInt8) : Prop :=
  ∀ behind : List UInt8,
    mqttDecodeHeaderLength (mem ++ behind) mem.length = some (decodedLength mem)

/-- A digit that no other follows ends a length field. -/
theorem isLengthField_of_findIdx? {mem : List UInt8} {i : ℕ}
    (h : mem.findIdx? (fun d => d.toNat < 128) = some i) :
    IsLengthField (mem.take (i + 1))
      (∑ j ∈ Finset.range (i + 1), (mem.getD j 0).toNat % 128 * 128 ^ j) := by
  induction mem generalizing i with
  | nil => cases h
  | cons d mem ih =>
    rw [List.findIdx?_cons] at h
    split_ifs at h with hd
    · obtain rfl := Option.some.inj h
      have hd : d.toNat < 128 := of_decide_eq_true hd
      simpa [Nat.mod_eq_of_lt hd] using IsLengthField.last hd
    · obtain ⟨i, hi, rfl⟩ := Option.map_eq_some_iff.mp h
      have hmore := IsLengthField.more (d := d) (by simpa using hd) (ih hi)
      have hsum : ∑ j ∈ Finset.range (i + 1 + 1), ((d :: mem).getD j 0).toNat % 128 * 128 ^ j
          = d.toNat % 128
            + 128 * ∑ j ∈ Finset.range (i + 1), (mem.getD j 0).toNat % 128 * 128 ^ j := by
        rw [Finset.sum_range_succ', Finset.mul_sum, add_comm]
        congr 1
        · simp
        · refine Finset.sum_congr rfl fun j _ => ?_
          rw [List.getD_cons_succ, pow_succ]
          ring
      rwa [hsum]

/-- Four digits that others follow make the decoder give up… -/
theorem mqttDecodeHeaderLoop_four {ptrLen : ℤ} (hlen : 4 ≤ ptrLen) (rest : List UInt8) :
    ∀ {f : List UInt8} {rl mul dec : ℕ}, f ≠ [] → (∀ d ∈ f, 128 ≤ d.toNat) → rl + f.length = 4 →
      mqttDecodeHeaderLoop ptrLen (f ++ rest) rl mul dec = some ⟨-1, none, 0⟩
  | [d], rl, mul, dec, _, hf, h4 => by
      have hcont := (and_128_ne_zero_iff d).mpr (hf d (List.mem_singleton_self d))
      rw [List.length_singleton] at h4
      rw [List.singleton_append, mqttDecodeHeaderLoop, if_neg fun h => by omega, if_pos hcont]
  | d :: e :: f, rl, mul, dec, _, hf, h4 => by
      have hcont := (and_128_ne_zero_iff d).mpr (hf d List.mem_cons_self)
      rw [List.length_cons, List.length_cons] at h4
      rw [List.cons_append, mqttDecodeHeaderLoop, if_pos ⟨hcont, by omega, by omega⟩]
      exact mqttDecodeHeaderLoop_four hlen rest (List.cons_ne_nil e f)
        (fun d' hd' => hf d' (List.mem_cons_of_mem d hd')) (by rw [List.length_cons]; omega)

/-- …and behind fewer it reads the next. -/
theorem mqttDecodeHeaderLoop_short {ptrLen : ℤ} : ∀ {f : List UInt8} {rl mul dec : ℕ},
    (∀ d ∈ f, 128 ≤ d.toNat) → rl + f.length < 4 → (rl + f.length : ℤ) ≤ ptrLen →
      mqttDecodeHeaderLoop ptrLen f rl mul dec = none
  | [], _, _, _, _, _, _ => rfl
  | d :: f, rl, mul, dec, hf, h4, hlen => by
      have hcont := (and_128_ne_zero_iff d).mpr (hf d List.mem_cons_self)
      rw [List.length_cons] at h4 hlen
      rw [mqttDecodeHeaderLoop, if_pos ⟨hcont, by omega, by omega⟩]
      exact mqttDecodeHeaderLoop_short (fun d' hd' => hf d' (List.mem_cons_of_mem d hd'))
        (by omega) (by omega)

/-- Where a length ends among the first four bytes, it is read, and nothing behind it. -/
theorem decodesWithin_of_findIdx? {mem : List UInt8} {i : ℕ}
    (hi : (mem.take 4).findIdx? (fun d => d.toNat < 128) = some i) : DecodesWithin mem := by
  intro behind
  obtain ⟨hlt, -⟩ := List.findIdx?_eq_some_iff_getElem.mp hi
  rw [List.length_take] at hlt
  have hfield := isLengthField_of_findIdx? hi
  rw [List.take_take, min_eq_left (by omega)] at hfield
  have hlen : (mem.take (i + 1)).length = i + 1 := by
    rw [List.length_take]
    omega
  have hdecode := mqttDecodeHeaderLength_field hfield (by omega) mem.length (by omega)
    (mem.drop (i + 1) ++ behind)
  rw [← List.append_assoc, List.take_append_drop, hlen] at hdecode
  rw [hdecode, decodedLength, hi]
  congr 2
  refine Finset.sum_congr rfl fun j hj => ?_
  rw [Finset.mem_range] at hj
  rw [List.getD_eq_getElem?_getD, List.getElem?_take_of_lt (by omega),
    ← List.getD_eq_getElem?_getD]

/-- Where four digits are given and others follow each, nothing behind them is read. -/
theorem decodesWithin_of_findIdx?_none {mem : List UInt8} (h4 : 4 ≤ mem.length)
    (hi : (mem.take 4).findIdx? (fun d => d.toNat < 128) = none) : DecodesWithin mem := by
  have hcont : ∀ d ∈ mem.take 4, 128 ≤ d.toNat := fun d hd => by
    simpa using List.findIdx?_eq_none_iff.mp hi d hd
  have hlen : (mem.take 4).length = 4 := by
    rw [List.length_take]
    omega
  intro behind
  have hfour : mqttDecodeHeaderLoop mem.length (mem.take 4 ++ (mem.drop 4 ++ behind)) 0 1 0
      = some ⟨-1, none, 0⟩ :=
    mqttDecodeHeaderLoop_four (by omega) _ (List.ne_nil_of_length_pos (by omega)) hcont (by omega)
  rw [← List.append_assoc, List.take_append_drop] at hfour
  rw [mqttDecodeHeaderLength, hfour, decodedLength, hi]

/-- **The decoder stays within the bytes it is given** unless there are fewer than four and each
says that another follows: its bound is tested behind the read, and lets one more through. -/
theorem decodesWithin_iff {mem : List UInt8} :
    DecodesWithin mem ↔ 4 ≤ mem.length ∨ ∃ d ∈ mem, d.toNat < 128 := by
  constructor
  · intro hwithin
    by_contra! hshort
    obtain ⟨h4, hcont⟩ := hshort
    have hnone : mqttDecodeHeaderLoop mem.length mem 0 1 0 = none :=
      mqttDecodeHeaderLoop_short hcont (by omega) (by omega)
    have hdecode := hwithin []
    rw [List.append_nil, mqttDecodeHeaderLength, hnone] at hdecode
    cases hdecode
  · intro h
    cases hi : (mem.take 4).findIdx? fun d => d.toNat < 128 with
    | some i => exact decodesWithin_of_findIdx? hi
    | none =>
      refine decodesWithin_of_findIdx?_none ?_ hi
      rcases h with h4 | ⟨d, hd, hlow⟩
      · exact h4
      · by_contra hlt
        rw [List.take_of_length_le (by omega)] at hi
        have hcont := List.findIdx?_eq_none_iff.mp hi d hd
        simp [hlow] at hcont

/-- **A length that is cut off**, as in the PUBLISH `30 80 80`, is read on behind the packet. -/
theorem not_decodesWithin_cut : ¬ DecodesWithin [0x80, 0x80]
    ∧ mqttDecodeHeaderLength ([0x80, 0x80] ++ [0x01]) 2 = some ⟨0, some 3, 16384⟩ := by
  refine ⟨fun h => ?_, by decide⟩
  have hdecode := h []
  cases hdecode

end Tr50
