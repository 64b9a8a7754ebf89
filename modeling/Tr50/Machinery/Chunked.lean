import Mathlib.Data.List.Infix
import Mathlib.Data.List.TakeWhile
import Mathlib.Tactic

/-!
# Machinery/Chunked — the chunked transfer coding

A body of a length not known beforehand is sent in chunks: the size in base 16 on a line of its own,
the data, a line end; a chunk of size `0` comes last.  `Chunked bound wire data` reads `wire` so, up
to the size line of the last chunk.  Writing chunks by this rule gives such a wire
(`chunked_encode`).

A line ends at a given number of line-end characters in a row (`cutLine`).
-/

namespace Tr50.Machinery

/-! ## Base 16 -/

def isHex (c : UInt8) : Bool :=
  (48 ≤ c ∧ c ≤ 57) ∨ (65 ≤ c ∧ c ≤ 70) ∨ (97 ≤ c ∧ c ≤ 102)

/-- The value of a digit. -/
def hexValue (c : UInt8) : ℕ :=
  if c ≤ 57 then c.toNat - 48 else if c ≤ 70 then c.toNat - 55 else c.toNat - 87

/-- The value of a row of digits. -/
def hexNat (digits : List UInt8) : ℕ := digits.foldl (fun n c => 16 * n + hexValue c) 0

/-- The digit of a value below `16`. -/
def hexChar (d : ℕ) : UInt8 := if d < 10 then UInt8.ofNat (48 + d) else UInt8.ofNat (87 + d)

/-- The digits of a number. -/
def hexText (n : ℕ) : List UInt8 :=
  if n < 16 then [hexChar n] else hexText (n / 16) ++ [hexChar (n % 16)]
termination_by n
decreasing_by omega

theorem isHex_hexChar {d : ℕ} (h : d < 16) : isHex (hexChar d) := by
  have hall : ∀ d : Fin 16, isHex (hexChar d) := by decide
  exact hall ⟨d, h⟩

theorem hexValue_hexChar {d : ℕ} (h : d < 16) : hexValue (hexChar d) = d := by
  have hall : ∀ d : Fin 16, hexValue (hexChar d) = d := by decide
  exact hall ⟨d, h⟩

theorem hexText_of_lt {n : ℕ} (h : n < 16) : hexText n = [hexChar n] := by
  rw [hexText, if_pos h]

theorem hexText_of_le {n : ℕ} (h : 16 ≤ n) :
    hexText n = hexText (n / 16) ++ [hexChar (n % 16)] := by
  rw [hexText, if_neg (by omega)]

theorem isHex_of_mem_hexText {n : ℕ} {c : UInt8} (h : c ∈ hexText n) : isHex c := by
  induction n using Nat.strong_induction_on with
  | _ n ih =>
    by_cases hn : n < 16
    · rw [hexText_of_lt hn, List.mem_singleton] at h
      exact h ▸ isHex_hexChar hn
    · rw [hexText_of_le (by omega), List.mem_append, List.mem_singleton] at h
      rcases h with h | rfl
      · exact ih (n / 16) (by omega) h
      · exact isHex_hexChar (Nat.mod_lt _ (by omega))

theorem hexText_ne_nil (n : ℕ) : hexText n ≠ [] := by
  by_cases hn : n < 16
  · simp [hexText_of_lt hn]
  · simp [hexText_of_le (not_lt.mp hn)]

/-- **The digits of a number read as that number.** -/
theorem hexNat_hexText (n : ℕ) : hexNat (hexText n) = n := by
  induction n using Nat.strong_induction_on with
  | _ n ih =>
    by_cases hn : n < 16
    · rw [hexText_of_lt hn]
      simp [hexNat, hexValue_hexChar hn]
    · have hhigh := ih (n / 16) (by omega)
      rw [hexNat] at hhigh
      rw [hexText_of_le (by omega), hexNat, List.foldl_append, hhigh, List.foldl_cons,
        List.foldl_nil, hexValue_hexChar (Nat.mod_lt _ (by omega))]
      omega

/-- Below `16 ^ (k + 1)` a number has `k + 1` digits at most. -/
theorem length_hexText_le (k : ℕ) {n : ℕ} (h : n < 16 ^ (k + 1)) :
    (hexText n).length ≤ k + 1 := by
  induction k generalizing n with
  | zero => simp [hexText_of_lt h]
  | succ k ih =>
    by_cases hn : n < 16
    · simp [hexText_of_lt hn]
    · have hhigh := ih (n := n / 16) (Nat.div_lt_of_lt_mul (by rwa [← pow_succ']))
      rw [hexText_of_le (not_lt.mp hn), List.length_append]
      exact Nat.add_le_add_right hhigh 1

/-! ## Lines -/

def crlf : List UInt8 := [13, 10]

def isLineEnd (c : UInt8) : Bool := c = 13 ∨ c = 10

/-- The bytes up to `ends` line-end characters in a row, of which `seen` were there before, and the
rest. -/
def cutLine (ends : ℕ) : (seen : ℕ) → List UInt8 → Option (List UInt8 × List UInt8)
  | _, [] => none
  | seen, c :: s =>
    if isLineEnd c then
      if seen + 1 = ends then some ([c], s)
      else (cutLine ends (seen + 1) s).map fun cut => (c :: cut.1, cut.2)
    else (cutLine ends 0 s).map fun cut => (c :: cut.1, cut.2)

variable {ends seen : ℕ} {s line rest : List UInt8}

/-- A line is cut where it ends, whatever comes behind. -/
theorem cutLine_append (s' : List UInt8) (h : cutLine ends seen s = some (line, rest)) :
    s = line ++ rest ∧ cutLine ends seen (line ++ s') = some (line, s') := by
  induction s generalizing seen line with
  | nil => cases h
  | cons c s ih =>
    rw [cutLine] at h
    split_ifs at h with hc hends
    · obtain ⟨rfl, rfl⟩ := Prod.mk.inj (Option.some.inj h)
      refine ⟨rfl, ?_⟩
      rw [List.cons_append, cutLine, if_pos hc, if_pos hends, List.nil_append]
    · obtain ⟨cut, hcut, heq⟩ := Option.map_eq_some_iff.mp h
      obtain ⟨rfl, rfl⟩ := Prod.mk.inj heq
      obtain ⟨hs, htail⟩ := ih hcut
      refine ⟨congrArg _ hs, ?_⟩
      rw [List.cons_append, cutLine, if_pos hc, if_neg hends, htail, Option.map_some]
    · obtain ⟨cut, hcut, heq⟩ := Option.map_eq_some_iff.mp h
      obtain ⟨rfl, rfl⟩ := Prod.mk.inj heq
      obtain ⟨hs, htail⟩ := ih hcut
      refine ⟨congrArg _ hs, ?_⟩
      rw [List.cons_append, cutLine, if_neg hc, htail, Option.map_some]

/-- **Bytes begin with one line only.** -/
theorem cutLine_unique {line' rest' : List UInt8} (h : cutLine ends seen line = some (line, []))
    (h' : cutLine ends seen line' = some (line', [])) (heq : line ++ rest = line' ++ rest') :
    line = line' ∧ rest = rest' := by
  have hcut := (cutLine_append rest h).2.symm.trans (heq ▸ (cutLine_append rest' h').2)
  exact Prod.mk.inj (Option.some.inj hcut)

/-- A text without line ends is a line with the two behind it. -/
theorem cutLine_crlf {text : List UInt8} (h : ∀ c ∈ text, ¬ isLineEnd c) :
    cutLine 2 0 (text ++ crlf) = some (text ++ crlf, []) := by
  induction text with
  | nil => rfl
  | cons c text ih =>
    rw [List.cons_append, cutLine, if_neg (h c List.mem_cons_self),
      ih fun c' hc' => h c' (List.mem_cons_of_mem _ hc'), Option.map_some]

/-! ## Chunks -/

/-- The line of a chunk's size, with its extensions. -/
def IsSizeLine (line : List UInt8) (n : ℕ) : Prop :=
  ∃ digits extension : List UInt8, line = digits ++ extension ++ crlf
    ∧ digits ≠ [] ∧ (∀ c ∈ digits, isHex c) ∧ hexNat digits = n
    ∧ (∀ c ∈ extension, ¬ isLineEnd c) ∧ ∀ c ∈ extension.head?, c = 59 ∨ c = 32 ∨ c = 9

/-- Chunks of less than `bound` bytes, up to the size line of the last. -/
inductive Chunked (bound : ℕ) : (wire data : List UInt8) → Prop
  | last {line : List UInt8} (h : IsSizeLine line 0) : Chunked bound line []
  | chunk {line chunk wire data : List UInt8} (h : IsSizeLine line chunk.length)
      (hne : chunk ≠ []) (hlt : chunk.length < bound) (hwire : Chunked bound wire data) :
      Chunked bound (line ++ chunk ++ crlf ++ wire) (chunk ++ data)

theorem isLineEnd_of_isHex {c : UInt8} (h : isHex c) : ¬ isLineEnd c := by
  intro hend
  simp only [isLineEnd, decide_eq_true_eq] at hend
  rcases hend with rfl | rfl <;> exact absurd h (by decide)

theorem isSizeLine_hexText (n : ℕ) : IsSizeLine (hexText n ++ crlf) n :=
  ⟨hexText n, [], by simp, hexText_ne_nil n, fun _ => isHex_of_mem_hexText, hexNat_hexText n,
    by simp, by simp⟩

namespace IsSizeLine

variable {n : ℕ}

theorem cut (h : IsSizeLine line n) : cutLine 2 0 line = some (line, []) := by
  obtain ⟨digits, extension, rfl, -, hhex, -, hextension, -⟩ := h
  refine cutLine_crlf fun c hc => ?_
  rcases List.mem_append.mp hc with hc | hc
  · exact isLineEnd_of_isHex (hhex c hc)
  · exact hextension c hc

theorem length_pos (h : IsSizeLine line n) : 0 < line.length := by
  obtain ⟨digits, extension, rfl, -⟩ := h
  simp [crlf]

end IsSizeLine

/-- The coding is longer than what it codes. -/
theorem Chunked.length_lt {bound : ℕ} {wire data : List UInt8} (h : Chunked bound wire data) :
    data.length < wire.length := by
  induction h with
  | last h => exact h.length_pos
  | chunk h _ _ _ ih =>
    simp only [List.length_append]
    omega

/-! ## Writing chunks -/

/-- One chunk. -/
def chunk (data : List UInt8) : List UInt8 := hexText data.length ++ crlf ++ data ++ crlf

/-- Chunks with these data, and the last one. -/
def encodeChunks (blocks : List (List UInt8)) : List UInt8 :=
  (blocks.map chunk).flatten ++ (hexText 0 ++ crlf)

/-- **What is written in chunks reads as chunks.** -/
theorem chunked_encode {bound : ℕ} {blocks : List (List UInt8)}
    (h : ∀ block ∈ blocks, block ≠ [] ∧ block.length < bound) :
    Chunked bound (encodeChunks blocks) blocks.flatten := by
  induction blocks with
  | nil => exact .last (isSizeLine_hexText 0)
  | cons block blocks ih =>
    obtain ⟨hne, hlt⟩ := h block List.mem_cons_self
    have hrest := ih fun block' hmem => h block' (List.mem_cons_of_mem _ hmem)
    have hchunk := Chunked.chunk (isSizeLine_hexText block.length) hne hlt hrest
    simpa [encodeChunks, chunk, List.append_assoc] using hchunk

/-! ## Reading chunks -/

/-- A line up to its end, and what is behind. -/
def takeLine : List UInt8 → Option (List UInt8 × List UInt8)
  | [] => none
  | c :: s =>
    if crlf <+: c :: s then some ([], s.tail)
    else (takeLine s).map fun r => (c :: r.1, r.2)

/-- The size that a chunk begins with; an extension of its line is passed over. -/
def takeSize (wire : List UInt8) : Option (ℕ × List UInt8) :=
  (takeLine wire).bind fun r =>
    let digits := r.1.takeWhile isHex
    let extension := r.1.drop digits.length
    if digits ≠ [] ∧ (extension = [] ∨ extension.head? = some 59) then some (hexNat digits, r.2)
    else none

/-- The trailer, up to the empty line. -/
def skipTrailer : (fuel : ℕ) → List UInt8 → Option (List UInt8)
  | 0, _ => none
  | fuel + 1, wire =>
    (takeLine wire).bind fun r => if r.1 = [] then some r.2 else skipTrailer fuel r.2

/-- The chunks of a body, as far as `fuel` goes: the data of each that has data, and what is behind
the body. -/
def readChunks : (fuel : ℕ) → List UInt8 → Option (List (List UInt8) × List UInt8)
  | 0, _ => none
  | fuel + 1, wire =>
    (takeSize wire).bind fun (size, wire) =>
      if size = 0 then (skipTrailer (fuel + 1) wire).map fun rest => ([], rest)
      else if size ≤ wire.length ∧ crlf <+: wire.drop size then
        (readChunks fuel (wire.drop (size + 2))).map fun r => (wire.take size :: r.1, r.2)
      else none

/-- A chunked body. -/
def decodeChunked (wire : List UInt8) : Option (List (List UInt8) × List UInt8) :=
  readChunks (wire.length + 1) wire

theorem takeLine_crlf {line : List UInt8} (h : ∀ c ∈ line, ¬ isLineEnd c) (rest : List UInt8) :
    takeLine (line ++ (crlf ++ rest)) = some (line, rest) := by
  induction line with
  | nil =>
    rw [List.nil_append, crlf, List.cons_append, takeLine, if_pos (by simp [crlf])]
    rfl
  | cons c line ih =>
    have hc : c ≠ 13 := by
      rintro rfl
      exact h 13 List.mem_cons_self rfl
    have hno : ¬ crlf <+: c :: (line ++ (crlf ++ rest)) := by
      rw [crlf, List.cons_prefix_cons]
      exact fun hboth => hc hboth.1.symm
    rw [List.cons_append, takeLine, if_neg hno, ih fun c hc => h c (List.mem_cons_of_mem _ hc),
      Option.map_some]

/-- The size is read that has been written. -/
theorem takeSize_hexText (n : ℕ) (rest : List UInt8) :
    takeSize (hexText n ++ (crlf ++ rest)) = some (n, rest) := by
  have hline : ∀ c ∈ hexText n, ¬ isLineEnd c := fun c hc =>
    isLineEnd_of_isHex (isHex_of_mem_hexText hc)
  have hdigits : (hexText n).takeWhile isHex = hexText n :=
    List.takeWhile_eq_self_iff.mpr fun c hc => isHex_of_mem_hexText hc
  rw [takeSize, takeLine_crlf hline, Option.bind_some]
  simp only [hdigits, List.drop_length]
  rw [if_pos ⟨hexText_ne_nil n, Or.inl trivial⟩, hexNat_hexText]

/-- **Chunks that are written are read**, and the body ends behind them. -/
theorem readChunks_encode {blocks : List (List UInt8)} (h : ∀ block ∈ blocks, block ≠ [])
    {fuel : ℕ} (hfuel : blocks.length < fuel) (rest : List UInt8) :
    readChunks fuel (encodeChunks blocks ++ (crlf ++ rest)) = some (blocks, rest) := by
  induction blocks generalizing fuel with
  | nil =>
    obtain ⟨fuel, rfl⟩ := Nat.exists_eq_succ_of_ne_zero hfuel.ne'
    have hend := takeLine_crlf (List.forall_mem_nil _) rest
    rw [List.nil_append] at hend
    have hwire : encodeChunks [] ++ (crlf ++ rest) = hexText 0 ++ (crlf ++ (crlf ++ rest)) := by
      simp [encodeChunks]
    rw [hwire, readChunks, takeSize_hexText, Option.bind_some]
    simp only [if_true]
    rw [skipTrailer, hend, Option.bind_some, if_pos rfl, Option.map_some]
  | cons block blocks ih =>
    obtain ⟨fuel, rfl⟩ := Nat.exists_eq_succ_of_ne_zero (Nat.ne_zero_of_lt hfuel)
    have hne := List.length_pos_of_ne_nil (h block List.mem_cons_self)
    have hwire : encodeChunks (block :: blocks) ++ (crlf ++ rest)
        = hexText block.length
          ++ (crlf ++ (block ++ (crlf ++ (encodeChunks blocks ++ (crlf ++ rest))))) := by
      simp [encodeChunks, chunk]
    have hbehind : (block ++ (crlf ++ (encodeChunks blocks ++ (crlf ++ rest)))).drop
        (block.length + 2) = encodeChunks blocks ++ (crlf ++ rest) := by
      rw [← List.drop_drop, List.drop_left]
      rfl
    rw [hwire, readChunks, takeSize_hexText, Option.bind_some]
    simp only [hne.ne', if_false, List.drop_left, List.prefix_append, and_true, hbehind,
      List.take_left]
    rw [if_pos (by simp), ih (fun block' hmem => h block' (List.mem_cons_of_mem _ hmem))
      (by simpa using hfuel), Option.map_some]

/-- The coding has a byte for each chunk at least. -/
theorem length_le_encodeChunks (blocks : List (List UInt8)) :
    blocks.length ≤ (encodeChunks blocks).length := by
  induction blocks with
  | nil => exact Nat.zero_le _
  | cons block blocks ih =>
    simp only [encodeChunks, chunk, crlf, List.map_cons, List.flatten_cons, List.length_append,
      List.length_cons] at ih ⊢
    omega

/-- **The decoder reads what the coding says**, up to its last byte. -/
theorem decodeChunked_encode {blocks : List (List UInt8)} (h : ∀ block ∈ blocks, block ≠ [])
    (rest : List UInt8) :
    decodeChunked (encodeChunks blocks ++ (crlf ++ rest)) = some (blocks, rest) := by
  refine readChunks_encode h ?_ rest
  have hlength := length_le_encodeChunks blocks
  rw [List.length_append]
  omega

end Tr50.Machinery
