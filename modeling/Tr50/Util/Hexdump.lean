import Tr50.Machinery.Chunked
import Tr50.Machinery.Decimal
import Tr50.Machinery.Writes
import Tr50.Util.Json
import Tr50.Util.Memory

/-!
# Util/Hexdump — bytes, as the log shows them

`_log_hexdump` of `src/util/linux/linux.log.c`: a header, and a line for every sixteen bytes with
their place, their digits and their characters.  The block is allocated for eighty characters a line
and some more, which is enough (`length_hexdumpText_lt`); its size is an `int`
(`hexdumpSafe_iff`).
-/

namespace Tr50

open Machinery

/-! ## Printing into a block -/

/-- `buffer` and `buffer_len`. -/
structure LogBuffer where
  buffer : Buffer
  bufferLen : ℤ

/-- `buffer[buffer_len++] = c` -/
def LogBuffer.put (s : LogBuffer) (c : UInt8) : Option LogBuffer := do
  let buffer ← s.buffer.store s.bufferLen c
  let bufferLen ← intAdd s.bufferLen 1
  return ⟨buffer, bufferLen⟩

/-- `buffer_len += snprintf(buffer + buffer_len, buffer_size - buffer_len, …)`.  A text whose length
is no `int` gives `-1`, and it is not said what is stored of it. -/
def LogBuffer.snprintf (bufferSize : ℤ) (text : List UInt8) (s : LogBuffer) : Option LogBuffer := do
  let size ← intAdd bufferSize (-s.bufferLen)
  if 2 ^ 31 ≤ text.length then
    let bufferLen ← intAdd s.bufferLen (-1)
    return { s with bufferLen := bufferLen }
  else
    let n := (size % 2 ^ 64).toNat
    let buffer ← s.buffer.memcpy s.bufferLen (if n = 0 then [] else text.take (n - 1) ++ [0])
    let bufferLen ← intAdd s.bufferLen text.length
    return ⟨buffer, bufferLen⟩

/-- `isprint`, in the C locale. -/
def isprint (c : UInt8) : Bool := 0x20 ≤ c ∧ c ≤ 0x7E

/-- `"%*.*x"`: as many digits as `width` at least. -/
def hexPadded (width n : ℕ) : List UInt8 := (hexText n).leftpad width (ch '0')

/-! ## `_log_hexdump` -/

/-- The character of a byte. -/
def printed (c : UInt8) : UInt8 := if isprint c then c else ch '.'

/-- `for (; ix2 < i + n; ++ix2)`, the characters of `n` bytes from `i` on. -/
def LogBuffer.putPrinted (data : List UInt8) (i n : ℕ) (s : LogBuffer) : Option LogBuffer :=
  (List.range' i n).foldlM (fun s ix2 => data[ix2]?.bind fun c => s.put (printed c)) s

/-- The place of a line, where one begins. -/
def LogBuffer.beginLine (bufferSize : ℤ) (indx : ℕ) (s : LogBuffer) : Option LogBuffer :=
  if indx % 16 = 0 then s.snprintf bufferSize (cstring "  ".toList ++ hexPadded 4 indx ++ [ch ':'])
  else some s

/-- What follows the digits, in the middle of a line and at its end. -/
def LogBuffer.endHalf (data : List UInt8) (indx : ℕ) (s : LogBuffer) : Option LogBuffer :=
  if indx % 16 = 7 then do
    let s ← s.put (ch ' ')
    s.put (ch '-')
  else if indx % 16 = 15 then do
    let s ← s.put (ch ' ')
    let s ← s.put (ch ' ')
    -- `indx & -16` up to `indx`
    let s ← s.putPrinted data (indx - indx % 16) (indx % 16 + 1)
    s.put 10
  else some s

/-- A round of the loop. -/
def LogBuffer.round (bufferSize : ℤ) (data : List UInt8) (s : LogBuffer) (indx : ℕ) :
    Option LogBuffer := do
  let s ← s.beginLine bufferSize indx
  let c ← data[indx]?
  let s ← s.snprintf bufferSize (ch ' ' :: hexPadded 2 c.toNat)
  s.endHalf data indx

/-- What stands in front of the characters of a line that is not full. -/
def hexdumpGap (r : ℕ) : List UInt8 :=
  List.replicate ((16 - r) * 3 + (1 - r / 8) * 2) (ch ' ') ++ cstring "  ".toList

/-- Behind the loop: the rest of a line that is not full, and the NUL. -/
def LogBuffer.finish (bufferSize : ℤ) (data : List UInt8) (indx : ℕ) (s : LogBuffer) :
    Option Buffer :=
  if indx % 16 ≠ 0 then do
    let s ← s.snprintf bufferSize (hexdumpGap (indx % 16))
    let s ← s.putPrinted data (indx - indx % 16) (indx % 16)
    s.buffer.store s.bufferLen 0
  else s.buffer.store (s.bufferLen - 1) 0

/-- `"%s - HEXDUMP AT [0x%p] (%d bytes)\n"`, of a pointer that prints as `pointer`. -/
def hexdumpHeader (pointer msg : List UInt8) (len : ℤ) : List UInt8 :=
  cut msg ++ (cstring " - HEXDUMP AT [0x".toList ++ pointer ++ cstring "] (".toList
    ++ decimalText len ++ cstring " bytes)\n".toList)

/-- `sizeof(char) * (len / 16) * 80 + 160 + strlen(msg)` -/
def hexdumpSize (msg : List UInt8) (len : ℤ) : ℤ := len.tdiv 16 * 80 + 160 + strlen msg

/-- `_log_hexdump`: NULL, or the block that it fills. -/
def logHexdump (malloc : Bool) (pointer msg : List UInt8) (data : Option (List UInt8)) (len : ℤ) :
    Option (Option Buffer) :=
  match data with
  | none => some none
  | some data =>
    let bufferSize := toInt32 (hexdumpSize msg len)
    -- a negative size is more than there is, as a `size_t`
    if bufferSize < 0 ∨ ¬ malloc then some none
    else do
      let s ← LogBuffer.snprintf bufferSize (hexdumpHeader pointer msg len)
        ⟨Buffer.alloc bufferSize.toNat, 0⟩
      let s ← (List.range len.toNat).foldlM (LogBuffer.round bufferSize data) s
      let buffer ← s.finish bufferSize data len.toNat
      return some buffer

/-! ## What is written -/

/-- The block holds the bytes, up to the edge. -/
structure LogBuffer.Holds (size : ℕ) (s : LogBuffer) (bs : List UInt8) : Prop where
  length : s.buffer.length = size
  front : bs.map some <+: s.buffer
  len : s.bufferLen = bs.length

/-- The characters of `n` bytes from `i` on. -/
def printedText (data : List UInt8) (i n : ℕ) : List UInt8 :=
  (List.range' i n).flatMap fun ix2 => [printed (data.getD ix2 0)]

/-- The text of a round. -/
def roundText (data : List UInt8) (indx : ℕ) : List UInt8 :=
  (if indx % 16 = 0 then cstring "  ".toList ++ hexPadded 4 indx ++ [ch ':'] else [])
    ++ (ch ' ' :: hexPadded 2 (data.getD indx 0).toNat
    ++ if indx % 16 = 7 then [ch ' ', ch '-']
      else if indx % 16 = 15 then
        [ch ' '] ++ ([ch ' '] ++ (printedText data (indx - indx % 16) (indx % 16 + 1) ++ [10]))
      else [])

section Writing

variable {size : ℕ} {data text : List UInt8} {s : LogBuffer} {bs : List UInt8}

theorem put_writes (hsize : size < 2 ^ 31) (c : UInt8) :
    Writes (LogBuffer.Holds size) size (·.put c) [c] := by
  intro s bs hs hroom
  rw [List.length_singleton] at hroom
  obtain ⟨buffer, hstore, hfront, hlength⟩ := @Buffer.memcpy_behind s.buffer bs [c] hs.front
    (by rw [hs.length, List.length_singleton]; omega)
  refine ⟨⟨buffer, bs.length + 1⟩, ?_, hlength.trans hs.length, hfront, by simp⟩
  simp only [LogBuffer.put, hs.len, Buffer.store_eq_memcpy, Option.bind_eq_bind]
  rw [hstore, Option.bind_some, intAdd_of_lt (by omega)]
  rfl

theorem snprintf_writes (hsize : size < 2 ^ 31) (text : List UInt8) :
    Writes (LogBuffer.Holds size) size (LogBuffer.snprintf size text) text := by
  intro s bs hs hroom
  obtain ⟨buffer, hcopy, hfront, hlength⟩ := @Buffer.memcpy_behind s.buffer bs (text ++ [0])
    hs.front (by rw [hs.length, List.length_append, List.length_singleton]; omega)
  refine ⟨⟨buffer, bs.length + text.length⟩, ?_, hlength.trans hs.length, ?_, by simp⟩
  · have hn : (((size : ℤ) + -(bs.length : ℤ)) % 2 ^ 64).toNat = size - bs.length := by omega
    have htake : text.take (size - bs.length - 1) = text := List.take_of_length_le (by omega)
    simp only [LogBuffer.snprintf, hs.len, Option.bind_eq_bind]
    rw [intAdd_of_lt (by omega), Option.bind_some, if_neg (by omega), hn, if_neg (by omega), htake,
      hcopy, Option.bind_some, intAdd_of_lt (by omega)]
    rfl
  · rw [← List.append_assoc] at hfront
    exact ((List.prefix_append (bs ++ text) [0]).map some).trans hfront

theorem putPrinted_writes (hsize : size < 2 ^ 31) {i n : ℕ} (hdata : i + n ≤ data.length) :
    Writes (LogBuffer.Holds size) size (LogBuffer.putPrinted data i n) (printedText data i n) := by
  refine Writes.foldlM _ fun ix2 hix2 => ?_
  have hlt : ix2 < data.length := by
    rw [List.mem_range'_1] at hix2
    omega
  rw [List.getElem?_eq_getElem hlt, List.getD_eq_getElem _ _ hlt]
  exact put_writes hsize _

/-- **A round writes its text.** -/
theorem round_writes (hsize : size < 2 ^ 31) {indx : ℕ} (hindx : indx < data.length) :
    Writes (LogBuffer.Holds size) size (LogBuffer.round size data · indx)
      (roundText data indx) := by
  have hbegin : Writes (LogBuffer.Holds size) size (LogBuffer.beginLine size indx)
      (if indx % 16 = 0 then cstring "  ".toList ++ hexPadded 4 indx ++ [ch ':'] else []) :=
    Writes.ite (fun _ => snprintf_writes hsize _) fun _ => Writes.nothing
  have hchars : indx - indx % 16 + (indx % 16 + 1) ≤ data.length := by
    have := Nat.mod_le indx 16
    omega
  have hend : Writes (LogBuffer.Holds size) size (LogBuffer.endHalf data indx) _ :=
    Writes.ite (fun _ => (put_writes hsize (ch ' ')).bind (put_writes hsize (ch '-'))) fun _ =>
      Writes.ite (fun _ => (put_writes hsize (ch ' ')).bind ((put_writes hsize (ch ' ')).bind
        ((putPrinted_writes hsize hchars).bind (put_writes hsize 10)))) fun _ => Writes.nothing
  have hdigits := (snprintf_writes hsize (ch ' ' :: hexPadded 2 (data.getD indx 0).toNat)).bind hend
  have hc : data[indx]? = some (data.getD indx 0) := by
    rw [List.getElem?_eq_getElem hindx, List.getD_eq_getElem _ _ hindx]
  simp only [LogBuffer.round, hc, Option.bind_eq_bind, Option.bind_some]
  exact hbegin.bind hdigits

end Writing

/-! ## How much is written -/

section Length

variable {data : List UInt8}

theorem length_hexPadded_le {width n k : ℕ} (hwidth : width ≤ k + 1) (hn : n < 16 ^ (k + 1)) :
    (hexPadded width n).length ≤ k + 1 := by
  have hdigits := length_hexText_le k hn
  rw [hexPadded, List.length_leftpad]
  omega

theorem length_printedText (data : List UInt8) (i n : ℕ) : (printedText data i n).length = n := by
  simp [printedText, List.length_flatMap]

/-- How much there is of the lines at most, `n` bytes from the start. -/
def linesEdge (n : ℕ) : ℕ :=
  78 * (n / 16) + if n % 16 = 0 then 0 else 9 + 3 * (n % 16) + if 8 ≤ n % 16 then 2 else 0

/-- A round goes from one edge to the next. -/
theorem length_roundText_le {indx : ℕ} (hindx : indx < 2 ^ 24) :
    linesEdge indx + (roundText data indx).length ≤ linesEdge (indx + 1) := by
  have hplace : (hexPadded 4 indx).length ≤ 6 := length_hexPadded_le (by decide) (by omega)
  have hdigits : (hexPadded 2 (data.getD indx 0).toNat).length ≤ 2 :=
    length_hexPadded_le (by decide) (data.getD indx 0).toNat_lt
  have hspaces : (cstring "  ".toList).length = 2 := rfl
  have hmod := Nat.mod_lt indx (show 0 < 16 by decide)
  have hnext : (indx + 1) / 16 = indx / 16 + (indx % 16 + 1) / 16
      ∧ (indx + 1) % 16 = (indx % 16 + 1) % 16 := by omega
  rw [linesEdge, linesEdge, hnext.1, hnext.2, roundText]
  generalize indx / 16 = line at *
  split_ifs <;> simp only [List.length_append, List.length_cons, List.length_nil,
    length_printedText, hspaces] <;> omega

/-- **The lines keep to their edge.** -/
theorem length_flatMap_roundText_le {n : ℕ} (hn : n ≤ 2 ^ 24) :
    ((List.range n).flatMap (roundText data)).length ≤ linesEdge n := by
  induction n with
  | zero => exact Nat.zero_le _
  | succ n ih =>
    have hround := @length_roundText_le data n (by omega)
    have hlines := ih (by omega)
    rw [List.range_succ, List.flatMap_append, List.flatMap_singleton, List.length_append]
    omega

theorem length_hexdumpHeader_le {pointer msg : List UInt8} (hpointer : pointer.length ≤ 18) {n : ℕ}
    (hn : n < 2 ^ 24) : (hexdumpHeader pointer msg n).length ≤ strlen msg + 54 := by
  have hdecimal : (decimalText n).length ≤ 8 := by
    rw [decimalText, if_neg (by omega), Int.natAbs_natCast]
    exact length_decimalDigits_le (by decide) (by omega)
  have hat : (cstring " - HEXDUMP AT [0x".toList).length = 17 := rfl
  have hparen : (cstring "] (".toList).length = 3 := rfl
  have hbytes : (cstring " bytes)\n".toList).length = 8 := rfl
  have hcut : (cut msg).length = strlen msg := rfl
  simp only [hexdumpHeader, List.length_append, hat, hparen, hbytes, hcut]
  omega

theorem length_hexdumpGap (r : ℕ) :
    (hexdumpGap r).length = (16 - r) * 3 + (1 - r / 8) * 2 + 2 := by
  rw [hexdumpGap, List.length_append, List.length_replicate]
  rfl

end Length

/-! ## The block -/

/-- The text of a line that is not full, behind its digits. -/
def finishText (data : List UInt8) (indx : ℕ) : List UInt8 :=
  if indx % 16 ≠ 0 then
    hexdumpGap (indx % 16) ++ printedText data (indx - indx % 16) (indx % 16)
  else []

/-- The text in front of the NUL. -/
def hexdumpText (pointer msg data : List UInt8) : List UInt8 :=
  hexdumpHeader pointer msg data.length
    ++ ((List.range data.length).flatMap (roundText data) ++ finishText data data.length)

/-- A string in a block. -/
def Terminated (b : Buffer) : Prop := ∃ text : List UInt8, (text ++ [0]).map some <+: b

/-- `_log_hexdump` stays inside its block, and what it returns is a string. -/
def HexdumpSafe (malloc : Bool) (pointer msg data : List UInt8) : Prop :=
  ∃ dump, logHexdump malloc pointer msg (some data) data.length = some dump
    ∧ ∀ buffer ∈ dump, Terminated buffer

section Block

variable {size : ℕ} {pointer msg data bs : List UInt8} {s : LogBuffer} {malloc : Bool}

/-- **Eighty characters a line and some more are enough.** -/
theorem length_hexdumpText_lt (hpointer : pointer.length ≤ 18) (hlen : data.length < 2 ^ 24) :
    ((hexdumpText pointer msg data).length : ℤ) < hexdumpSize msg data.length := by
  have hheader := @length_hexdumpHeader_le pointer msg hpointer data.length hlen
  have hlines := @length_flatMap_roundText_le data data.length hlen.le
  have hmod := Nat.mod_lt data.length (show 0 < 16 by decide)
  rw [hexdumpText, List.length_append, List.length_append, finishText, hexdumpSize,
    Int.tdiv_eq_ediv_of_nonneg (Int.natCast_nonneg _)]
  rw [linesEdge] at hlines
  split_ifs at hlines ⊢ <;>
    simp only [List.length_append, List.length_nil, length_hexdumpGap, length_printedText] <;> omega

/-- A NUL behind known bytes. -/
theorem exists_store_terminated {b : Buffer} {bs : List UInt8} {i : ℤ} (hi : i = bs.length)
    (hfront : bs.map some <+: b) (hfits : bs.length < b.length) :
    ∃ b', b.store i 0 = some b' ∧ Terminated b' := by
  obtain ⟨b', hstore, hfront', -⟩ := @Buffer.memcpy_behind b bs [0] hfront
    (by rw [List.length_singleton]; omega)
  exact ⟨b', by rw [Buffer.store_eq_memcpy, hi, hstore], bs, hfront'⟩

/-- Behind the loop the text is closed, over its last character where the line is full. -/
theorem finish_terminated (hsize : size < 2 ^ 31) (hs : s.Holds size bs) (hbs : bs ≠ [])
    (hroom : bs.length + (finishText data data.length).length < size) :
    ∃ b, s.finish size data data.length = some b ∧ Terminated b := by
  by_cases hfull : data.length % 16 = 0
  · obtain ⟨front, last, rfl⟩ : ∃ front last, bs = front ++ [last] :=
      ⟨_, _, (List.dropLast_append_getLast hbs).symm⟩
    rw [List.length_append, List.length_singleton] at hroom
    have hfront := hs.front
    rw [List.map_append] at hfront
    rw [LogBuffer.finish, if_neg (not_not.mpr hfull)]
    refine exists_store_terminated ?_ ((List.prefix_append _ _).trans hfront) ?_
    · rw [hs.len, List.length_append, List.length_singleton]
      omega
    · rw [hs.length]
      omega
  · rw [finishText, if_pos hfull] at hroom
    have hdata : data.length - data.length % 16 + data.length % 16 ≤ data.length := by omega
    have hwrites := (snprintf_writes hsize (hexdumpGap (data.length % 16))).bind
      (putPrinted_writes hsize hdata)
    obtain ⟨s', hs', hholds⟩ := hwrites hs hroom
    beta_reduce at hs'
    simp only [LogBuffer.finish, if_pos hfull, Option.bind_eq_bind]
    rw [← Option.bind_assoc, hs', Option.bind_some]
    exact exists_store_terminated hholds.len hholds.front
      (by rwa [hholds.length, List.length_append])

/-- The whole text is written into a block that it fits in. -/
theorem logHexdump_terminated (hsize : size < 2 ^ 31)
    (htext : (hexdumpText pointer msg data).length < size) : ∃ s : LogBuffer, ∃ b,
    (LogBuffer.snprintf size (hexdumpHeader pointer msg data.length) ⟨Buffer.alloc size, 0⟩).bind
      (fun s => (List.range data.length).foldlM (LogBuffer.round size data) s) = some s
    ∧ s.finish size data data.length = some b ∧ Terminated b := by
  have hfresh : LogBuffer.Holds size ⟨Buffer.alloc size, 0⟩ [] :=
    ⟨List.length_replicate, List.nil_prefix, rfl⟩
  have hrounds : Writes (LogBuffer.Holds size) size
      (fun s => (List.range data.length).foldlM (LogBuffer.round size data) s) _ :=
    Writes.foldlM _ fun indx hindx => round_writes hsize (List.mem_range.mp hindx)
  have hwrites := (snprintf_writes hsize (hexdumpHeader pointer msg data.length)).bind hrounds
  rw [hexdumpText, ← List.append_assoc, List.length_append] at htext
  obtain ⟨s, hs, hholds⟩ := hwrites hfresh (by rw [List.length_nil]; omega)
  have hne : hexdumpHeader pointer msg data.length
      ++ (List.range data.length).flatMap (roundText data) ≠ [] := by
    simp [hexdumpHeader, cstring]
  obtain ⟨b, hfinish, hterminated⟩ := @finish_terminated size data _ s hsize hholds hne
    (by rw [List.nil_append]; omega)
  exact ⟨s, b, hs, hfinish, hterminated⟩

/-- **A block of the size that has been worked out is enough**… -/
theorem hexdumpSafe_of_lt (hpointer : pointer.length ≤ 18) (hlen : data.length < 2 ^ 24)
    (hsmall : hexdumpSize msg data.length < 2 ^ 31) : HexdumpSafe malloc pointer msg data := by
  have htext := @length_hexdumpText_lt pointer msg data hpointer hlen
  obtain ⟨size, hsize⟩ : ∃ size : ℕ, hexdumpSize msg data.length = size :=
    ⟨_, (Int.toNat_of_nonneg (by omega)).symm⟩
  rw [hsize] at hsmall htext
  have hlt : size < 2 ^ 31 := by omega
  unfold HexdumpSafe logHexdump
  simp only [hsize, toInt32_of_lt hlt, Int.toNat_natCast]
  cases malloc with
  | false => exact ⟨none, if_pos (by simp), by simp⟩
  | true =>
    obtain ⟨s, b, hs, hfinish, hterminated⟩ := @logHexdump_terminated size pointer msg data hlt
      (by omega)
    refine ⟨some b, ?_, by simpa using hterminated⟩
    rw [if_neg (by simp)]
    simp only [Option.bind_eq_bind]
    rw [← Option.bind_assoc, hs, Option.bind_some, hfinish]
    rfl

/-- The prefix that a caller passes leaves room: it is a literal of forty-eight characters at
most. -/
theorem hexdumpSafe_of_strlen_le (hpointer : pointer.length ≤ 18) (hlen : data.length < 2 ^ 24)
    (hmsg : strlen msg ≤ 48) : HexdumpSafe malloc pointer msg data := by
  refine hexdumpSafe_of_lt hpointer hlen ?_
  rw [hexdumpSize, Int.tdiv_eq_ediv_of_nonneg (Int.natCast_nonneg _)]
  omega

/-- In front of the block nothing can be stored. -/
theorem snprintf_of_neg {bufferSize : ℤ} {text : List UInt8} (hneg : s.bufferLen < 0)
    (hsize : 0 ≤ bufferSize) (htext : text.length < 2 ^ 31) :
    s.snprintf bufferSize text = none := by
  simp only [LogBuffer.snprintf, Option.bind_eq_bind]
  cases hroom : intAdd bufferSize (-s.bufferLen) with
  | none => rfl
  | some room =>
    have hmem := intOf_mem hroom
    obtain rfl := intAdd_eq_some hroom
    rw [Option.bind_some, if_neg (by omega), if_neg (by omega)]
    cases hcopy : s.buffer.memcpy s.bufferLen _ with
    | none => rfl
    | some buffer =>
      have hinside := (Buffer.memcpy_inside hcopy).2.1 (by simp)
      omega

/-- A text whose length is no `int` takes the edge in front of the block. -/
theorem snprintf_of_ge {bufferSize : ℤ} {text : List UInt8} (hsize : 0 ≤ bufferSize)
    (hbound : bufferSize < 2 ^ 31) (b : Buffer) (htext : 2 ^ 31 ≤ text.length) :
    LogBuffer.snprintf bufferSize text ⟨b, 0⟩ = some ⟨b, -1⟩ := by
  simp only [LogBuffer.snprintf, Option.bind_eq_bind]
  rw [intAdd_of_lt (by omega), Option.bind_some, if_pos htext, intAdd_of_lt (by omega)]
  rfl

theorem round_of_neg {bufferSize : ℤ} (hneg : s.bufferLen < 0) (hsize : 0 ≤ bufferSize) :
    s.round bufferSize data 0 = none := by
  have hplace : (cstring "  ".toList ++ hexPadded 4 0 ++ [ch ':']).length < 2 ^ 31 := by
    have hdigits : (hexPadded 4 0).length ≤ 4 := length_hexPadded_le le_rfl (by decide)
    have hspaces : (cstring "  ".toList).length = 2 := rfl
    rw [List.length_append, List.length_append, hspaces, List.length_singleton]
    omega
  rw [LogBuffer.round, LogBuffer.beginLine, if_pos (Nat.zero_mod 16),
    snprintf_of_neg hneg hsize hplace]
  rfl

/-- The size has become another where the message is long. -/
theorem le_length_hexdumpHeader (pointer : List UInt8) (hlen : data.length < 2 ^ 24)
    (hlarge : 2 ^ 31 ≤ hexdumpSize msg data.length)
    (hsize : 0 ≤ toInt32 (hexdumpSize msg data.length)) :
    2 ^ 31 ≤ (hexdumpHeader pointer msg data.length).length := by
  have hwrapped : 2 ^ 32 ≤ hexdumpSize msg data.length := by
    rw [toInt32, Int.bmod_def] at hsize
    split_ifs at hsize <;> omega
  have hcut : (cut msg).length = strlen msg := rfl
  rw [hexdumpSize, Int.tdiv_eq_ediv_of_nonneg (Int.natCast_nonneg _)] at hwrapped
  rw [hexdumpHeader, List.length_append, hcut]
  omega

/-- …and with one that has become another, which is smaller, it writes in front of it. -/
theorem not_hexdumpSafe_of_ge (hlen : data.length < 2 ^ 24)
    (hlarge : 2 ^ 31 ≤ hexdumpSize msg data.length)
    (hsize : 0 ≤ toInt32 (hexdumpSize msg data.length)) : ¬ HexdumpSafe true pointer msg data := by
  have hheader := le_length_hexdumpHeader pointer hlen hlarge hsize
  rintro ⟨dump, hdump, -⟩
  unfold logHexdump at hdump
  have hbound : toInt32 (hexdumpSize msg data.length) < 2 ^ 31 := Int.bmod_lt (by norm_num)
  generalize toInt32 (hexdumpSize msg data.length) = size at *
  simp only [Option.bind_eq_bind] at hdump
  rw [if_neg (by simp [hsize]), snprintf_of_ge hsize hbound _ hheader, Option.bind_some,
    Int.toNat_natCast] at hdump
  cases hdata : data.length with
  | zero =>
    rw [hdata, List.range_zero, List.foldlM_nil] at hdump
    simp [LogBuffer.finish, Buffer.store] at hdump
  | succ n =>
    rw [hdata, List.range_succ_eq_map, List.foldlM_cons,
      round_of_neg (show (-1 : ℤ) < 0 by decide) hsize] at hdump
    simp at hdump

/-- **The dump stays inside its block** where the size that is worked out is an `int`, and where it
is a negative one, which is refused. -/
theorem hexdumpSafe_iff (hpointer : pointer.length ≤ 18) (hlen : data.length < 2 ^ 24) :
    HexdumpSafe malloc pointer msg data
      ↔ malloc = false ∨ hexdumpSize msg data.length < 2 ^ 31
        ∨ toInt32 (hexdumpSize msg data.length) < 0 := by
  have hrefused : (toInt32 (hexdumpSize msg data.length) < 0 ∨ ¬ malloc) →
      HexdumpSafe malloc pointer msg data := fun hrefused => by
    refine ⟨none, ?_, by simp⟩
    simp only [logHexdump]
    rw [if_pos hrefused]
  constructor
  · intro hsafe
    by_contra! hlarge
    obtain ⟨hmalloc, hlarge, hsize⟩ := hlarge
    obtain rfl : malloc = true := Bool.eq_true_of_not_eq_false hmalloc
    exact not_hexdumpSafe_of_ge hlen hlarge hsize hsafe
  · rintro (hmalloc | hsmall | hneg)
    · exact hrefused (Or.inr (by simp [hmalloc]))
    · exact hexdumpSafe_of_lt hpointer hlen hsmall
    · exact hrefused (Or.inl hneg)

/-- Two bytes. -/
theorem hexdumpSafe_iff_two :
    HexdumpSafe true (cstring "0x7ffe".toList) (cstring "_tcp_send()".toList) [0x10, 0x0A] :=
  (hexdumpSafe_iff (by decide) (by decide)).mpr (by decide)

theorem not_hexdumpSafe_replicate {n : ℕ} (hn : n + 160 = 2 ^ 32) :
    ¬ HexdumpSafe true pointer (List.replicate n (ch 'A')) [] := by
  have hstrlen : strlen (List.replicate n (ch 'A')) = n := by
    rw [strlen_of_notMem fun h => absurd (List.eq_of_mem_replicate h) (by decide),
      List.length_replicate]
  have hsize : hexdumpSize (List.replicate n (ch 'A')) ([] : List UInt8).length = 2 ^ 32 := by
    rw [hexdumpSize, hstrlen, List.length_nil, Nat.cast_zero, Int.zero_tdiv]
    omega
  refine not_hexdumpSafe_of_ge (by decide) ?_ ?_
  · rw [hsize]
    norm_num
  · rw [hsize]
    decide

/-- **A message of nearly four gigabytes** is given a block of no bytes, and a NUL at `-2`. -/
theorem not_hexdumpSafe_long : ¬ HexdumpSafe true (cstring "0x7ffe".toList)
    (List.replicate (2 ^ 32 - 160) (ch 'A')) [] :=
  not_hexdumpSafe_replicate (by norm_num)

end Block

end Tr50
