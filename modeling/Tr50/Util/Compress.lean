import Tr50.Util.Blob

/-!
# Util/Compress — what comes out of a compressed text

`_compress_inflate` of `util/ils/ils.compress.c`, over a decoder that is not part of the sources:
`Zlib` is what the function calls of it, and `Zlib.Streaming` that it decodes a stream — each call
writes as much of the text as has room, and says when the stream is complete.

The loop goes on as long as the chunk comes back full, and puts every chunk into a blob.  It reports
an error only where `inflate` does: a stream that just ends is one without an error
(`compressInflate_truncated`).  It does not look at what `_blob_append` returns.
`compressInflate_right_iff` puts together when the result can be relied on.
-/

namespace Tr50

open Machinery

/-! ## The decoder -/

def zStreamEnd : ℤ := 1
def zNeedDict : ℤ := 2
def zDataError : ℤ := -3
def zMemError : ℤ := -4
def zBufError : ℤ := -5

/-- What a call of `inflate` returns, writes to `next_out`, and leaves of the stream. -/
structure InflateCall (σ : Type) where
  ret : ℤ
  out : List UInt8
  strm : σ

/-- zlib: the stream over an input, and `inflate` with so much room. -/
structure Zlib (σ : Type) where
  inflateInit : List UInt8 → σ
  inflate : σ → ℕ → InflateCall σ

/-- How a stream ends. -/
inductive StreamEnd
  /-- With its last byte. -/
  | complete
  /-- Before it, for want of input. -/
  | truncated
  /-- Where `inflate` finds an error. -/
  | corrupt
deriving DecidableEq, Repr

/-- The codes that `_compress_inflate` takes for errors. -/
def InflateFails (ret : ℤ) : Prop := ret = zNeedDict ∨ ret = zDataError ∨ ret = zMemError

instance (ret : ℤ) : Decidable (InflateFails ret) := inferInstanceAs (Decidable (_ ∨ _))

variable {σ : Type}

/-- `inflate` decodes a stream: `text` is what is still to come, `ending` how it will end. -/
structure Zlib.Streaming (z : Zlib σ) (text : σ → List UInt8) (ending : σ → StreamEnd) : Prop where
  out_eq : ∀ strm room, (z.inflate strm room).out = (text strm).take room
  text_next : ∀ strm room, text (z.inflate strm room).strm = (text strm).drop room
  ending_next : ∀ strm room, ending (z.inflate strm room).strm = ending strm
  streamEnd_iff : ∀ strm room, (z.inflate strm room).ret = zStreamEnd
    ↔ ending strm = .complete ∧ (text strm).length ≤ room
  fails_iff : ∀ strm room, InflateFails (z.inflate strm room).ret
    ↔ ending strm = .corrupt ∧ (text strm).length ≤ room

/-! ## `_compress_inflate` -/

/-- `STOMP_COMPRESSION_CHUNK` -/
def compressionChunk : ℕ := 16384

/-- What the allocator answers: to the two blocks of the blob, to the chunk, and to a growth of the
blob in each round. -/
structure InflateEnv where
  blob : Bool
  blobBuffer : Bool
  cbuffer : Bool
  realloc : ℕ → Bool

/-- How `_compress_inflate` returns. -/
inductive InflateReturn
  /-- It does not: it overflows an `int`. -/
  | fault
  | failed (ret : ℤ)
  /-- With `0`, `*out` and `*out_len`, the last call of `inflate` having returned `last`. -/
  | inflated (last : ℤ) (out : Option Buffer) (outLen : ℤ)

/-- `_blob_get_length` -/
def blobGetLength : Option Blob → ℤ
  | none => errTr50Badhandle
  | some blob => blob.len

/-- The loop, from round `k` on. -/
def inflateLoop (z : Zlib σ) (realloc : ℕ → Bool) :
    ℕ → ℕ → σ → Option Blob → Option InflateReturn
  | 0, _, _, _ => none
  | fuel + 1, k, strm, blob =>
    let call := z.inflate strm compressionChunk
    if InflateFails call.ret then some (.failed errTr50CompressInflate)
    else
      match blobAppend (realloc k) blob (some call.out) call.out.length with
      | none => some .fault
      | some (_, blob) =>
        if call.out.length = compressionChunk then inflateLoop z realloc fuel (k + 1) call.strm blob
        else some (.inflated call.ret (blob.map (·.buffer)) (blobGetLength blob))

/-- `_compress_inflate` -/
def compressInflate (z : Zlib σ) (env : InflateEnv) (fuel : ℕ) (input : List UInt8) :
    Option InflateReturn :=
  match blobCreate env.blob env.blobBuffer 256 with
  | none => some .fault
  | some (_, blob) =>
    if env.cbuffer = false then some (.failed errTr50Malloc)
    else inflateLoop z env.realloc fuel 0 (z.inflateInit input) blob

/-- What the caller may rely on: an error, or a complete stream and the whole of its text. -/
def InflateReturn.Right (text : List UInt8) (ending : StreamEnd) (r : InflateReturn) : Prop :=
  (∃ ret, r = .failed ret ∧ ret ≠ 0)
  ∨ ending = .complete ∧ ∃ buffer, r = .inflated zStreamEnd (some buffer) text.length
      ∧ buffer.take text.length = text.map some

/-! ## The chunks and the blob -/

/-- The chunk of round `k`. -/
def chunkAt (text : List UInt8) (k : ℕ) : List UInt8 :=
  (text.drop (k * compressionChunk)).take compressionChunk

/-- The blob after the chunks of the first rounds, and whether each append has returned `0`. -/
def appendChunks (realloc : ℕ → Bool) (text : List UInt8) (blob : Option Blob) :
    ℕ → Option (Bool × Option Blob)
  | 0 => some (true, blob)
  | k + 1 =>
    (appendChunks realloc text blob k).bind fun past =>
      (blobAppend (realloc k) past.2 (some (chunkAt text k)) (chunkAt text k).length).map
        fun next => (past.1 && next.1 = 0, next.2)

/-- The rounds that have bytes… -/
def rounds (text : List UInt8) : ℕ := (text.length + (compressionChunk - 1)) / compressionChunk

/-- …and those in which more is to come. -/
def fullRounds (text : List UInt8) : ℕ := (text.length - 1) / compressionChunk

/-- The blob that the loop begins with. -/
def InflateEnv.created (env : InflateEnv) : Option Blob :=
  (blobCreate env.blob env.blobBuffer 256).bind (·.2)

/-- How the loop ends that `inflate` does not end. -/
def InflateReturn.ofChunks (last : ℤ) (past : Option (Bool × Option Blob)) : InflateReturn :=
  past.elim .fault fun p => .inflated last (p.2.map (·.buffer)) (blobGetLength p.2)

section Rounds

variable {text : List UInt8} {k : ℕ}

theorem length_chunkAt (text : List UInt8) (k : ℕ) :
    (chunkAt text k).length = min compressionChunk (text.length - k * compressionChunk) := by
  rw [chunkAt, List.length_take, List.length_drop]

/-- **The chunks are the text.** -/
theorem take_append_chunkAt (text : List UInt8) (k : ℕ) :
    text.take (k * compressionChunk) ++ chunkAt text k
      = text.take ((k + 1) * compressionChunk) := by
  rw [chunkAt, Nat.succ_mul, List.take_add]

theorem lt_rounds_iff : k < rounds text ↔ k * compressionChunk < text.length := by
  rw [rounds, compressionChunk]
  omega

theorem fullRounds_le_iff :
    fullRounds text ≤ k ↔ text.length - k * compressionChunk ≤ compressionChunk := by
  rw [fullRounds, compressionChunk]
  omega

variable {realloc : ℕ → Bool} {blob : Option Blob}

/-- What has overflowed stays so. -/
theorem appendChunks_none {m : ℕ} (h : appendChunks realloc text blob k = none) (hle : k ≤ m) :
    appendChunks realloc text blob m = none := by
  induction m, hle using Nat.le_induction with
  | base => exact h
  | succ m _ ih =>
    rw [appendChunks, ih]
    rfl

/-- One round more. -/
theorem appendChunks_succ {past : Bool × Option Blob}
    (h : appendChunks realloc text blob k = some past) :
    appendChunks realloc text blob (k + 1) = (blobAppend (realloc k) past.2
      (some (chunkAt text k)) (chunkAt text k).length).map
        fun next => (past.1 && next.1 = 0, next.2) := by
  rw [appendChunks, h, Option.bind_some]

end Rounds

/-! ## The loop -/

section Loop

variable {z : Zlib σ} {text : σ → List UInt8} {ending : σ → StreamEnd} (h : z.Streaming text ending)
  {realloc : ℕ → Bool} {input : σ} {blob₀ : Option Blob}

/-- The stream before round `k`. -/
def Zlib.strmAt (z : Zlib σ) (input : σ) : ℕ → σ
  | 0 => input
  | k + 1 => (z.inflate (z.strmAt input k) compressionChunk).strm

include h

theorem Zlib.Streaming.strmAt (k : ℕ) :
    text (z.strmAt input k) = (text input).drop (k * compressionChunk)
      ∧ ending (z.strmAt input k) = ending input := by
  induction k with
  | zero => exact ⟨by rw [Zlib.strmAt, zero_mul, List.drop_zero], rfl⟩
  | succ k ih =>
    rw [Zlib.strmAt, h.text_next, h.ending_next, ih.1, List.drop_drop, Nat.succ_mul]
    exact ⟨rfl, ih.2⟩

/-- Round `k` brings its chunk… -/
theorem Zlib.Streaming.chunk (k : ℕ) :
    (z.inflate (z.strmAt input k) compressionChunk).out = chunkAt (text input) k := by
  rw [h.out_eq, (h.strmAt k).1, chunkAt]

/-- …the error if it is the last one of a corrupt stream… -/
theorem Zlib.Streaming.fails_at (k : ℕ) :
    InflateFails (z.inflate (z.strmAt input k) compressionChunk).ret
      ↔ ending input = .corrupt ∧ fullRounds (text input) ≤ k := by
  rw [h.fails_iff, (h.strmAt k).1, (h.strmAt k).2, List.length_drop, fullRounds_le_iff]

/-- …and `Z_STREAM_END` if it is the last one of a complete stream. -/
theorem Zlib.Streaming.streamEnd_at (k : ℕ) :
    (z.inflate (z.strmAt input k) compressionChunk).ret = zStreamEnd
      ↔ ending input = .complete ∧ fullRounds (text input) ≤ k := by
  rw [h.streamEnd_iff, (h.strmAt k).1, (h.strmAt k).2, List.length_drop, fullRounds_le_iff]

/-- **A corrupt stream ends in its error**, unless an append before it overflows. -/
theorem inflateLoop_corrupt (hend : ending input = .corrupt) :
    ∀ (n fuel k : ℕ) (past : Bool × Option Blob), k + n = fullRounds (text input) → n < fuel →
      appendChunks realloc (text input) blob₀ k = some past →
      inflateLoop z realloc fuel k (z.strmAt input k) past.2
        = some ((appendChunks realloc (text input) blob₀ (fullRounds (text input))).elim .fault
          fun _ => .failed errTr50CompressInflate)
  | _, 0, _, _, _, hfuel, _ => absurd hfuel (Nat.not_lt_zero _)
  | 0, fuel + 1, k, past, hk, _, hpast => by
      rw [inflateLoop, if_pos ((h.fails_at k).mpr ⟨hend, hk.symm.le⟩), ← hk, add_zero, hpast]
      rfl
  | n + 1, fuel + 1, k, past, hk, hfuel, hpast => by
      have hmore : ¬ fullRounds (text input) ≤ k := by omega
      have hfull : (chunkAt (text input) k).length = compressionChunk := by
        rw [fullRounds_le_iff] at hmore
        rw [length_chunkAt]
        omega
      have hsucc := appendChunks_succ hpast
      rw [inflateLoop, if_neg fun hf => hmore ((h.fails_at k).mp hf).2, h.chunk k]
      cases happend : blobAppend (realloc k) past.2 (some (chunkAt (text input) k))
        (chunkAt (text input) k).length with
      | none =>
        rw [happend] at hsucc
        rw [appendChunks_none hsucc (by omega)]
        rfl
      | some next =>
        simp only [hfull, if_true]
        rw [happend] at hsucc
        exact inflateLoop_corrupt hend n fuel (k + 1) _ (by omega) (by omega) hsucc

/-- **Any other stream ends with the first chunk that is not full.** -/
theorem inflateLoop_ends (hend : ending input ≠ .corrupt) :
    ∀ (n fuel k : ℕ) (past : Bool × Option Blob),
      k + n = (text input).length / compressionChunk → n < fuel →
      appendChunks realloc (text input) blob₀ k = some past →
      inflateLoop z realloc fuel k (z.strmAt input k) past.2
        = some (.ofChunks (z.inflate (z.strmAt input ((text input).length / compressionChunk))
            compressionChunk).ret
          (appendChunks realloc (text input) blob₀ ((text input).length / compressionChunk + 1)))
  | _, 0, _, _, _, hfuel, _ => absurd hfuel (Nat.not_lt_zero _)
  | n, fuel + 1, k, past, hk, hfuel, hpast => by
      have hlength := length_chunkAt (text input) k
      have hsucc := appendChunks_succ hpast
      rw [inflateLoop, if_neg fun hf => hend ((h.fails_at k).mp hf).1, h.chunk k]
      cases happend : blobAppend (realloc k) past.2 (some (chunkAt (text input) k))
        (chunkAt (text input) k).length with
      | none =>
        rw [happend] at hsucc
        rw [appendChunks_none hsucc (by omega)]
        rfl
      | some next =>
        rw [happend] at hsucc
        cases n with
        | zero =>
          have hshort : (chunkAt (text input) k).length ≠ compressionChunk := by
            rw [compressionChunk] at *
            omega
          simp only [if_neg hshort]
          rw [← hk, add_zero, hsucc]
          rfl
        | succ n =>
          have hfull : (chunkAt (text input) k).length = compressionChunk := by
            rw [compressionChunk] at *
            omega
          simp only [if_pos hfull]
          exact inflateLoop_ends hend n fuel (k + 1) _ (by omega) (by omega) hsucc

end Loop

/-! ## What the blob holds in the end -/

section Held

variable {text : List UInt8} {k : ℕ} {realloc : ℕ → Bool} {env : InflateEnv}

theorem created_cases (env : InflateEnv) : ∃ ret, blobCreate env.blob env.blobBuffer 256
    = some (ret, env.created) ∧ (env.created = none ∨ env.created = some (.holding [] 256)) := by
  obtain ⟨size, -, hsize, hcreate⟩ := blobCreate_holding 256
  rw [if_neg (by decide)] at hsize
  obtain rfl : size = 256 := by exact_mod_cast hsize
  rw [InflateEnv.created]
  cases env.blob with
  | false => exact ⟨errTr50Malloc, rfl, Or.inl rfl⟩
  | true =>
    cases env.blobBuffer with
    | false => exact ⟨errTr50Malloc, rfl, Or.inl rfl⟩
    | true => exact ⟨0, by rw [hcreate]; rfl, Or.inr (by rw [hcreate]; rfl)⟩

/-- Without a blob the chunks are lost. -/
theorem appendChunks_null (k : ℕ) : ∃ all, appendChunks realloc text none k = some (all, none) := by
  induction k with
  | zero => exact ⟨true, rfl⟩
  | succ k ih =>
    obtain ⟨all, hall⟩ := ih
    exact ⟨_, appendChunks_succ hall⟩

/-- A block that a chunk has just filled is a small one. -/
theorem grownSize_room {size len n : ℕ} (h : len ≤ size) (hn : n ≤ compressionChunk) :
    len + n < grownSize size len n ∨ grownSize size len n ≤ 2 * compressionChunk := by
  unfold grownSize
  split_ifs <;> omega

/-- **The blob holds the text so far, or less if an append has failed.** -/
theorem appendChunks_holding {past : Bool × Option Blob} (hk : k ≤ rounds text)
    (h : appendChunks realloc text (some (.holding [] 256)) k = some past) :
    ∃ bs size, bs.length ≤ size ∧ past.2 = some (.holding bs size)
      ∧ (past.1 = true ∧ bs = text.take (k * compressionChunk)
          ∧ (bs.length < size ∨ size ≤ 2 * compressionChunk)
        ∨ past.1 = false ∧ bs.length < min (k * compressionChunk) text.length) := by
  induction k generalizing past with
  | zero =>
    obtain rfl := Option.some.inj h
    exact ⟨[], 256, by decide, rfl, Or.inl ⟨rfl, by simp, Or.inl (by decide)⟩⟩
  | succ k ih =>
    obtain ⟨old, hold⟩ : ∃ old, appendChunks realloc text (some (.holding [] 256)) k = some old :=
      Option.ne_none_iff_exists'.mp fun hnone => by
        rw [appendChunks_none hnone (Nat.le_succ k)] at h
        cases h
    obtain ⟨bs, size, hle, hblob, hbs⟩ := ih (by omega) hold
    have hmore := lt_rounds_iff.mp (Nat.lt_of_succ_le hk)
    have hlength := length_chunkAt text k
    rw [appendChunks_succ hold, hblob] at h
    obtain ⟨⟨ret, blob⟩, happend, rfl⟩ := Option.map_eq_some_iff.mp h
    have hall : appended (some (chunkAt text k)) (chunkAt text k).length = chunkAt text k :=
      List.take_length
    have hcases := blobAppend_cases (by simp) hle happend
    rw [hall] at hcases
    rcases hcases with ⟨rfl, rfl⟩ | ⟨rfl, rfl⟩
    · refine ⟨_, _, (List.length_append ▸ le_grownSize hle), rfl, ?_⟩
      rcases hbs with ⟨htrue, rfl, -⟩ | ⟨hfalse, hlt⟩
      · refine Or.inl ⟨by simp [htrue], take_append_chunkAt text k, ?_⟩
        rw [List.length_append]
        exact grownSize_room hle (by omega)
      · refine Or.inr ⟨by simp [hfalse], ?_⟩
        rw [List.length_append, hlength, Nat.succ_mul]
        omega
    · refine ⟨bs, size, hle, rfl, Or.inr ⟨by simp [errTr50Malloc], ?_⟩⟩
      rcases hbs with ⟨-, rfl, -⟩ | ⟨-, hlt⟩
      · rw [List.length_take, Nat.succ_mul, compressionChunk] at *
        omega
      · rw [Nat.succ_mul]
        omega

/-- The rounds of the loop are those that have bytes, and one more where these fill their chunks. -/
theorem rounds_cases (text : List UInt8) : rounds text = text.length / compressionChunk + 1
    ∨ rounds text = text.length / compressionChunk
      ∧ chunkAt text (text.length / compressionChunk) = [] := by
  rw [← List.length_eq_zero_iff, length_chunkAt, rounds, compressionChunk]
  omega

/-- An empty chunk leaves the bytes of the blob as they are. -/
theorem blobAppend_nil {realloc : Bool} {bs : List UInt8} {size : ℕ} (h : bs.length ≤ size)
    {next : ℤ × Option Blob}
    (happend : blobAppend realloc (some (.holding bs size)) (some []) ([] : List UInt8).length
      = some next) : ∃ size', bs.length ≤ size' ∧ next.2 = some (.holding bs size') := by
  rcases blobAppend_cases (by simp) h happend with ⟨-, hblob⟩ | ⟨-, hblob⟩
  · rw [show appended (some []) ([] : List UInt8).length = [] from rfl, List.append_nil] at hblob
    exact ⟨_, (Nat.le_add_right _ _).trans (le_grownSize h), hblob⟩
  · exact ⟨size, h, hblob⟩

/-- …and asks at most for a small block. -/
theorem exists_blobAppend_nil (realloc : Bool) {bs : List UInt8} {size : ℕ} (h : bs.length ≤ size)
    (hroom : bs.length < size ∨ size ≤ 2 * compressionChunk) :
    ∃ next, blobAppend realloc (some (.holding bs size)) (some []) ([] : List UInt8).length
      = some next := by
  by_cases hfull : bs.length < size
  · exact ⟨_, blobAppend_small realloc (by simp) h (Nat.sub_pos_of_lt hfull)⟩
  · have hsize : grownSize size bs.length ([] : List UInt8).length < 2 ^ 31 := by
      have hle := hroom.resolve_left hfull
      rw [compressionChunk] at hle
      unfold grownSize
      rw [List.length_nil]
      split_ifs <;> omega
    have hn : size - bs.length ≤ ([] : List UInt8).length := by
      rw [List.length_nil]
      omega
    cases realloc with
    | true => exact ⟨_, blobAppend_large (by simp) h hn hsize⟩
    | false => exact ⟨_, blobAppend_refused h hn hsize⟩

/-- **The loop leaves the whole text if every chunk has found its room, and less otherwise.** -/
theorem appendChunks_last {past : Bool × Option Blob}
    (h : appendChunks realloc text (some (.holding [] 256)) (text.length / compressionChunk + 1)
      = some past) :
    ∃ all blob bs size, appendChunks realloc text (some (.holding [] 256)) (rounds text)
        = some (all, some blob)
      ∧ bs.length ≤ size ∧ past.2 = some (.holding bs size)
      ∧ (all = true ∧ bs = text ∨ all = false ∧ bs.length < text.length) := by
  have hall : text.length ≤ rounds text * compressionChunk := by
    rw [rounds, compressionChunk]
    omega
  obtain ⟨⟨all, blob⟩, hold⟩ : ∃ old, appendChunks realloc text (some (.holding [] 256))
      (rounds text) = some old := Option.ne_none_iff_exists'.mp fun hnone => by
    rw [appendChunks_none hnone (by rcases rounds_cases text with h | ⟨h, -⟩ <;> omega)] at h
    cases h
  obtain ⟨bs, size, hle, rfl, hbs⟩ := appendChunks_holding le_rfl hold
  rw [List.take_of_length_le hall, min_eq_right hall] at hbs
  have hkept : all = true ∧ bs = text ∨ all = false ∧ bs.length < text.length :=
    hbs.imp_left fun h => ⟨h.1, h.2.1⟩
  rcases rounds_cases text with hlast | ⟨hlast, hnil⟩
  · rw [← hlast, hold] at h
    obtain rfl := Option.some.inj h
    exact ⟨all, _, bs, size, hold, hle, rfl, hkept⟩
  · rw [← hlast, appendChunks_succ hold, hlast, hnil] at h
    obtain ⟨next, happend, rfl⟩ := Option.map_eq_some_iff.mp h
    obtain ⟨size', hle', hnext⟩ := blobAppend_nil hle happend
    exact ⟨all, _, bs, size', hold, hle', hnext, hkept⟩

/-- Where every chunk has found its room the last round does not overflow. -/
theorem exists_appendChunks_last {blob : Blob}
    (h : appendChunks realloc text (some (.holding [] 256)) (rounds text)
      = some (true, some blob)) :
    ∃ past, appendChunks realloc text (some (.holding [] 256))
      (text.length / compressionChunk + 1) = some past := by
  obtain ⟨bs, size, hle, hblob, hbs⟩ := appendChunks_holding le_rfl h
  obtain ⟨-, -, hroom⟩ := hbs.resolve_right fun hfalse => by cases hfalse.1
  rcases rounds_cases text with hlast | ⟨hlast, hnil⟩
  · exact ⟨_, hlast ▸ h⟩
  · have hsucc := appendChunks_succ h
    obtain ⟨next, happend⟩ :=
      exists_blobAppend_nil (realloc (text.length / compressionChunk)) hle hroom
    rw [hlast, hnil, hblob, happend] at hsucc
    exact ⟨_, hsucc⟩

end Held

/-! ## A decoder of one stream -/

/-- The compressed text of `letters`. -/
def lettersStream : List UInt8 :=
  [120, 156, 237, 193, 49, 1, 0, 0, 0, 194, 160, 172, 235, 95, 194, 24, 62, 64, 1, 0, 0, 0, 0, 0, 0,
    0, 0, 0, 0, 0, 0, 0, 0, 0, 119, 3, 29, 48, 65, 202]

/-- A chunk of letters, and one more. -/
def letters : List UInt8 := List.replicate (compressionChunk + 1) 0x61

/-- What comes out of an input that is to be `stream`, and how it ends: where nothing but bytes of
the checksum is missing, all of the text comes out of it. -/
def oneStream (stream text input : List UInt8) : StreamEnd × List UInt8 :=
  if stream <+: input then (.complete, text)
  else if input <+: stream ∧ stream.length ≤ input.length + 4 then (.truncated, text)
  else (.corrupt, [])

/-- What `inflate` returns once the rest of the text has room. -/
def StreamEnd.ret (text : List UInt8) : StreamEnd → ℤ
  | .complete => zStreamEnd
  -- `Z_BUF_ERROR` where there is nothing left to do
  | .truncated => if text = [] then zBufError else 0
  | .corrupt => zDataError

/-- A decoder of this stream, and of nothing else. -/
def oneZlib (stream text : List UInt8) : Zlib (StreamEnd × List UInt8) where
  inflateInit := oneStream stream text
  inflate strm room :=
    ⟨if strm.2.length ≤ room then strm.1.ret strm.2 else 0, strm.2.take room,
      (strm.1, strm.2.drop room)⟩

theorem streaming_oneZlib (stream text : List UInt8) :
    (oneZlib stream text).Streaming Prod.snd Prod.fst where
  out_eq _ _ := rfl
  text_next _ _ := rfl
  ending_next _ _ := rfl
  streamEnd_iff := by
    rintro ⟨ending, text⟩ room
    by_cases hroom : text.length ≤ room <;> by_cases hnil : text = [] <;> cases ending <;>
      simp [oneZlib, StreamEnd.ret, hroom, hnil, zStreamEnd, zBufError, zDataError]
  fails_iff := by
    rintro ⟨ending, text⟩ room
    by_cases hroom : text.length ≤ room <;> by_cases hnil : text = [] <;> cases ending <;>
      simp [oneZlib, StreamEnd.ret, InflateFails, hroom, hnil, zStreamEnd, zBufError, zDataError,
        zNeedDict, zMemError]

/-- The stream of the letters, and the same without the last byte of its checksum. -/
theorem oneStream_letters : oneStream lettersStream letters lettersStream = (.complete, letters)
    ∧ oneStream lettersStream letters (lettersStream.take 39) = (.truncated, letters) :=
  ⟨if_pos List.prefix_rfl, by rw [oneStream, if_neg (by decide), if_pos (by decide)]⟩

theorem length_letters : letters.length = compressionChunk + 1 := List.length_replicate

/-- Memory for everything. -/
def InflateEnv.granted : InflateEnv := ⟨true, true, true, fun _ => true⟩

theorem created_granted : InflateEnv.granted.created = some (.holding [] 256) := by
  obtain ⟨size, -, hsize, hcreate⟩ := blobCreate_holding 256
  rw [if_neg (by decide)] at hsize
  obtain rfl : size = 256 := by exact_mod_cast hsize
  change (blobCreate true true 256).bind (·.2) = _
  rw [hcreate]
  rfl

/-! ## When the result is right -/

/-- The chunk is refused, and nothing is done; or the stream is corrupt, and no append before its
error overflows; or it is complete, and every append of a chunk with bytes goes through. -/
def InflateEnv.Suffices (env : InflateEnv) (text : List UInt8) (ending : StreamEnd) : Prop :=
  env.cbuffer = false
  ∨ ending = .corrupt ∧ (appendChunks env.realloc text env.created (fullRounds text)).isSome
  ∨ ending = .complete ∧ ∃ blob,
      appendChunks env.realloc text env.created (rounds text) = some (true, some blob)

/-- With memory for everything, and less than `2 ^ 30` bytes, every chunk finds its room. -/
theorem appendChunks_granted {bytes : List UInt8} {realloc : ℕ → Bool}
    (hgrow : ∀ k, realloc k = true) (hlt : bytes.length < 2 ^ 30) {k : ℕ} (hk : k ≤ rounds bytes) :
    ∃ blob, appendChunks realloc bytes (some (.holding [] 256)) k = some (true, some blob) := by
  induction k with
  | zero => exact ⟨_, rfl⟩
  | succ k ih =>
    obtain ⟨blob, hpast⟩ := ih (by omega)
    obtain ⟨bs, size, hle, hblob, hbs⟩ := appendChunks_holding (by omega) hpast
    obtain ⟨-, rfl, -⟩ := hbs.resolve_right fun hfalse => by cases hfalse.1
    have hlength : (bytes.take (k * compressionChunk)).length + (chunkAt bytes k).length
        ≤ bytes.length := by
      rw [← List.length_append, take_append_chunkAt, List.length_take]
      exact min_le_right _ _
    rw [appendChunks_succ hpast, hblob]
    by_cases hn : (chunkAt bytes k).length < size - (bytes.take (k * compressionChunk)).length
    · exact ⟨_, by rw [blobAppend_small (realloc k) (by simp) hle hn]; rfl⟩
    · have hsize : grownSize size (bytes.take (k * compressionChunk)).length
          (chunkAt bytes k).length < 2 ^ 31 :=
        lt_of_le_of_lt (grownSize_le hle) (max_lt (by omega) (by omega))
      exact ⟨_, by rw [hgrow k, blobAppend_large (by simp) hle (not_lt.mp hn) hsize]; rfl⟩

/-- **With memory for everything only a stream that just ends is a wrong one.** -/
theorem suffices_iff_of_granted {env : InflateEnv} {bytes : List UInt8} {ending : StreamEnd}
    (hcbuffer : env.cbuffer = true) (hcreated : env.created = some (.holding [] 256))
    (hgrow : ∀ k, env.realloc k = true) (hlt : bytes.length < 2 ^ 30) :
    env.Suffices bytes ending ↔ ending ≠ .truncated := by
  have hfull : fullRounds bytes ≤ rounds bytes := by
    rw [fullRounds, rounds, compressionChunk]
    omega
  obtain ⟨blob, hfulls⟩ := appendChunks_granted hgrow hlt hfull
  obtain ⟨blob', hall⟩ := appendChunks_granted hgrow hlt le_rfl
  rw [InflateEnv.Suffices, hcreated, hfulls, hall, hcbuffer]
  cases ending <;> simp

section Right

variable {z : Zlib σ} {text : σ → List UInt8} {ending : σ → StreamEnd}

theorem compressInflate_eq (z : Zlib σ) (env : InflateEnv) (fuel : ℕ) (input : List UInt8) :
    compressInflate z env fuel input
      = if env.cbuffer = false then some (.failed errTr50Malloc)
        else inflateLoop z env.realloc fuel 0 (z.inflateInit input) env.created := by
  obtain ⟨ret, hcreate, -⟩ := created_cases env
  rw [compressInflate, hcreate]

/-- **A complete stream is right exactly where every chunk has found its room.** -/
theorem right_ofChunks_iff {env : InflateEnv} {bytes : List UInt8} {last : ℤ}
    (hlast : last = zStreamEnd) :
    (InflateReturn.ofChunks last (appendChunks env.realloc bytes env.created
        (bytes.length / compressionChunk + 1))).Right bytes .complete
      ↔ ∃ blob, appendChunks env.realloc bytes env.created (rounds bytes)
        = some (true, some blob) := by
  obtain ⟨-, -, hnull | hcreated⟩ := created_cases env
  · -- without a blob there is no text
    rw [hnull]
    obtain ⟨all, hall⟩ :=
      @appendChunks_null bytes env.realloc (bytes.length / compressionChunk + 1)
    obtain ⟨all', hall'⟩ := @appendChunks_null bytes env.realloc (rounds bytes)
    rw [hall, hall']
    simp [InflateReturn.Right, InflateReturn.ofChunks]
  rw [hcreated]
  constructor
  · rintro (⟨ret, hret, -⟩ | ⟨-, buffer, hright, -⟩)
    · generalize appendChunks _ _ _ _ = past at hret
      cases past <;> cases hret
    · cases hpast : appendChunks env.realloc bytes (some (.holding [] 256))
        (bytes.length / compressionChunk + 1) with
      | none =>
        rw [hpast] at hright
        cases hright
      | some past =>
        obtain ⟨all, blob, bs, size, hold, hle, hblob, hbs⟩ := appendChunks_last hpast
        rw [hpast] at hright
        obtain ⟨-, -, hlen⟩ := InflateReturn.inflated.inj hright
        rw [hblob] at hlen
        obtain ⟨rfl, -⟩ := hbs.resolve_right fun h => h.2.ne (Int.natCast_inj.mp hlen)
        exact ⟨blob, hold⟩
  · rintro ⟨blob, hold⟩
    obtain ⟨past, hpast⟩ := exists_appendChunks_last hold
    obtain ⟨all, blob', bs, size, hold', hle, hblob, hbs⟩ := appendChunks_last hpast
    obtain ⟨rfl, -⟩ := Prod.mk.inj (Option.some.inj (hold'.symm.trans hold))
    obtain ⟨-, rfl⟩ := hbs.resolve_right fun h => by cases h.1
    refine Or.inr ⟨rfl, Buffer.padded (some 0) bs size, ?_, (keeps_holding hle).front⟩
    rw [hpast, InflateReturn.ofChunks, Option.elim_some, hblob, hlast]
    rfl

/-- **When `_compress_inflate` can be relied on**: with a complete stream whose chunks all find
their room, with a corrupt one if no append before its error overflows — and with none that just
ends, unless there is no memory to begin with. -/
theorem compressInflate_right_iff (h : z.Streaming text ending) (env : InflateEnv)
    (input : List UInt8) {fuel : ℕ}
    (hfuel : (text (z.inflateInit input)).length / compressionChunk < fuel) :
    (∃ r, compressInflate z env fuel input = some r
        ∧ r.Right (text (z.inflateInit input)) (ending (z.inflateInit input)))
      ↔ env.Suffices (text (z.inflateInit input)) (ending (z.inflateInit input)) := by
  rw [compressInflate_eq]
  by_cases hcbuffer : env.cbuffer = false
  · rw [if_pos hcbuffer]
    exact iff_of_true ⟨_, rfl, Or.inl ⟨_, rfl, by decide⟩⟩ (Or.inl hcbuffer)
  rw [if_neg hcbuffer]
  by_cases hcorrupt : ending (z.inflateInit input) = .corrupt
  · have hfull : fullRounds (text (z.inflateInit input))
        ≤ (text (z.inflateInit input)).length / compressionChunk :=
      Nat.div_le_div_right (Nat.sub_le _ _)
    have hloop := @inflateLoop_corrupt σ z text ending h env.realloc (z.inflateInit input)
      env.created hcorrupt _ fuel 0 (true, env.created) (Nat.zero_add _) (hfull.trans_lt hfuel) rfl
    rw [Zlib.strmAt] at hloop
    rw [hloop, InflateEnv.Suffices, hcorrupt]
    cases appendChunks env.realloc (text (z.inflateInit input)) env.created
      (fullRounds (text (z.inflateInit input))) <;>
      simp [InflateReturn.Right, hcbuffer, errTr50CompressInflate]
  · have hloop := @inflateLoop_ends σ z text ending h env.realloc (z.inflateInit input)
      env.created hcorrupt _ fuel 0 (true, env.created) (Nat.zero_add _) hfuel rfl
    rw [Zlib.strmAt] at hloop
    rw [hloop, InflateEnv.Suffices]
    by_cases hcomplete : ending (z.inflateInit input) = .complete
    · have hlast := (@Zlib.Streaming.streamEnd_at σ z text ending h (z.inflateInit input) _).mpr
        ⟨hcomplete, Nat.div_le_div_right (Nat.sub_le (text (z.inflateInit input)).length 1)⟩
      rw [hcomplete] at *
      simp only [Option.some.injEq, exists_eq_left', hcbuffer, reduceCtorEq, false_and, false_or,
        true_and]
      exact right_ofChunks_iff hlast
    · refine iff_of_false ?_ (by simp [hcbuffer, hcorrupt, hcomplete])
      rintro ⟨r, hr, ⟨ret, rfl, -⟩ | ⟨hright, -⟩⟩
      · generalize appendChunks _ _ _ _ = past at hr
        cases past <;> cases Option.some.inj hr
      · exact hcomplete hright

/-- The letters, in two chunks. -/
theorem compressInflate_right_iff_letters :
    ∃ r, compressInflate (oneZlib lettersStream letters) .granted 2 lettersStream = some r
      ∧ r.Right letters .complete := by
  have hright := @compressInflate_right_iff _ (oneZlib lettersStream letters) _ _
    (streaming_oneZlib lettersStream letters) .granted lettersStream 2
  simp only [oneZlib, oneStream_letters.1, length_letters] at hright
  exact (hright (by decide)).mpr ((suffices_iff_of_granted rfl created_granted (fun _ => rfl)
    (by rw [length_letters]; decide)).mpr (by decide))

/-- Without the last byte of the stream: no error, and no `Z_STREAM_END`. -/
theorem compressInflate_truncated : ∃ out,
    compressInflate (oneZlib lettersStream letters) .granted 2 (lettersStream.take 39)
        = some (.inflated 0 (some out) 16385)
      ∧ ¬ (InflateReturn.inflated 0 (some out) 16385).Right letters .truncated := by
  have hloop := @inflateLoop_ends _ (oneZlib lettersStream letters) _ _
    (streaming_oneZlib lettersStream letters) (fun _ => true) (.truncated, letters)
    (some (.holding [] 256)) (by decide) 1 2 0 (true, some (.holding [] 256))
    (by rw [length_letters]; decide) (by decide) rfl
  obtain ⟨blob, hpast⟩ := @appendChunks_granted letters (fun _ => true) (fun _ => rfl)
    (by rw [length_letters]; decide) _ le_rfl
  obtain ⟨past, hlast⟩ := exists_appendChunks_last hpast
  obtain ⟨all, blob', bs, size, hpast', -, hblob, hbs⟩ := appendChunks_last hlast
  obtain ⟨rfl, -⟩ := Prod.mk.inj (Option.some.inj (hpast'.symm.trans hpast))
  obtain ⟨-, rfl⟩ := hbs.resolve_right fun hfalse => by cases hfalse.1
  refine ⟨Buffer.padded (some 0) letters size, ?_, by simp [InflateReturn.Right]⟩
  rw [compressInflate_eq, created_granted, if_neg (by decide)]
  change inflateLoop _ _ 2 0 (oneStream lettersStream letters (lettersStream.take 39)) _ = _
  rw [oneStream_letters.2]
  refine hloop.trans ?_
  -- the second chunk is the last letter
  have hret : ((oneZlib lettersStream letters).inflate ((oneZlib lettersStream letters).strmAt
      (.truncated, letters) (letters.length / compressionChunk)) compressionChunk).ret = 0 := by
    rw [length_letters]
    have hone : (compressionChunk + 1) / compressionChunk = 1 := by decide
    have hdrop : letters.drop compressionChunk = [0x61] := by
      rw [letters, List.drop_replicate, Nat.add_sub_cancel_left]
      rfl
    simp only [hone, Zlib.strmAt, oneZlib, hdrop]
    rfl
  rw [hret, hlast, InflateReturn.ofChunks, Option.elim_some, hblob]
  simp only [Option.map_some, blobGetLength, Blob.holding, length_letters]
  rfl

end Right

end Tr50
