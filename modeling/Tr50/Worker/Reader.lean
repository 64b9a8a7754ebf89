import Tr50.Worker.Http

/-!
# Worker/Reader — what the readers store and write

`tr50_helper_reader` takes as many bytes off the stream as it is told, in whatever pieces they come
(`tr50HelperReader_reads`).

`tr50_helper_chunked_reader` collects the line of a chunk's size in `chunk_stream`, and the data
behind it there too.  The data are read a bufferful at a time; the line is as long as the peer makes
it (`chunkStream_stores_iff`).
-/

namespace Tr50

open Machinery

/-! ## `tr50_helper_reader` -/

/-- Bytes arrive. -/
def TcpRecv.isPiece : TcpRecv → Bool
  | piece _ => true
  | failed _ _ => false

/-- `k` bytes have gone from the stream to the file, in so many pieces. -/
def Transfer.took (t : Transfer) (k pieces : ℕ) : Transfer :=
  { t with
    stream := t.stream.drop k
    received := t.received ++ t.stream.take k
    file := t.file ++ t.stream.take k
    writes := t.writes + pieces }

/-- **What the pieces bring**, `k` bytes in all, when `n` bytes are to be read, 1024 at a time at
most, and `left` are on the stream.  There is none behind the last of these bytes. -/
inductive Delivers : (n left : ℕ) → (past : List TcpRecv) → (k : ℕ) → Prop
  | nil (n left : ℕ) : Delivers n left [] 0
  | cons {n left k : ℕ} {past : List TcpRecv} (m : ℕ) (hn : 0 < n) (hleft : 0 < left)
      (h : Delivers (n - pieceLen m (min n 1024) left) (left - pieceLen m (min n 1024) left)
        past k) :
      Delivers n left (.piece m :: past) (pieceLen m (min n 1024) left + k)

/-- How a read of `n` bytes ends: with the first `n` of the stream, once the pieces have brought
these, or at the first receive that fails, with those before it. -/
inductive Reads (n : ℕ) (script : List TcpRecv) (t : Transfer) :
    (ret : ℤ) → (t' : Transfer) → (rest : List TcpRecv) → Prop
  | whole {past rest : List TcpRecv} (hscript : script = past ++ rest)
      (hpast : Delivers n t.stream.length past n) :
      Reads n script t 0 (t.took n past.length) rest
  | failed {past rest : List TcpRecv} {k : ℕ} {e : ℤ} {he : e < 0}
      (hscript : script = past ++ .failed e he :: rest)
      (hpast : Delivers n t.stream.length past k) (hk : k < n) :
      Reads n script t e { t.took k past.length with failed := true } rest
  /-- The stream is at its end… -/
  | shutdown {past rest : List TcpRecv} {m : ℕ} (hscript : script = past ++ .piece m :: rest)
      (hpast : Delivers n t.stream.length past t.stream.length) (hk : t.stream.length < n) :
      Reads n script t errTr50SockShutdown
        { t.took t.stream.length past.length with failed := true } rest
  /-- …or the receives are. -/
  | ended {k : ℕ} (hpast : Delivers n t.stream.length script k) (hk : k < n) :
      Reads n script t errTr50SockShutdown { t.took k script.length with failed := true } []

section Reads

variable {n : ℕ} {script : List TcpRecv} {t : Transfer}

@[simp] theorem took_zero (t : Transfer) : t.took 0 0 = t := by simp [Transfer.took]

theorem took_took (t : Transfer) (k l pieces pieces' : ℕ) :
    (t.took k pieces).took l pieces' = t.took (k + l) (pieces + pieces') := by
  simp [Transfer.took, List.take_add, add_assoc]

theorem length_took (t : Transfer) (k pieces : ℕ) :
    (t.took k pieces).stream.length = t.stream.length - k := by
  simp [Transfer.took]

theorem Delivers.le {n left k : ℕ} {past : List TcpRecv} (h : Delivers n left past k) :
    k ≤ n ∧ k ≤ left := by
  induction h with
  | nil => exact ⟨Nat.zero_le _, Nat.zero_le _⟩
  | @cons n left k past m hn hleft _ ih =>
    have hlen : pieceLen m (min n 1024) left ≤ n ∧ pieceLen m (min n 1024) left ≤ left := by
      rw [pieceLen]
      omega
    omega

/-- Every piece brings something. -/
theorem Delivers.length_le {n left k : ℕ} {past : List TcpRecv} (h : Delivers n left past k) :
    past.length ≤ k := by
  induction h with
  | nil => exact le_rfl
  | @cons n left k past m hn hleft _ ih =>
    have hlen : 0 < pieceLen m (min n 1024) left := by
      rw [pieceLen]
      omega
    rw [List.length_cons]
    omega

theorem Delivers.isPiece {n left k : ℕ} {past : List TcpRecv} (h : Delivers n left past k) :
    ∀ ev ∈ past, ev.isPiece := by
  induction h with
  | nil => simp
  | cons m _ _ _ ih => exact List.forall_mem_cons.mpr ⟨rfl, ih⟩

/-- A piece, and the read of the rest. -/
theorem Reads.cons {m len : ℕ} {ret : ℤ} {t' : Transfer} {rest : List TcpRecv} (hn : 0 < n)
    (hleft : 0 < t.stream.length) (hlen : pieceLen m (min n 1024) t.stream.length = len)
    (h : Reads (n - len) script (t.took len 1) ret t' rest) :
    Reads n (.piece m :: script) t ret t' rest := by
  have hle : len ≤ n ∧ len ≤ t.stream.length := by
    rw [pieceLen] at hlen
    omega
  have hpiece : ∀ {past : List TcpRecv} {k : ℕ},
      Delivers (n - len) (t.took len 1).stream.length past k →
        Delivers n t.stream.length (.piece m :: past) (len + k) := fun hpast => by
    rw [length_took] at hpast
    subst hlen
    exact .cons m hn hleft hpast
  cases h with
  | @whole past rest hscript hpast =>
    have hwhole : Reads n (.piece m :: script) t 0
        (t.took n (TcpRecv.piece m :: past).length) rest :=
      .whole (by rw [hscript]; rfl) (by simpa only [Nat.add_sub_cancel' hle.1] using hpiece hpast)
    rwa [took_took, Nat.add_sub_cancel' hle.1, Nat.add_comm 1]
  | @failed past rest k _ he hscript hpast hk =>
    have hfailed : Reads n (.piece m :: script) t ret
        { t.took (len + k) (TcpRecv.piece m :: past).length with failed := true } rest :=
      .failed (by rw [hscript]; rfl) (hpiece hpast) (by omega)
    rwa [took_took, Nat.add_comm 1]
  | @shutdown past rest m' hscript hpast hk =>
    rw [length_took] at hk
    have hshutdown : Reads n (.piece m :: script) t errTr50SockShutdown
        { t.took t.stream.length (TcpRecv.piece m :: past).length with failed := true } rest :=
      .shutdown (by rw [hscript]; rfl)
        (by simpa only [length_took, Nat.add_sub_cancel' hle.2] using hpiece hpast) (by omega)
    rwa [took_took, length_took, Nat.add_sub_cancel' hle.2, Nat.add_comm 1]
  | @ended k hpast hk =>
    have hended : Reads n (.piece m :: script) t errTr50SockShutdown
        { t.took (len + k) (TcpRecv.piece m :: script).length with failed := true } [] :=
      .ended (hpiece hpast) (by omega)
    rwa [took_took, Nat.add_comm 1]

/-- A read of nothing leaves everything as it is… -/
theorem Reads.nothing (script : List TcpRecv) (t : Transfer) : Reads 0 script t 0 t script := by
  have hwhole : Reads 0 script t 0 (t.took 0 0) script :=
    .whole (List.nil_append _).symm (.nil _ _)
  rwa [took_zero] at hwhole

/-- …and so does one that ends at once: no receive is left… -/
theorem Reads.ended_nil (hn : 0 < n) (t : Transfer) :
    Reads n [] t errTr50SockShutdown { t with failed := true } [] := by
  have hended : Reads n [] t errTr50SockShutdown { t.took 0 0 with failed := true } [] :=
    .ended (.nil _ _) hn
  rwa [took_zero] at hended

/-- …or the first one fails… -/
theorem Reads.failed_cons (hn : 0 < n) {e : ℤ} (he : e < 0) :
    Reads n (.failed e he :: script) t e { t with failed := true } script := by
  have hfailed : Reads n (.failed e he :: script) t e { t.took 0 0 with failed := true } script :=
    .failed (List.nil_append _).symm (.nil _ _) hn
  rwa [took_zero] at hfailed

/-- …or there is nothing left of the stream. -/
theorem Reads.shutdown_cons (hn : 0 < n) (m : ℕ) (hnil : t.stream.length = 0) :
    Reads n (.piece m :: script) t errTr50SockShutdown { t with failed := true } script := by
  have hshutdown : Reads n (.piece m :: script) t errTr50SockShutdown
      { t.took t.stream.length 0 with failed := true } script :=
    .shutdown (List.nil_append _).symm (by rw [hnil]; exact .nil _ _) (by omega)
  rwa [hnil, took_zero] at hshutdown

/-- **Enough bytes in enough pieces are read to the end.** -/
theorem Reads.ret_eq_zero {ret : ℤ} {t' : Transfer} {rest : List TcpRecv}
    (h : Reads n script t ret t' rest) (hleft : n ≤ t.stream.length)
    (hpieces : n ≤ (script.takeWhile TcpRecv.isPiece).length) : ret = 0 := by
  cases h with
  | whole => rfl
  | @failed past rest k _ he hscript hpast hk =>
    have hlength := hpast.length_le
    rw [hscript, List.takeWhile_append_of_pos hpast.isPiece,
      List.takeWhile_cons_of_neg (by simp [TcpRecv.isPiece]), List.append_nil] at hpieces
    omega
  | shutdown => omega
  | @ended k hpast hk =>
    have hlength := hpast.length_le
    have hle := (List.takeWhile_prefix (l := script) TcpRecv.isPiece).length_le
    omega

/-- What `tr50_helper_reader` makes of its data. -/
def DataEnd.ret : DataEnd → ℤ
  | done => 0
  | recvFailed e => e
  | writeFailed => errTr50FileWriteFailed

/-- **The loop writes what it reads**, as long as every write succeeds. -/
theorem reads_readData (n : ℕ) (script : List TcpRecv) (t : Transfer) :
    (readData (fun _ => true) script t n).outcome ≠ .writeFailed
      ∧ Reads n script t (readData (fun _ => true) script t n).outcome.ret
        (readData (fun _ => true) script t n).transfer
        (readData (fun _ => true) script t n).script := by
  induction script generalizing t n with
  | nil =>
    cases n with
    | zero =>
      rw [readData_zero]
      exact ⟨by simp, .nothing [] t⟩
    | succ n =>
      rw [readData]
      exact ⟨by simp, .ended_nil (Nat.succ_pos n) t⟩
  | cons ev script ih =>
    cases n with
    | zero =>
      rw [readData_zero]
      exact ⟨by simp, .nothing (ev :: script) t⟩
    | succ n =>
      cases ev with
      | failed e he =>
        rw [readData, Transfer.recv]
        exact ⟨by simp, .failed_cons (Nat.succ_pos n) he⟩
      | piece m =>
        rw [readData, Transfer.recv]
        by_cases hlen : pieceLen m (min (n + 1) 1024) t.stream.length = 0
        · have hnil : t.stream.length = 0 := by
            rw [pieceLen] at hlen
            omega
          simp only [if_pos hlen]
          exact ⟨by simp, .shutdown_cons (Nat.succ_pos n) _ hnil⟩
        · have hleft : 0 < t.stream.length
              ∧ pieceLen m (min (n + 1) 1024) t.stream.length ≤ t.stream.length := by
            rw [pieceLen] at hlen ⊢
            omega
          simp only [if_neg hlen, if_true]
          rw [List.length_take_of_le hleft.2]
          generalize hpiece : pieceLen m (min (n + 1) 1024) t.stream.length = len
          obtain ⟨hwritten, hreads⟩ := ih (n + 1 - len) (t.took len 1)
          exact ⟨hwritten, .cons (Nat.succ_pos n) hleft.1 hpiece hreads⟩

end Reads

/-- **A reader takes `filesize` bytes and writes them**, as they come, and returns `0`; or it takes
and writes those that come before a receive fails, and returns the error. -/
theorem tr50HelperReader_reads (script : List TcpRecv) (t : Transfer) {filesize : ℤ}
    (hpos : 0 < filesize) : ∃ ret t' rest,
      tr50HelperReader (fun _ => true) script t filesize = .returned ret t' rest
        ∧ Reads filesize.toNat script t ret t' rest
        ∧ (filesize.toNat ≤ t.stream.length →
          filesize.toNat ≤ (script.takeWhile TcpRecv.isPiece).length → ret = 0) := by
  obtain ⟨hwritten, hreads⟩ := reads_readData filesize.toNat script t
  rw [tr50HelperReader, if_neg hpos.ne']
  generalize readData (fun _ => true) script t filesize.toNat = r at hwritten hreads ⊢
  obtain ⟨outcome, t', rest⟩ := r
  refine ⟨_, t', rest, ?_, hreads, hreads.ret_eq_zero⟩
  cases outcome with
  | done => rfl
  | recvFailed e => rfl
  | writeFailed => exact absurd rfl hwritten

theorem tr50HelperReader_reads_pieces : ∃ t' rest,
    tr50HelperReader (fun _ => true) [.piece 2, .piece 9, .piece 1] (.start [1, 2, 3, 4]) 3
        = .returned 0 t' rest
      ∧ Reads 3 [.piece 2, .piece 9, .piece 1] (.start [1, 2, 3, 4]) 0 t' rest := by
  have hreads := tr50HelperReader_reads [.piece 2, .piece 9, .piece 1] (.start [1, 2, 3, 4])
    (show (0 : ℤ) < 3 by decide)
  obtain ⟨ret, t', rest, hrun, hreads, hzero⟩ := hreads
  obtain rfl := hzero (by decide) (by decide)
  exact ⟨t', rest, hrun, hreads⟩

/-! ## `chunk_stream` -/

/-- How `tr50_helper_chunked_reader` fares with its buffer. -/
inductive ChunkStreamRun
  | storesOutside
  | readsOutside
  | returned (ret : ℤ) (t : Transfer) (script : List TcpRecv)

/-- The line of a chunk's size in its buffer; `ret` is that of the last receive. -/
structure SizeLine where
  ret : ℤ
  chunkStream : Buffer
  transfer : Transfer
  script : List TcpRecv

/-- The loop of `tr50_helper_chunked_reader` over the line, with the bytes it stores; `none` if one
goes outside the buffer. -/
def readSizeLine : List TcpRecv → Transfer → (termchr : ℕ) → (chunkIndex : ℤ) → Buffer →
    Option SizeLine
  | [], t, _, _, chunkStream =>
    some ⟨errTr50SockShutdown, chunkStream, { t with failed := true }, []⟩
  | ev :: script, t, termchr, chunkIndex, chunkStream =>
    match t.recv 1 ev with
    | (.error e, t) => some ⟨e, chunkStream, t, script⟩
    | (.ok data, t) =>
      let buffer := deref data
      (chunkStream.store chunkIndex buffer).bind fun chunkStream =>
        if isLineEnd buffer then
          if termchr + 1 = 2 then some ⟨0, chunkStream, t, script⟩
          else readSizeLine script t (termchr + 1) (chunkIndex + 1) chunkStream
        else readSizeLine script t 0 (chunkIndex + 1) chunkStream

/-- `strtol` of the buffer, cut to an `int`; `none` if it runs past the end. -/
def chunkStreamSize (chunkStream : Buffer) : Option ℤ :=
  if (strtol16 chunkStream.written).2 = [] then none
  else some (toInt32 (strtol16 chunkStream.written).1)

/-- The loop over the data, each piece stored in the buffer and written from there. -/
def readChunkData (fwrite : ℕ → Bool) : List TcpRecv → Transfer → (length : ℕ) → Buffer →
    Option DataRead
  | script, t, 0, _ => some ⟨.done, t, script⟩
  | [], t, _ + 1, _ => some ⟨.recvFailed errTr50SockShutdown, { t with failed := true }, []⟩
  | ev :: script, t, length + 1, chunkStream =>
    match t.recv (min (length + 1) 1024) ev with
    | (.error e, t) => some ⟨.recvFailed e, t, script⟩
    | (.ok data, t) =>
      (chunkStream.memcpy 0 data).bind fun chunkStream =>
        if fwrite t.writes then
          readChunkData fwrite script
            { t with
              file := t.file ++ chunkStream.written.take data.length
              writes := t.writes + 1 }
            (length + 1 - data.length) chunkStream
        else some ⟨.writeFailed, { t with writes := t.writes + 1 }, script⟩

/-- `tr50_helper_chunked_reader`, with the stores it makes. -/
def chunkStreamRun (fwrite : ℕ → Bool) (script : List TcpRecv) (t : Transfer) : ChunkStreamRun :=
  match readSizeLine script t 0 0 (.padded (some 0) [] readSize) with
  | none => .storesOutside
  | some line =>
    match chunkStreamSize line.chunkStream with
    | none => .readsOutside
    | some size =>
      if size = 0 then .returned (-1) line.transfer line.script
      else if size < 0 then .returned line.ret line.transfer line.script
      else
        match readChunkData fwrite line.script line.transfer size.toNat line.chunkStream with
        | none => .storesOutside
        | some r =>
          match r.outcome with
          | .done => .returned 0 r.transfer r.script
          | .recvFailed e => .returned e r.transfer r.script
          | .writeFailed => .returned errTr50FileWriteFailed r.transfer r.script

/-- What arrives before the first receive that fails, if the bytes are taken one by one. -/
def arrived (script : List TcpRecv) (stream : List UInt8) : List UInt8 :=
  stream.take (script.takeWhile TcpRecv.isPiece).length

/-- What has arrived begins with a line, or is one as far as it goes, that fits into the buffer. -/
def SizeLineFits (script : List TcpRecv) (stream : List UInt8) : Prop :=
  match cutLine 2 0 (arrived script stream) with
  | some (line, _) => line.length ≤ readSize
  | none => (arrived script stream).length ≤ readSize

/-! ## The line -/

section Line

variable {script : List TcpRecv} {t : Transfer} {termchr : ℕ} {header : List UInt8}

/-- A header as it stands in the buffer, if it fits. -/
def HeaderRead.stored (r : HeaderRead) : Option SizeLine :=
  if r.header.length ≤ readSize then
    some ⟨r.ret, .padded (some 0) r.header readSize, r.transfer, r.script⟩
  else none

/-- A header that has outgrown the buffer stays so. -/
theorem stored_readHeader (h : readSize < header.length) :
    (readHeader 2 script t termchr header).stored = none := by
  obtain ⟨taken, htaken, -⟩ := readHeader_spec 2 script t termchr header
  rw [HeaderRead.stored, if_neg]
  rw [htaken, List.length_append]
  omega

/-- **The line as it is stored**: what the loop of the header takes, if it fits. -/
theorem readSizeLine_eq (hlength : header.length ≤ readSize) :
    readSizeLine script t termchr header.length (.padded (some 0) header readSize)
      = (readHeader 2 script t termchr header).stored := by
  induction script generalizing t termchr header with
  | nil => rw [readSizeLine, readHeader, HeaderRead.stored, if_pos hlength]
  | cons ev script ih =>
    rw [readSizeLine, readHeader]
    cases t.recv 1 ev with
    | mk got t' =>
      cases got with
      | error e => exact (if_pos hlength).symm
      | ok data =>
        dsimp only
        have hgrown : (header ++ [deref data]).length = header.length + 1 := by simp
        by_cases hroom : header.length < readSize
        · have hlength' : (header ++ [deref data]).length ≤ readSize := by omega
          have hnext : (header.length : ℤ) + 1 = (header ++ [deref data]).length := by
            rw [hgrown]
            rfl
          rw [Buffer.padded_store hroom, Option.bind_some, hnext]
          by_cases hc : isLineEnd (deref data)
          · by_cases hends : termchr + 1 = 2
            · rw [if_pos hc, if_pos hends, if_pos hc, if_pos hends, HeaderRead.stored,
                if_pos hlength']
            · rw [if_pos hc, if_neg hends, if_pos hc, if_neg hends]
              exact ih hlength'
          · rw [if_neg hc, if_neg hc]
            exact ih hlength'
        · -- the byte would be stored behind the end
          have hfull : readSize < (header ++ [deref data]).length := by omega
          have hstore : (Buffer.padded (some 0) header readSize).store header.length (deref data)
              = none := by
            rw [Buffer.store, if_neg]
            rw [Buffer.length_padded hlength]
            omega
          rw [hstore, Option.bind_none]
          split_ifs
          · rw [HeaderRead.stored, if_neg (not_le.mpr hfull)]
          · exact (stored_readHeader hfull).symm
          · exact (stored_readHeader hfull).symm

/-- A receive of one byte takes the next one. -/
theorem recv_one (n : ℕ) {c : UInt8} {stream : List UInt8} (h : t.stream = c :: stream) :
    t.recv 1 (.piece n) = (.ok [c], { t with stream, received := t.received ++ [c] }) := by
  have hlen : pieceLen n 1 t.stream.length = 1 := by
    rw [pieceLen, h, List.length_cons]
    omega
  rw [Transfer.recv]
  simp only [hlen, one_ne_zero, if_false]
  rw [h]
  rfl

/-- **The line is what arrives up to its end.** -/
theorem readHeader_arrived (ends : ℕ) :
    (readHeader ends script t termchr header).header
      = header ++ ((cutLine ends termchr (arrived script t.stream)).map Prod.fst).getD
          (arrived script t.stream) := by
  induction script generalizing t termchr header with
  | nil => simp [readHeader, arrived, cutLine]
  | cons ev script ih =>
    cases ev with
    | failed e he => simp [readHeader, Transfer.recv, arrived, cutLine, TcpRecv.isPiece]
    | piece n =>
      cases hstream : t.stream with
      | nil =>
        have hlen : pieceLen n 1 0 = 0 := by
          rw [pieceLen]
          omega
        simp [readHeader, Transfer.recv, hstream, hlen, arrived, cutLine]
      | cons c stream =>
        have harrived : arrived (.piece n :: script) (c :: stream)
            = c :: arrived script stream := by
          rw [arrived, List.takeWhile_cons_of_pos rfl]
          rfl
        rw [readHeader_step (recv_one n hstream), harrived, cutLine]
        split_ifs with hc hends
        · rfl
        · rw [ih]
          cases cutLine ends (termchr + 1) (arrived script stream) <;> simp
        · rw [ih]
          cases cutLine ends 0 (arrived script stream) <;> simp

theorem sizeLineFits_iff :
    SizeLineFits script t.stream ↔ (chunkHeader script t).header.length ≤ readSize := by
  rw [SizeLineFits, chunkHeader, readHeader_arrived, List.nil_append]
  cases cutLine 2 0 (arrived script t.stream) <;> rfl

end Line

/-! ## The size -/

section Zeros

variable {s : List UInt8} {k : ℕ}

theorem takeWhile_zeros {p : UInt8 → Bool} (hp : p 0 = false) :
    (s ++ List.replicate k 0).takeWhile p = s.takeWhile p := by
  induction s with
  | nil => cases k <;> simp [List.replicate_succ, hp]
  | cons c s ih =>
    rw [List.cons_append, List.takeWhile_cons, List.takeWhile_cons, ih]

theorem dropWhile_zeros {p : UInt8 → Bool} (hp : p 0 = false) :
    (s ++ List.replicate k 0).dropWhile p = s.dropWhile p ++ List.replicate k 0 := by
  induction s with
  | nil => cases k <;> simp [List.replicate_succ, hp]
  | cons c s ih =>
    rw [List.cons_append, List.dropWhile_cons, List.dropWhile_cons, ih]
    split_ifs <;> rfl

theorem deref_zeros : deref (s ++ List.replicate k 0) = deref s := by
  cases s with
  | nil => cases k <;> rfl
  | cons c s => rfl

/-- A character other than the terminator is one of the text. -/
theorem tail_zeros (h : deref s ≠ 0) :
    (s ++ List.replicate k 0).tail = s.tail ++ List.replicate k 0 := by
  cases s with
  | nil => exact absurd rfl h
  | cons c s => rfl

theorem hasPrefix_zeros (c d : Char) (hc : ch c ≠ 0) (hd : ch d ≠ 0) :
    hasPrefix [c, d] (s ++ List.replicate k 0) = hasPrefix [c, d] s := by
  match s with
  | [] => cases k <;> simp [hasPrefix, cstring, List.isPrefixOf, List.replicate_succ, hc]
  | [a] => cases k <;> simp [hasPrefix, cstring, List.isPrefixOf, List.replicate_succ, hd]
  | a :: b :: s => simp [hasPrefix, cstring, List.isPrefixOf]

theorem drop_two_zeros {c d : Char} (h : hasPrefix [c, d] s) :
    (s ++ List.replicate k 0).drop 2 = s.drop 2 ++ List.replicate k 0 := by
  obtain ⟨rest, rfl⟩ := List.isPrefixOf_iff_prefix.mp h
  rfl

/-- **A number reads the same in front of terminators.** -/
theorem strtol16_zeros : strtol16 (s ++ List.replicate k 0)
    = ((strtol16 s).1, (strtol16 s).2 ++ List.replicate k 0) := by
  simp only [strtol16]
  rw [dropWhile_zeros (by decide), deref_zeros]
  generalize s.dropWhile _ = s
  have hsign : (if deref s = ch '-' ∨ deref s = ch '+' then (s ++ List.replicate k 0).tail
      else s ++ List.replicate k 0)
      = (if deref s = ch '-' ∨ deref s = ch '+' then s.tail else s) ++ List.replicate k 0 := by
    split_ifs with h
    · exact tail_zeros (by rcases h with h | h <;> rw [h] <;> decide)
    · rfl
  rw [hsign]
  generalize deref s = c
  generalize (if c = ch '-' ∨ c = ch '+' then s.tail else s) = s
  rw [hasPrefix_zeros _ _ (by decide) (by decide), hasPrefix_zeros _ _ (by decide) (by decide)]
  have hdrop : (if hasPrefix ['0', 'x'] s ∨ hasPrefix ['0', 'X'] s then
      (s ++ List.replicate k 0).drop 2 else s ++ List.replicate k 0)
      = (if hasPrefix ['0', 'x'] s ∨ hasPrefix ['0', 'X'] s then s.drop 2 else s)
        ++ List.replicate k 0 := by
    split_ifs with h
    · exact h.elim drop_two_zeros drop_two_zeros
    · rfl
  rw [hdrop, takeWhile_zeros rfl, dropWhile_zeros rfl]

end Zeros

theorem written_padded (bs : List UInt8) (n : ℕ) :
    (Buffer.padded (some 0) bs n).written = bs ++ List.replicate (n - bs.length) 0 := by
  have h := Buffer.written_append (List.replicate (n - bs.length) 0) []
  rw [List.append_nil, List.map_replicate] at h
  rw [Buffer.padded, Buffer.written_append, h]
  exact congrArg (bs ++ ·) (List.append_nil _)

/-- The size is that of the line, as far as its reading stays inside the buffer. -/
theorem chunkStreamSize_eq {header : List UInt8} (h : header.length ≤ readSize) :
    chunkStreamSize (.padded (some 0) header readSize) = chunkSize header := by
  rw [chunkStreamSize, written_padded, strtol16_zeros, chunkSize]
  refine if_congr ?_ rfl rfl
  rw [List.append_eq_nil_iff, List.replicate_eq_nil_iff]
  constructor
  · rintro ⟨hnil, hzero⟩
    exact Or.inr ⟨by omega, hnil⟩
  · rintro (hlt | ⟨hfull, hnil⟩)
    · omega
    · exact ⟨hnil, by omega⟩

/-! ## The data -/

/-- **The data go through the buffer**: no piece is longer than it. -/
theorem readChunkData_eq (fwrite : ℕ → Bool) (script : List TcpRecv) (t : Transfer) (length : ℕ)
    {chunkStream : Buffer} (h : chunkStream.length = readSize) :
    readChunkData fwrite script t length chunkStream = some (readData fwrite script t length) := by
  induction script generalizing t length chunkStream with
  | nil => cases length <;> rfl
  | cons ev script ih =>
    cases length with
    | zero => rfl
    | succ length =>
      rw [readChunkData, readData]
      cases hrecv : t.recv (min (length + 1) 1024) ev with
      | mk got t' =>
        cases got with
        | error e => rfl
        | ok data =>
          obtain ⟨-, -, -, -, -, hle⟩ := recv_ok hrecv
          have hsplit := List.take_append_drop data.length chunkStream
          have hmid : (chunkStream.take data.length).length = data.length :=
            List.length_take_of_le (by rw [h, readSize]; omega)
          have hcopy := @Buffer.memcpy_over data [] _ (chunkStream.drop data.length) hmid
          rw [List.nil_append, List.nil_append, hsplit] at hcopy
          have hcopied : (data.map some ++ chunkStream.drop data.length).length = readSize := by
            rw [List.length_append, List.length_map, List.length_drop, h, readSize]
            omega
          dsimp only
          rw [List.length_nil, Nat.cast_zero] at hcopy
          rw [hcopy, Option.bind_some, Buffer.written_append, List.take_left]
          split_ifs
          · exact ih _ _ hcopied
          · rfl

/-- **The buffer makes no other difference** than that its ends are met. -/
theorem chunkStreamRun_eq (fwrite : ℕ → Bool) (script : List TcpRecv) (t : Transfer) :
    chunkStreamRun fwrite script t
      = if (chunkHeader script t).header.length ≤ readSize then
          match tr50HelperChunkedReader fwrite script t with
          | .fault => .readsOutside
          | .returned ret t script => .returned ret t script
        else .storesOutside := by
  have hline := @readSizeLine_eq script t 0 [] (Nat.zero_le readSize)
  rw [List.length_nil, Nat.cast_zero] at hline
  change readSizeLine script t 0 0 _ = (chunkHeader script t).stored at hline
  rw [chunkStreamRun, hline, HeaderRead.stored]
  split_ifs with h
  · dsimp only
    rw [chunkStreamSize_eq h, tr50HelperChunkedReader]
    cases chunkSize (chunkHeader script t).header with
    | none => rfl
    | some size =>
      dsimp only
      rw [readChunkData_eq _ _ _ _ (Buffer.length_padded h), chunkData]
      split_ifs
      · rfl
      · rfl
      · generalize readData fwrite _ _ _ = r
        obtain ⟨outcome, t', rest⟩ := r
        cases outcome <;> rfl
  · rfl

/-- **Every store stays inside `chunk_stream` exactly where the line of the chunk's size fits.** -/
theorem chunkStream_stores_iff (fwrite : ℕ → Bool) (script : List TcpRecv) (t : Transfer) :
    chunkStreamRun fwrite script t ≠ .storesOutside ↔ SizeLineFits script t.stream := by
  rw [sizeLineFits_iff, chunkStreamRun_eq]
  split_ifs with h
  · refine iff_of_true ?_ h
    cases tr50HelperChunkedReader fwrite script t <;> simp
  · exact iff_of_false (by simp) h

/-- A line that does not end is collected behind the buffer. -/
theorem not_chunkStream_stores :
    ¬ ∀ (script : List TcpRecv) (t : Transfer),
      chunkStreamRun (fun _ => true) script t ≠ .storesOutside := by
  intro h
  have hnone : ∀ (n seen : ℕ), cutLine 2 seen (List.replicate n 48) = none := by
    intro n
    induction n with
    | zero => exact fun _ => rfl
    | succ n ih =>
      intro seen
      rw [List.replicate_succ, cutLine, if_neg (by decide), ih]
      rfl
  refine h (List.replicate 1025 (.piece 1)) (.start (List.replicate 1025 48)) ?_
  have hpieces : (List.replicate 1025 (TcpRecv.piece 1)).takeWhile TcpRecv.isPiece
      = List.replicate 1025 (TcpRecv.piece 1) :=
    List.takeWhile_eq_self_iff.mpr fun ev hev => by rw [List.eq_of_mem_replicate hev]; rfl
  have harrived : arrived (List.replicate 1025 (.piece 1)) (List.replicate 1025 48)
      = List.replicate 1025 48 := by
    rw [arrived, hpieces, List.length_replicate, List.take_replicate, min_self]
  rw [chunkStreamRun_eq, if_neg]
  rw [← sizeLineFits_iff, SizeLineFits, Transfer.start, harrived, hnone]
  change ¬ (List.replicate 1025 (48 : UInt8)).length ≤ readSize
  rw [List.length_replicate]
  decide

end Tr50
