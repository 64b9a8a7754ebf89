import Tr50.Machinery.Chunked
import Tr50.Util.Json
import Tr50.Util.Memory
import Tr50.Util.Tcp

/-!
# Worker/Http — reading a response

The helpers of `tr50.worker.extended.c` that read a response off its socket into a file.  A
connection is the bytes that still come (`Transfer.stream`) and what its `_tcp_recv` calls amount to
in order; where either is at its end, the connection is shut down.

`received` and `failed` record what has happened; no step reads them.
-/

namespace Tr50

open Machinery

/-! ## Numbers and text -/

def errTr50FilePutHttp : ℤ := -20008
def errTr50FileWriteFailed : ℤ := -7058
def errTr50LocalFileNotfound : ℤ := -18025

/-- `strtol(s, NULL, 16)`, and the text from where it has stopped reading. -/
def strtol16 (s : List UInt8) : ℤ × List UInt8 :=
  let s := s.dropWhile fun c => c = 32 ∨ (9 ≤ c ∧ c ≤ 13)
  let negative := deref s = ch '-'
  let s := if negative ∨ deref s = ch '+' then s.tail else s
  let s := if hasPrefix ['0', 'x'] s ∨ hasPrefix ['0', 'X'] s then s.drop 2 else s
  let n := hexNat (s.takeWhile isHex)
  (max (-2 ^ 63) (min (2 ^ 63 - 1) (if negative then -(n : ℤ) else n)), s.dropWhile isHex)

/-- `strstr` -/
def strstr (s needle : List UInt8) : Option (List UInt8) := s.tails.find? (needle.isPrefixOf ·)

/-! ## Receiving -/

/-- A transfer under way, with the file it goes to. -/
structure Transfer where
  stream : List UInt8
  received : List UInt8
  failed : Bool
  file : List UInt8
  /-- The `fwrite` calls so far. -/
  writes : ℕ
  closed : Bool
deriving DecidableEq, Repr

namespace Transfer

def start (stream : List UInt8) : Transfer := ⟨stream, [], false, [], 0, false⟩

/-- `_tcp_recv` of at most `length` bytes. -/
def recv (t : Transfer) (length : ℕ) : TcpRecv → Except ℤ (List UInt8) × Transfer
  | .failed e _ => (.error e, { t with failed := true })
  | .piece n =>
    let len := pieceLen n length t.stream.length
    if len = 0 then (.error errTr50SockShutdown, { t with failed := true })
    else (.ok (t.stream.take len), { t with
      stream := t.stream.drop len
      received := t.received ++ t.stream.take len })

end Transfer

/-- A header as far as it has come; `ret` is that of the last receive. -/
structure HeaderRead where
  ret : ℤ
  header : List UInt8
  transfer : Transfer
  script : List TcpRecv

/-- The loops that read a header byte by byte, up to `ends` of `'\r'` and `'\n'` in a row. -/
def readHeader (ends : ℕ) : List TcpRecv → Transfer → (termchr : ℕ) → List UInt8 → HeaderRead
  | [], t, _, header => ⟨errTr50SockShutdown, header, { t with failed := true }, []⟩
  | ev :: script, t, termchr, header =>
    match t.recv 1 ev with
    | (.error e, t) => ⟨e, header, t, script⟩
    | (.ok data, t) =>
      let buffer := deref data
      let header := header ++ [buffer]
      if isLineEnd buffer then
        if termchr + 1 = ends then ⟨0, header, t, script⟩
        else readHeader ends script t (termchr + 1) header
      else readHeader ends script t 0 header

/-- How the data come. -/
inductive DataEnd
  | done
  | recvFailed (e : ℤ)
  | writeFailed
deriving DecidableEq, Repr

structure DataRead where
  outcome : DataEnd
  transfer : Transfer
  script : List TcpRecv

/-- The loops that take `length` bytes to the file, `1024` at a time. -/
def readData (fwrite : ℕ → Bool) : List TcpRecv → Transfer → (length : ℕ) → DataRead
  | script, t, 0 => ⟨.done, t, script⟩
  | [], t, _ + 1 => ⟨.recvFailed errTr50SockShutdown, { t with failed := true }, []⟩
  | ev :: script, t, length + 1 =>
    match t.recv (min (length + 1) 1024) ev with
    | (.error e, t) => ⟨.recvFailed e, t, script⟩
    | (.ok data, t) =>
      if fwrite t.writes then
        readData fwrite script { t with file := t.file ++ data, writes := t.writes + 1 }
          (length + 1 - data.length)
      else ⟨.writeFailed, { t with writes := t.writes + 1 }, script⟩

/-! ## The helpers -/

/-- What a helper returns; `fault` is an access outside its buffer. -/
inductive HelperReturn
  | returned (ret : ℤ) (t : Transfer) (script : List TcpRecv)
  | fault

/-- What a response with status 200 says of its body. -/
structure HttpHeader where
  isChunked : Bool
  fileSize : ℤ
deriving DecidableEq, Repr

def httpOk : List UInt8 := cstring "HTTP/1.1 200".toList

def transferEncoding : List UInt8 := cstring "Transfer-Encoding: chunked\r\n".toList

def contentLength : List UInt8 := cstring "Content-Length: ".toList

/-- How `tr50_helper_http_header_msg_decoder` reads its blob. -/
def httpHeader (blob : List UInt8) : HttpHeader :=
  let s := blob.takeWhile (· ≠ 0)
  match strstr s contentLength with
  | none => ⟨(strstr s transferEncoding).isSome, -1⟩
  | some tmpbuf =>
    let token := (tmpbuf.drop 16).dropWhile isLineEnd
    let behind := token.dropWhile fun c => ¬ isLineEnd c
    if token = [] then ⟨(strstr s transferEncoding).isSome, -1⟩
    else
      -- `strtok` has put a terminator behind the token
      ⟨(strstr (s.take (s.length - behind.length)) transferEncoding).isSome,
        (strtol16 (token.takeWhile fun c => ¬ isLineEnd c)).1⟩

/-- `tr50_helper_http_header_msg_decoder`: `none` leaves its results as they are. -/
def tr50HelperHttpHeaderMsgDecoder (script : List TcpRecv) (t : Transfer) :
    ℤ × Option HttpHeader × Transfer × List TcpRecv :=
  let r := readHeader 4 script t 0 []
  if httpOk.isPrefixOf r.header then (0, some (httpHeader r.header), r.transfer, r.script)
  else (r.ret, none, r.transfer, r.script)

/-- `tr50_helper_reader` -/
def tr50HelperReader (fwrite : ℕ → Bool) (script : List TcpRecv) (t : Transfer) (filesize : ℤ) :
    HelperReturn :=
  if filesize = 0 then .returned (-1) t script
  else
    let r := readData fwrite script t filesize.toNat
    match r.outcome with
    | .done => .returned 0 r.transfer r.script
    | .recvFailed e => .returned e r.transfer r.script
    | .writeFailed =>
      .returned errTr50FileWriteFailed { r.transfer with closed := true } r.script

def readSize : ℕ := 1024

/-- What a chunk's header says, cut to an `int`; `none` if the header, or reading it, leaves
`chunk_stream`. -/
def chunkSize (header : List UInt8) : Option ℤ :=
  if readSize < header.length ∨ header.length = readSize ∧ (strtol16 header).2 = [] then none
  else some (toInt32 (strtol16 header).1)

/-- The header of a chunk… -/
def chunkHeader (script : List TcpRecv) (t : Transfer) : HeaderRead := readHeader 2 script t 0 []

/-- …and the data behind it. -/
def chunkData (fwrite : ℕ → Bool) (script : List TcpRecv) (t : Transfer) (size : ℕ) : DataRead :=
  readData fwrite (chunkHeader script t).script (chunkHeader script t).transfer size

/-- `tr50_helper_chunked_reader` -/
def tr50HelperChunkedReader (fwrite : ℕ → Bool) (script : List TcpRecv) (t : Transfer) :
    HelperReturn :=
  let r := chunkHeader script t
  match chunkSize r.header with
  | none => .fault
  | some size =>
    if size = 0 then .returned (-1) r.transfer r.script
    else if size < 0 then .returned r.ret r.transfer r.script
    else
      let r := chunkData fwrite script t size.toNat
      match r.outcome with
      | .done => .returned 0 r.transfer r.script
      | .recvFailed e => .returned e r.transfer r.script
      | .writeFailed => .returned errTr50FileWriteFailed r.transfer r.script

/-- The loop of `tr50_file_download` over the chunks, as far as `fuel` turns go. -/
def downloadChunks (fwrite : ℕ → Bool) :
    (fuel : ℕ) → List TcpRecv → Transfer → Option HelperReturn
  | 0, _, _ => none
  | fuel + 1, script, t =>
    match tr50HelperChunkedReader fwrite script t with
    | .fault => some .fault
    | .returned ret t script =>
      if ret = 0 then downloadChunks fwrite fuel script t else some (.returned ret t script)

/-! ## What is taken -/

/-- Bytes have gone from the stream to what has been received; what has failed has failed. -/
structure Consumed (t t' : Transfer) (data : List UInt8) : Prop where
  stream : t.stream = data ++ t'.stream
  received : t'.received = t.received ++ data
  closed : t'.closed = t.closed
  failed : t.failed = true → t'.failed = true

namespace Consumed

variable {t t' t'' : Transfer} {data data' : List UInt8}

theorem refl (t : Transfer) : Consumed t t [] := ⟨rfl, (List.append_nil _).symm, rfl, id⟩

theorem fail (t : Transfer) : Consumed t { t with failed := true } [] :=
  ⟨rfl, (List.append_nil _).symm, rfl, fun _ => rfl⟩

theorem trans (h : Consumed t t' data) (h' : Consumed t' t'' data') :
    Consumed t t'' (data ++ data') :=
  ⟨by rw [h.stream, h'.stream, List.append_assoc],
    by rw [h'.received, h.received, List.append_assoc], h'.closed.trans h.closed,
    h'.failed ∘ h.failed⟩

/-- The file is another matter. -/
theorem write (h : Consumed t t' data) (file : List UInt8) (writes : ℕ) :
    Consumed t { t' with file, writes } data := ⟨h.stream, h.received, h.closed, h.failed⟩

/-- What is taken is told by what has been received. -/
theorem unique (h : Consumed t t' data) (h' : Consumed t t' data') : data = data' :=
  List.append_cancel_left (h.received.symm.trans h'.received)

end Consumed

section Receiving

variable {t t' : Transfer} {length : ℕ} {ev : TcpRecv}

/-- A receive that succeeds takes a byte at least, and no more than asked for. -/
theorem recv_ok {data : List UInt8} (h : t.recv length ev = (.ok data, t')) :
    Consumed t t' data ∧ t'.failed = t.failed ∧ t'.file = t.file ∧ t'.writes = t.writes
      ∧ 0 < data.length ∧ data.length ≤ length := by
  cases ev with
  | failed e he => simp [Transfer.recv] at h
  | piece n =>
    rw [Transfer.recv] at h
    split_ifs at h with hlen
    · simp at h
    · obtain ⟨hdata, rfl⟩ := Prod.mk.inj h
      obtain rfl := Except.ok.inj hdata
      have hle : pieceLen n length t.stream.length ≤ min length t.stream.length := min_le_right _ _
      refine ⟨⟨(List.take_append_drop _ _).symm, rfl, rfl, id⟩, rfl, rfl, rfl, ?_⟩
      rw [List.length_take]
      omega

/-- The codes of receives that fail. -/
def RecvCode (script : List TcpRecv) (e : ℤ) : Prop :=
  e = errTr50SockShutdown ∨ ∃ he, TcpRecv.failed e he ∈ script

theorem RecvCode.ne_zero {script : List TcpRecv} {e : ℤ} (h : RecvCode script e) : e ≠ 0 := by
  rcases h with rfl | ⟨he, -⟩
  · decide
  · exact he.ne

theorem RecvCode.of_suffix {script script' : List TcpRecv} {e : ℤ} (h : RecvCode script' e)
    (hsuffix : script' <:+ script) : RecvCode script e :=
  h.imp_right fun ⟨he, hmem⟩ => ⟨he, hsuffix.subset hmem⟩

/-- One that fails takes none. -/
theorem recv_error {e : ℤ} (h : t.recv length ev = (.error e, t')) :
    t' = { t with failed := true } ∧ ∀ script, RecvCode (ev :: script) e := by
  cases ev with
  | failed e' he =>
    obtain ⟨herror, rfl⟩ := Prod.mk.inj h
    obtain rfl := Except.error.inj herror
    exact ⟨rfl, fun _ => Or.inr ⟨he, List.mem_cons_self⟩⟩
  | piece n =>
    rw [Transfer.recv] at h
    split_ifs at h with hlen
    · obtain ⟨herror, rfl⟩ := Prod.mk.inj h
      exact ⟨rfl, fun _ => Or.inl (Except.error.inj herror).symm⟩
    · simp at h

end Receiving

/-- A header has been read: whole, or as far as the first receive that failed. -/
structure ReadsHeader (ends termchr : ℕ) (script : List TcpRecv) (t : Transfer)
    (r : HeaderRead) (taken : List UInt8) : Prop where
  took : Consumed t r.transfer taken
  file : r.transfer.file = t.file
  writes : r.transfer.writes = t.writes
  suffix : r.script <:+ script
  whole : r.ret = 0 → r.transfer.failed = t.failed
    ∧ script.length = r.script.length + taken.length
    ∧ cutLine ends termchr taken = some (taken, [])
  broken : r.ret ≠ 0 → r.transfer.failed = true ∧ cutLine ends termchr taken = none
    ∧ RecvCode script r.ret

theorem readHeader_step {ends termchr : ℕ} {script : List TcpRecv} {t t' : Transfer} {ev : TcpRecv}
    {header : List UInt8} {c : UInt8} (h : t.recv 1 ev = (.ok [c], t')) :
    readHeader ends (ev :: script) t termchr header =
      if isLineEnd c then
        if termchr + 1 = ends then ⟨0, header ++ [c], t', script⟩
        else readHeader ends script t' (termchr + 1) (header ++ [c])
      else readHeader ends script t' 0 (header ++ [c]) := by
  rw [readHeader, h]
  rfl

/-- **Reading a header**, from anywhere within it. -/
theorem readHeader_spec (ends : ℕ) (script : List TcpRecv) (t : Transfer) (termchr : ℕ)
    (header : List UInt8) : ∃ taken,
      (readHeader ends script t termchr header).header = header ++ taken
      ∧ ReadsHeader ends termchr script t (readHeader ends script t termchr header) taken := by
  induction script generalizing t termchr header with
  | nil =>
    have hcode : RecvCode [] errTr50SockShutdown := Or.inl rfl
    exact ⟨[], (List.append_nil _).symm, .fail t, rfl, rfl,
      List.suffix_rfl, fun h => absurd h hcode.ne_zero, fun _ => ⟨rfl, rfl, hcode⟩⟩
  | cons ev script ih =>
    cases hrecv : t.recv 1 ev with
    | mk got t' =>
      cases got with
      | error e =>
        rw [readHeader, hrecv]
        obtain ⟨rfl, hcode⟩ := recv_error hrecv
        exact ⟨[], (List.append_nil _).symm, .fail t, rfl, rfl,
          List.suffix_cons _ _, fun h => absurd h (hcode script).ne_zero,
          fun _ => ⟨rfl, rfl, hcode _⟩⟩
      | ok data =>
        obtain ⟨htook, hfailed, hfile, hwrites, hpos, hle⟩ := recv_ok hrecv
        obtain ⟨c, rfl⟩ := List.length_eq_one_iff.mp (le_antisymm hle hpos)
        rw [readHeader_step hrecv]
        -- the header goes on behind this byte
        have hnext : ∀ termchr', (∀ s, cutLine ends termchr (c :: s)
              = (cutLine ends termchr' s).map fun cut => (c :: cut.1, cut.2)) →
            ∃ taken, (readHeader ends script t' termchr' (header ++ [c])).header = header ++ taken
              ∧ ReadsHeader ends termchr (ev :: script) t
                (readHeader ends script t' termchr' (header ++ [c])) taken := by
          intro termchr' hcut
          obtain ⟨taken, hheader, h⟩ := ih t' termchr' (header ++ [c])
          refine ⟨c :: taken, by rw [hheader, List.append_assoc]; rfl, htook.trans h.took,
            h.file.trans hfile, h.writes.trans hwrites, h.suffix.trans (List.suffix_cons _ _),
            fun hret => ?_, fun hret => ?_⟩
          · obtain ⟨hf, hlt, hline⟩ := h.whole hret
            refine ⟨hf.trans hfailed, congrArg (· + 1) hlt, ?_⟩
            rw [hcut, hline, Option.map_some]
          · obtain ⟨hf, hline, hcode⟩ := h.broken hret
            refine ⟨hf, ?_, hcode.of_suffix (List.suffix_cons _ _)⟩
            rw [hcut, hline, Option.map_none]
        by_cases hc : isLineEnd c
        · by_cases hends : termchr + 1 = ends
          · rw [if_pos hc, if_pos hends]
            exact ⟨[c], rfl, htook, hfile, hwrites, List.suffix_cons _ _,
              fun _ => ⟨hfailed, rfl, by rw [cutLine, if_pos hc, if_pos hends]⟩,
              fun h => absurd rfl h⟩
          · rw [if_pos hc, if_neg hends]
            exact hnext _ fun s => by rw [cutLine, if_pos hc, if_neg hends]
        · rw [if_neg hc]
          exact hnext _ fun s => by rw [cutLine, if_neg hc]
/-- Data have been read: all of it, or as far as the first receive or write that failed. -/
structure ReadsData (script : List TcpRecv) (t : Transfer) (length : ℕ) (r : DataRead)
    (taken : List UInt8) : Prop where
  took : Consumed t r.transfer taken
  suffix : r.script <:+ script
  file : r.outcome ≠ .writeFailed → r.transfer.file = t.file ++ taken
  done : r.outcome = .done → r.transfer.failed = t.failed ∧ taken.length = length
    ∧ script.length ≤ r.script.length + length ∧ (0 < length → r.script.length < script.length)
  recvFailed : ∀ e, r.outcome = .recvFailed e → r.transfer.failed = true ∧ taken.length < length
    ∧ RecvCode script e

theorem readData_zero (fwrite : ℕ → Bool) (script : List TcpRecv) (t : Transfer) :
    readData fwrite script t 0 = ⟨.done, t, script⟩ := by
  cases script <;> rfl

theorem ReadsData.nothing (script : List TcpRecv) (t : Transfer) :
    ReadsData script t 0 ⟨.done, t, script⟩ [] :=
  ⟨.refl t, List.suffix_rfl, fun _ => (List.append_nil _).symm,
    fun _ => ⟨rfl, rfl, le_rfl, fun h => absurd h (lt_irrefl 0)⟩, by rintro _ ⟨⟩⟩

theorem ReadsData.broken {script script' : List TcpRecv} (t : Transfer) (length : ℕ) {e : ℤ}
    (hsuffix : script' <:+ script) (hcode : RecvCode script e) :
    ReadsData script t (length + 1) ⟨.recvFailed e, { t with failed := true }, script'⟩ [] := by
  refine ⟨.fail t, hsuffix, fun _ => (List.append_nil _).symm, by rintro ⟨⟩, fun e' he => ?_⟩
  cases he
  exact ⟨rfl, Nat.succ_pos _, hcode⟩

/-- **Reading data.** -/
theorem readData_spec (fwrite : ℕ → Bool) (script : List TcpRecv) (t : Transfer) (length : ℕ) :
    ∃ taken, ReadsData script t length (readData fwrite script t length) taken := by
  induction script generalizing t length with
  | nil =>
    cases length with
    | zero => exact ⟨[], readData_zero fwrite [] t ▸ .nothing [] t⟩
    | succ length => exact ⟨[], .broken t length List.suffix_rfl (Or.inl rfl)⟩
  | cons ev script ih =>
    have hsuffix := List.suffix_cons ev script
    cases length with
    | zero => exact ⟨[], readData_zero fwrite (ev :: script) t ▸ .nothing (ev :: script) t⟩
    | succ length =>
      rw [readData]
      cases hrecv : t.recv (min (length + 1) 1024) ev with
      | mk got t' =>
        cases got with
        | error e =>
          obtain ⟨rfl, hcode⟩ := recv_error hrecv
          exact ⟨[], .broken t length hsuffix (hcode script)⟩
        | ok data =>
          obtain ⟨htook, hfailed, hfile, -, hpos, hle⟩ := recv_ok hrecv
          by_cases hwrite : fwrite t'.writes
          · simp only [if_pos hwrite]
            -- the data behind this piece
            obtain ⟨taken, h⟩ := ih { t' with file := t'.file ++ data, writes := t'.writes + 1 }
              (length + 1 - data.length)
            refine ⟨data ++ taken, (htook.write _ _).trans h.took, h.suffix.trans hsuffix,
              fun hout => ?_, fun hdone => ?_, fun e he => ?_⟩
            · rw [h.file hout, hfile, List.append_assoc]
            · obtain ⟨hf, hlength, hturns, -⟩ := h.done hdone
              refine ⟨hf.trans hfailed, ?_, ?_, fun _ => Nat.lt_succ_of_le h.suffix.length_le⟩
              · rw [List.length_append]
                omega
              · rw [List.length_cons]
                omega
            · obtain ⟨hf, hlt, hcode⟩ := h.recvFailed e he
              refine ⟨hf, ?_, hcode.of_suffix hsuffix⟩
              rw [List.length_append]
              omega
          · simp only [hwrite, Bool.false_eq_true, if_false]
            exact ⟨data, htook.write _ _, hsuffix, fun h => absurd rfl h, by rintro ⟨⟩,
              by rintro _ ⟨⟩⟩

/-! ## The chunks -/

theorem chunkHeader_spec (script : List TcpRecv) (t : Transfer) :
    ReadsHeader 2 0 script t (chunkHeader script t) (chunkHeader script t).header := by
  obtain ⟨taken, hheader, hspec⟩ := readHeader_spec 2 script t 0 []
  exact hheader ▸ hspec

theorem chunkData_spec (fwrite : ℕ → Bool) (script : List TcpRecv) (t : Transfer) (size : ℕ) :
    ∃ taken, ReadsData (chunkHeader script t).script (chunkHeader script t).transfer size
      (chunkData fwrite script t size) taken :=
  readData_spec ..

theorem chunkData_code {fwrite : ℕ → Bool} {script : List TcpRecv} {t : Transfer} {size : ℕ} {e : ℤ}
    (h : (chunkData fwrite script t size).outcome = .recvFailed e) : RecvCode script e := by
  obtain ⟨taken, hspec⟩ := chunkData_spec fwrite script t size
  exact (hspec.recvFailed e h).2.2.of_suffix (chunkHeader_spec script t).suffix

/-- …and so with the header before it. -/
theorem chunkData_consumed (fwrite : ℕ → Bool) (script : List TcpRecv) (t : Transfer) (size : ℕ) :
    (chunkData fwrite script t size).script <:+ script
      ∧ ∃ wire, Consumed t (chunkData fwrite script t size).transfer wire := by
  have hheader := chunkHeader_spec script t
  obtain ⟨taken, hspec⟩ := chunkData_spec fwrite script t size
  exact ⟨hspec.suffix.trans hheader.suffix, _, hheader.took.trans hspec.took⟩

/-- What `tr50_helper_chunked_reader` can do. -/
inductive ChunkStep (fwrite : ℕ → Bool) (script : List TcpRecv) (t : Transfer) :
    HelperReturn → Prop
  | fault (hsize : chunkSize (chunkHeader script t).header = none) :
      ChunkStep fwrite script t .fault
  | last (hsize : chunkSize (chunkHeader script t).header = some 0) : ChunkStep fwrite script t
      (.returned (-1) (chunkHeader script t).transfer (chunkHeader script t).script)
  /-- A size below zero is a chunk without data. -/
  | skipped {size : ℤ} (hsize : chunkSize (chunkHeader script t).header = some size)
      (hneg : size < 0) : ChunkStep fwrite script t
        (.returned (chunkHeader script t).ret (chunkHeader script t).transfer
          (chunkHeader script t).script)
  | chunk {size : ℕ} (hsize : chunkSize (chunkHeader script t).header = some (size : ℤ))
      (hpos : 0 < size) (hdata : (chunkData fwrite script t size).outcome = .done) :
      ChunkStep fwrite script t (.returned 0 (chunkData fwrite script t size).transfer
        (chunkData fwrite script t size).script)
  | recvFailed {size : ℕ} {e : ℤ}
      (hsize : chunkSize (chunkHeader script t).header = some (size : ℤ)) (hpos : 0 < size)
      (hdata : (chunkData fwrite script t size).outcome = .recvFailed e) :
      ChunkStep fwrite script t (.returned e (chunkData fwrite script t size).transfer
        (chunkData fwrite script t size).script)
  | writeFailed {size : ℕ} (hsize : chunkSize (chunkHeader script t).header = some (size : ℤ))
      (hpos : 0 < size) (hdata : (chunkData fwrite script t size).outcome = .writeFailed) :
      ChunkStep fwrite script t (.returned errTr50FileWriteFailed
        (chunkData fwrite script t size).transfer (chunkData fwrite script t size).script)

theorem chunkStep (fwrite : ℕ → Bool) (script : List TcpRecv) (t : Transfer) :
    ChunkStep fwrite script t (tr50HelperChunkedReader fwrite script t) := by
  rw [tr50HelperChunkedReader]
  cases hsize : chunkSize (chunkHeader script t).header with
  | none => exact .fault hsize
  | some size =>
    simp only
    split_ifs with hzero hneg
    · exact .last (hsize.trans (congrArg some hzero))
    · exact .skipped hsize hneg
    · obtain ⟨n, rfl⟩ := Int.eq_ofNat_of_zero_le (not_lt.mp hneg)
      have hpos : 0 < n := by omega
      rw [Int.toNat_natCast]
      cases hdata : (chunkData fwrite script t n).outcome with
      | done => exact .chunk hsize hpos hdata
      | recvFailed e => exact .recvFailed hsize hpos hdata
      | writeFailed => exact .writeFailed hsize hpos hdata

/-- A turn of the loop takes receives. -/
theorem script_lt_of_chunkedReader {fwrite : ℕ → Bool} {script script' : List TcpRecv}
    {t t' : Transfer} (h : tr50HelperChunkedReader fwrite script t = .returned 0 t' script') :
    script'.length < script.length := by
  have hheader := chunkHeader_spec script t
  have hstep := chunkStep fwrite script t
  rw [h] at hstep
  generalize hresult : HelperReturn.returned 0 t' script' = result at hstep
  cases hstep with
  | fault => cases hresult
  | last hsize => exact absurd (HelperReturn.returned.inj hresult).1 (by decide)
  | skipped hsize hneg =>
    obtain ⟨hret, -, rfl⟩ := HelperReturn.returned.inj hresult
    obtain ⟨-, hturns, hline⟩ := hheader.whole hret.symm
    have hpos : 0 < (chunkHeader script t).header.length :=
      List.length_pos_of_ne_nil fun hnil => by
        rw [hnil] at hline
        cases hline
    omega
  | @chunk size hsize hpos hdata =>
    obtain ⟨-, -, rfl⟩ := HelperReturn.returned.inj hresult
    obtain ⟨taken, hspec⟩ := chunkData_spec fwrite script t size
    exact ((hspec.done hdata).2.2.2 hpos).trans_le hheader.suffix.length_le
  | recvFailed hsize hpos hdata =>
    exact absurd (HelperReturn.returned.inj hresult).1.symm (chunkData_code hdata).ne_zero
  | writeFailed => exact absurd (HelperReturn.returned.inj hresult).1 (by decide)

/-- **The loop over the chunks ends.** -/
theorem downloadChunks_isSome (fwrite : ℕ → Bool) {fuel : ℕ} {script : List TcpRecv} {t : Transfer}
    (h : script.length < fuel) : (downloadChunks fwrite fuel script t).isSome := by
  induction fuel generalizing script t with
  | zero => exact absurd h (Nat.not_lt_zero _)
  | succ fuel ih =>
    rw [downloadChunks]
    cases hreader : tr50HelperChunkedReader fwrite script t with
    | fault => rfl
    | returned ret t' script' =>
      simp only
      split_ifs with hret
      · subst hret
        exact ih ((script_lt_of_chunkedReader hreader).trans_le (Nat.lt_succ_iff.mp h))
      · rfl

/-- The loop from chunk to chunk. -/
inductive ChunkRun (fwrite : ℕ → Bool) (result : HelperReturn) : List TcpRecv → Transfer → Prop
  | stop {script : List TcpRecv} {t : Transfer} (h : ChunkStep fwrite script t result)
      (hret : ∀ t' script', result ≠ .returned 0 t' script') : ChunkRun fwrite result script t
  | skipped {script : List TcpRecv} {t : Transfer} {size : ℤ}
      (hsize : chunkSize (chunkHeader script t).header = some size) (hneg : size < 0)
      (hret : (chunkHeader script t).ret = 0)
      (h : ChunkRun fwrite result (chunkHeader script t).script (chunkHeader script t).transfer) :
      ChunkRun fwrite result script t
  | chunk {script : List TcpRecv} {t : Transfer} {size : ℕ}
      (hsize : chunkSize (chunkHeader script t).header = some (size : ℤ)) (hpos : 0 < size)
      (hdata : (chunkData fwrite script t size).outcome = .done)
      (h : ChunkRun fwrite result (chunkData fwrite script t size).script
        (chunkData fwrite script t size).transfer) : ChunkRun fwrite result script t

theorem chunkRun {fwrite : ℕ → Bool} {fuel : ℕ} {script : List TcpRecv} {t : Transfer}
    {result : HelperReturn} (h : downloadChunks fwrite fuel script t = some result) :
    ChunkRun fwrite result script t := by
  induction fuel generalizing script t with
  | zero => cases h
  | succ fuel ih =>
    rw [downloadChunks] at h
    have hstep := chunkStep fwrite script t
    generalize tr50HelperChunkedReader fwrite script t = step at h hstep
    cases hstep with
    | fault hsize =>
      obtain rfl := Option.some.inj h
      exact .stop (.fault hsize) (by rintro _ _ ⟨⟩)
    | last hsize =>
      obtain rfl := Option.some.inj h
      exact .stop (.last hsize) (by rintro _ _ ⟨⟩)
    | skipped hsize hneg =>
      simp only at h
      split_ifs at h with hret
      · exact .skipped hsize hneg hret (ih h)
      · obtain rfl := Option.some.inj h
        exact .stop (.skipped hsize hneg) fun _ _ heq => hret (HelperReturn.returned.inj heq).1
    | chunk hsize hpos hdata => exact .chunk hsize hpos hdata (ih h)
    | recvFailed hsize hpos hdata =>
      have hcode := chunkData_code hdata
      simp only [if_neg hcode.ne_zero] at h
      obtain rfl := Option.some.inj h
      exact .stop (.recvFailed hsize hpos hdata) fun _ _ heq =>
        hcode.ne_zero (HelperReturn.returned.inj heq).1
    | writeFailed hsize hpos hdata =>
      obtain rfl := Option.some.inj h
      exact .stop (.writeFailed hsize hpos hdata) (by rintro _ _ ⟨⟩)

/-! ## A connection that lasts -/

/-- Every byte of the stream will come. -/
structure Flows (script : List TcpRecv) (t : Transfer) : Prop where
  pieces : ∀ ev ∈ script, ∃ n, ev = .piece n
  length : t.stream.length ≤ script.length

section Flowing

variable {script : List TcpRecv} {t : Transfer}

theorem Flows.recv {ev : TcpRecv} (h : Flows (ev :: script) t) (hne : t.stream ≠ []) {length : ℕ}
    (hlength : 0 < length) : ∃ data t', t.recv length ev = (.ok data, t') ∧ Flows script t' := by
  obtain ⟨n, rfl⟩ := h.pieces ev List.mem_cons_self
  have hstream := List.length_pos_of_ne_nil hne
  have hlen : pieceLen n length t.stream.length ≠ 0 := by
    rw [pieceLen]
    omega
  refine ⟨_, _, by rw [Transfer.recv, if_neg hlen], fun ev hev =>
    h.pieces ev (List.mem_cons_of_mem _ hev), ?_⟩
  have hle := h.length
  rw [List.length_cons] at hle
  rw [List.length_drop]
  omega

/-- **A header that comes is read whole.** -/
theorem Flows.header_ret {ends termchr : ℕ} {line rest header : List UInt8} (h : Flows script t)
    (hcut : cutLine ends termchr t.stream = some (line, rest)) :
    (readHeader ends script t termchr header).ret = 0 := by
  induction script generalizing t termchr line rest header with
  | nil =>
    have hnil := List.length_eq_zero_iff.mp (Nat.le_zero.mp h.length)
    rw [hnil] at hcut
    cases hcut
  | cons ev script ih =>
    have hne : t.stream ≠ [] := fun hnil => by
      rw [hnil] at hcut
      cases hcut
    obtain ⟨data, t', hrecv, h'⟩ := h.recv hne Nat.one_pos
    obtain ⟨htook, -, -, -, hpos, hle⟩ := recv_ok hrecv
    obtain ⟨c, rfl⟩ := List.length_eq_one_iff.mp (le_antisymm hle hpos)
    rw [htook.stream, List.singleton_append, cutLine] at hcut
    rw [readHeader_step hrecv]
    by_cases hc : isLineEnd c
    · rw [if_pos hc] at hcut ⊢
      by_cases hends : termchr + 1 = ends
      · rw [if_pos hends]
      · rw [if_neg hends] at hcut ⊢
        obtain ⟨⟨line', rest'⟩, hcut', -⟩ := Option.map_eq_some_iff.mp hcut
        exact ih h' hcut'
    · rw [if_neg hc] at hcut ⊢
      obtain ⟨⟨line', rest'⟩, hcut', -⟩ := Option.map_eq_some_iff.mp hcut
      exact ih h' hcut'

/-- **Data that come are read whole.** -/
theorem Flows.data_outcome {length : ℕ} (h : Flows script t) (hlength : length ≤ t.stream.length) :
    (readData (fun _ => true) script t length).outcome = .done := by
  induction script generalizing t length with
  | nil =>
    obtain rfl : length = 0 := Nat.le_zero.mp (hlength.trans h.length)
    rfl
  | cons ev script ih =>
    cases length with
    | zero => rfl
    | succ length =>
      have hne : t.stream ≠ [] := List.ne_nil_of_length_pos (by omega)
      have hasked : 0 < min (length + 1) 1024 := by omega
      obtain ⟨data, t', hrecv, h'⟩ := h.recv hne hasked
      obtain ⟨htook, -⟩ := recv_ok hrecv
      rw [readData, hrecv]
      refine ih ⟨h'.pieces, h'.length⟩ ?_
      have hsplit := congrArg List.length htook.stream
      rw [List.length_append] at hsplit
      change length + 1 - data.length ≤ t'.stream.length
      omega

end Flowing

/-! ## Sizes -/

/-- A digit is no blank, no sign and no `x`. -/
theorem isHex_cases {c : UInt8} (h : isHex c) : ¬ (c = 32 ∨ 9 ≤ c ∧ c ≤ 13) ∧ c ≠ ch '-'
    ∧ c ≠ ch '+' ∧ c ≠ ch 'x' ∧ c ≠ ch 'X' := by
  have hall : ∀ n : Fin 256, isHex (UInt8.ofFin n) →
      ¬ (UInt8.ofFin n = 32 ∨ 9 ≤ UInt8.ofFin n ∧ UInt8.ofFin n ≤ 13) ∧ UInt8.ofFin n ≠ ch '-'
        ∧ UInt8.ofFin n ≠ ch '+' ∧ UInt8.ofFin n ≠ ch 'x' ∧ UInt8.ofFin n ≠ ch 'X' := by
    decide +kernel
  exact hall c.toFin h

/-- **Digits read as their number**, up to what a `long` holds. -/
theorem strtol16_digits {digits rest : List UInt8} (hne : digits ≠ [])
    (hhex : ∀ c ∈ digits, isHex c)
    (hrest : ∀ c ∈ rest.head?, ¬ isHex c ∧ c ≠ ch 'x' ∧ c ≠ ch 'X') :
    strtol16 (digits ++ rest) = (min (2 ^ 63 - 1) (hexNat digits : ℤ), rest) := by
  have htake : (digits ++ rest).takeWhile isHex = digits := by
    rw [List.takeWhile_append_of_pos hhex]
    cases rest with
    | nil => simp
    | cons c rest => rw [List.takeWhile_cons_of_neg (hrest c rfl).1, List.append_nil]
  have hdrop : (digits ++ rest).dropWhile isHex = rest := by
    rw [List.dropWhile_append_of_pos hhex]
    cases rest with
    | nil => rfl
    | cons c rest => rw [List.dropWhile_cons_of_neg (hrest c rfl).1]
  obtain ⟨c, digits, rfl⟩ := List.exists_cons_of_ne_nil hne
  obtain ⟨hblank, hminus, hplus, -⟩ := isHex_cases (hhex c List.mem_cons_self)
  -- what comes second is a digit, or not there, or behind the digits
  have hsecond : ∀ c' ∈ (digits ++ rest).head?, c' ≠ ch 'x' ∧ c' ≠ ch 'X' := by
    intro c' hc'
    cases digits with
    | nil => exact (hrest c' hc').2
    | cons d digits =>
      obtain rfl : d = c' := Option.some.inj hc'
      exact (isHex_cases (hhex d (by simp))).2.2.2
  have hprefix : ¬ (hasPrefix ['0', 'x'] (c :: digits ++ rest)
      ∨ hasPrefix ['0', 'X'] (c :: digits ++ rest)) := by
    rw [List.cons_append]
    generalize digits ++ rest = s at hsecond
    cases s with
    | nil => simp [hasPrefix, cstring]
    | cons c' s =>
      have hne := hsecond c' rfl
      simp [hasPrefix, cstring, hne.1.symm, hne.2.symm]
  have hspace : (c :: digits ++ rest).dropWhile (fun c => c = 32 ∨ (9 ≤ c ∧ c ≤ 13))
      = c :: digits ++ rest := by
    rw [List.cons_append, List.dropWhile_cons_of_neg (by simpa using hblank)]
  have hsign : ¬ deref (c :: digits ++ rest) = ch '-' ∧ ¬ deref (c :: digits ++ rest) = ch '+' :=
    ⟨hminus, hplus⟩
  simp only [strtol16, hspace, hsign.1, hsign.2, or_self, if_false, hprefix, htake, hdrop]
  rw [max_eq_right (by omega)]

/-- A size line says its size, if an `int` holds it. -/
theorem chunkSize_of_isSizeLine {line : List UInt8} {n : ℕ} (h : IsSizeLine line n)
    (hn : n < 2 ^ 31) (hlength : line.length ≤ readSize) : chunkSize line = some (n : ℤ) := by
  obtain ⟨digits, extension, rfl, hne, hhex, hvalue, -, hextension⟩ := h
  have hrest : ∀ c ∈ (extension ++ crlf).head?, ¬ isHex c ∧ c ≠ ch 'x' ∧ c ≠ ch 'X' := by
    intro c hc
    cases extension with
    | nil =>
      obtain rfl : 13 = c := Option.some.inj hc
      decide
    | cons d extension =>
      obtain rfl : d = c := Option.some.inj hc
      rcases hextension d rfl with rfl | rfl | rfl <;> decide
  have hstrtol := strtol16_digits hne hhex hrest
  rw [← List.append_assoc] at hstrtol
  rw [chunkSize, hstrtol, if_neg, hvalue, min_eq_right (by omega), toInt32_of_lt hn]
  rintro (hlt | ⟨-, hnil⟩)
  · exact absurd hlength (not_le.mpr hlt)
  · simp [crlf] at hnil

theorem chunkSize_crlf : chunkSize crlf = some 0 := by decide

/-! ## Chunks that come -/

theorem Flows.of_took {script script' : List TcpRecv} {t t' : Transfer} {taken : List UInt8}
    (h : Flows script t) (htook : Consumed t t' taken) (hsuffix : script' <:+ script)
    (hturns : script.length ≤ script'.length + taken.length) : Flows script' t' := by
  refine ⟨fun ev hev => h.pieces ev (hsuffix.subset hev), ?_⟩
  have hle := h.length
  rw [htook.stream, List.length_append] at hle
  omega

/-- A header that comes, taken off the stream. -/
theorem Flows.header {script : List TcpRecv} {t : Transfer} {ends : ℕ} {line rest : List UInt8}
    (h : Flows script t) (hcut : cutLine ends 0 t.stream = some (line, rest)) :
    (readHeader ends script t 0 []).header = line
      ∧ Flows (readHeader ends script t 0 []).script (readHeader ends script t 0 []).transfer
      ∧ (readHeader ends script t 0 []).transfer.stream = rest
      ∧ (readHeader ends script t 0 []).transfer.file = t.file := by
  obtain ⟨taken, hheader, hspec⟩ := readHeader_spec ends script t 0 []
  obtain ⟨-, hturns, hline⟩ := hspec.whole (h.header_ret hcut)
  have hstream := hspec.took.stream
  obtain ⟨hsplit, hwhole⟩ := cutLine_append [] hcut
  rw [List.append_nil] at hwhole
  obtain ⟨rfl, hrest⟩ := cutLine_unique hline hwhole (hstream.symm.trans hsplit)
  exact ⟨hheader, h.of_took hspec.took hspec.suffix hturns.le, hrest, hspec.file⟩

/-- **A chunk that comes goes to the file.** -/
theorem Flows.chunk {script : List TcpRecv} {t : Transfer} {line data rest : List UInt8}
    (h : Flows script t) (hstream : t.stream = line ++ (data ++ rest))
    (hline : IsSizeLine line data.length) (hne : data ≠ []) (hlt : data.length < 2 ^ 31)
    (hlength : line.length ≤ readSize) :
    ∃ t' script', tr50HelperChunkedReader (fun _ => true) script t = .returned 0 t' script'
      ∧ Flows script' t' ∧ t'.stream = rest ∧ t'.file = t.file ++ data := by
  have hcut : cutLine 2 0 t.stream = some (line, data ++ rest) := by
    rw [hstream]
    exact (cutLine_append _ hline.cut).2
  obtain ⟨hheader, hflows, hbehind, hfile⟩ := h.header hcut
  have hpos := List.length_pos_of_ne_nil hne
  change (chunkHeader script t).header = line at hheader
  have hread : (chunkData (fun _ => true) script t data.length).outcome = .done :=
    hflows.data_outcome (by simp [hbehind])
  obtain ⟨taken, hspec⟩ := readData_spec (fun _ => true) (chunkHeader script t).script
    (chunkHeader script t).transfer data.length
  obtain ⟨-, htaken, hturns, -⟩ := hspec.done hread
  have hsplit := hbehind.symm.trans hspec.took.stream
  obtain ⟨rfl, hrest⟩ := List.append_inj hsplit htaken.symm
  refine ⟨_, _, ?_, hflows.of_took hspec.took hspec.suffix hturns, hrest.symm, ?_⟩
  · simp only [tr50HelperChunkedReader, hheader, chunkSize_of_isSizeLine hline hlt hlength]
    rw [if_neg (by omega), if_neg (by omega), Int.toNat_natCast, hread]
    rfl
  · have hout : (chunkData (fun _ => true) script t data.length).outcome ≠ .writeFailed := by
      rw [hread]
      decide
    exact (hspec.file hout).trans (congrArg (· ++ data) hfile)

/-- **What reads as zero ends the file.** -/
theorem Flows.stop {script : List TcpRecv} {t : Transfer} {line rest : List UInt8}
    (h : Flows script t) (hcut : cutLine 2 0 t.stream = some (line, rest))
    (hsize : chunkSize line = some 0) (fwrite : ℕ → Bool) :
    ∃ t' script', tr50HelperChunkedReader fwrite script t = .returned (-1) t' script'
      ∧ t'.file = t.file := by
  obtain ⟨hheader, -, -, hfile⟩ := h.header hcut
  refine ⟨_, (chunkHeader script t).script, ?_, hfile⟩
  simp only [tr50HelperChunkedReader, chunkHeader, hheader, hsize, if_true]

end Tr50
