import Tr50.Worker.Http

/-!
# Worker/Download — when a download says it has succeeded

`tr50_file_download`, and what its result `0` should mean: no receive has failed, the response has
status 200, and its body has been received and written (`Download.Meets`).  The function takes `-1`
for success, and the helpers return it where nothing has come; the result keeps its meaning where no
such branch is taken (`downloadMeets`).
-/

namespace Tr50

open Machinery

/-! ## The function -/

/-- What surrounds a call. -/
structure Download where
  /-- `tr50_json_create_object` -/
  params : Bool
  /-- `tr50_file_get_ex`, and whether its reply has a `fileId`. -/
  get : ℤ
  fileId : Bool
  fopen : Bool
  connect : ℤ
  send : ℤ
  stream : List UInt8
  script : List TcpRecv
  fwrite : ℕ → Bool
  /-- No socket call has the code `-1`. -/
  codes : connect ≠ -1 ∧ send ≠ -1 ∧ ∀ e he, TcpRecv.failed e he ∈ script → e ≠ -1

inductive DownloadReturn
  | returned (ret : ℤ) (t : Transfer)
  /-- An access outside a buffer, or a file closed twice. -/
  | fault
deriving DecidableEq

namespace Download

/-- The end of the function, from `_end_err_get` on; `fp` is open where the request is sent. -/
def finish (ret : ℤ) (t : Transfer) : DownloadReturn :=
  if t.closed then .fault
  else .returned (if ret = -1 ∨ ret = 0 then 0 else errTr50FilePutHttp) t

/-- From the response on. -/
def response (d : Download) : DownloadReturn :=
  match tr50HelperHttpHeaderMsgDecoder d.script (.start d.stream) with
  | (_, header, t, script) =>
    let header := header.getD ⟨false, 0⟩
    let r :=
      if header.isChunked then
        (downloadChunks d.fwrite (script.length + 1) script t).getD .fault
      else tr50HelperReader d.fwrite script t (toInt32 header.fileSize)
    match r with
    | .returned ret t _ => finish ret t
    | .fault => .fault

end Download

/-- `tr50_file_download` -/
def tr50FileDownload (d : Download) : DownloadReturn :=
  let t := Transfer.start d.stream
  if ¬ d.params then .returned errTr50Malloc t
  else if d.get ≠ 0 then Download.finish d.get t
  else if ¬ d.fileId then .returned errTr50Parms t
  else if ¬ d.fopen then .returned errTr50LocalFileNotfound t
  else if d.connect ≠ 0 then Download.finish d.connect t
  else if d.send ≠ 0 then Download.finish d.send t
  else d.response

/-! ## What `0` means -/

def decNat (digits : List UInt8) : ℕ := digits.foldl (fun n c => 10 * n + (c - ch '0').toNat) 0

/-- The length that a header says, a decimal number on its line. -/
def headerLength (head : List UInt8) : Option ℕ :=
  (strstr head contentLength).bind fun field =>
    let value := field.drop 16
    if value.takeWhile isDigit ≠ [] ∧ isLineEnd (deref (value.dropWhile isDigit)) then
      some (decNat (value.takeWhile isDigit))
    else none

/-- The file has the body: all chunks up to the last, or as many bytes as the header says. -/
def BodyComplete (head body file : List UInt8) : Prop :=
  if (strstr head transferEncoding).isSome then Chunked (2 ^ 31) body file
  else ∃ n, headerLength head = some n ∧ n ≤ body.length ∧ body.take n <+: file

/-- What has been received is a response with status 200, and the file has its body. -/
def Complete (received file : List UInt8) : Prop :=
  ∃ head body, cutLine 4 0 received = some (head, body) ∧ httpOk <+: head
    ∧ BodyComplete head body file

/-- The result is `0` only if no receive has failed and the file is complete. -/
def Download.Meets (d : Download) : Prop :=
  ∃ ret t, tr50FileDownload d = .returned ret t ∧
    (ret = 0 → t.failed = false ∧ Complete t.received t.file)

/-! ## When it does -/

/-- The loop over the chunks ends within a chunk, where a receive or a write fails. -/
inductive BreaksOff (fwrite : ℕ → Bool) : List TcpRecv → Transfer → Prop
  | size {script : List TcpRecv} {t : Transfer} {size : ℤ}
      (hsize : chunkSize (chunkHeader script t).header = some size) (hneg : size < 0)
      (hret : (chunkHeader script t).ret ≠ 0) : BreaksOff fwrite script t
  | data {script : List TcpRecv} {t : Transfer} {size : ℕ}
      (hsize : chunkSize (chunkHeader script t).header = some (size : ℤ)) (hpos : 0 < size)
      (hdata : (chunkData fwrite script t size).outcome ≠ .done) : BreaksOff fwrite script t
  /-- …or within one behind. -/
  | skipped {script : List TcpRecv} {t : Transfer} {size : ℤ}
      (hsize : chunkSize (chunkHeader script t).header = some size) (hneg : size < 0)
      (hret : (chunkHeader script t).ret = 0)
      (h : BreaksOff fwrite (chunkHeader script t).script (chunkHeader script t).transfer) :
      BreaksOff fwrite script t
  | chunk {script : List TcpRecv} {t : Transfer} {size : ℕ}
      (hsize : chunkSize (chunkHeader script t).header = some (size : ℤ)) (hpos : 0 < size)
      (hdata : (chunkData fwrite script t size).outcome = .done)
      (h : BreaksOff fwrite (chunkData fwrite script t size).script
        (chunkData fwrite script t size).transfer) : BreaksOff fwrite script t

namespace Download

/-- Nothing before the response has failed. -/
def Requested (d : Download) : Prop :=
  d.params ∧ d.get = 0 ∧ d.fileId ∧ d.fopen ∧ d.connect = 0 ∧ d.send = 0

/-- The header as it comes. -/
def head (d : Download) : HeaderRead := readHeader 4 d.script (.start d.stream) 0 []

/-- …and what the code makes of it. -/
def header (d : Download) : HttpHeader :=
  if httpOk.isPrefixOf d.head.header then httpHeader d.head.header else ⟨false, 0⟩

/-- The length it goes by: base 16, cut to an `int`. -/
def size (d : Download) : ℕ := (toInt32 d.header.fileSize).toNat

/-- The data of a body that is not chunked. -/
def data (d : Download) : DataRead := readData d.fwrite d.head.script d.head.transfer d.size

/-- The response breaks off within the data. -/
def Interrupted (d : Download) : Prop :=
  if d.header.isChunked then BreaksOff d.fwrite d.head.script d.head.transfer
  else ∃ e, d.data.outcome = .recvFailed e

/-- The header of the first chunk. -/
def firstChunk (d : Download) : HeaderRead := chunkHeader d.head.script d.head.transfer

/-- The response is a 200, and its body is chunked and empty, or has a length which is no more than
what the code takes it for. -/
def Whole (d : Download) : Prop :=
  d.head.ret = 0 ∧ httpOk <+: d.head.header ∧
    if d.header.isChunked then
      IsSizeLine d.firstChunk.header 0 ∧ d.firstChunk.header.length ≤ readSize
    else
      d.data.outcome = .done ∧ strstr d.head.header transferEncoding = none
        ∧ ∃ n, headerLength d.head.header = some n ∧ n ≤ d.size

def HoldsWhen (d : Download) : Prop :=
  (d.params → d.get ≠ -1) ∧ (d.Requested → d.Interrupted ∨ d.Whole)

end Download

/-! ## The loop over the chunks -/

/-- No receive has the code `-1`. -/
def Coded (script : List TcpRecv) : Prop := ∀ e he, TcpRecv.failed e he ∈ script → e ≠ -1

theorem Coded.of_suffix {script script' : List TcpRecv} (h : Coded script)
    (hsuffix : script' <:+ script) : Coded script' := fun e he hmem =>
  h e he (hsuffix.subset hmem)

theorem RecvCode.ne_neg_one {script : List TcpRecv} {e : ℤ} (h : RecvCode script e)
    (hcoded : Coded script) : e ≠ -1 := by
  rcases h with rfl | ⟨he, hmem⟩
  · decide
  · exact hcoded e he hmem

section Chunks

variable {fwrite : ℕ → Bool} {script script' : List TcpRecv} {t t' : Transfer} {ret : ℤ}
  {result : HelperReturn}

theorem ChunkRun.took (h : ChunkRun fwrite (.returned ret t' script') script t) :
    ∃ wire, Consumed t t' wire := by
  induction h with
  | @stop script t hstep hret =>
    have hheader := (chunkHeader_spec script t).took
    generalize hresult : HelperReturn.returned ret t' script' = result at hstep
    cases hstep with
    | fault => cases hresult
    | last hsize =>
      obtain ⟨-, rfl, -⟩ := HelperReturn.returned.inj hresult
      exact ⟨_, hheader⟩
    | skipped hsize hneg =>
      obtain ⟨-, rfl, -⟩ := HelperReturn.returned.inj hresult
      exact ⟨_, hheader⟩
    | chunk hsize hpos hdata =>
      obtain ⟨-, rfl, -⟩ := HelperReturn.returned.inj hresult
      exact (chunkData_consumed ..).2
    | recvFailed hsize hpos hdata =>
      obtain ⟨-, rfl, -⟩ := HelperReturn.returned.inj hresult
      exact (chunkData_consumed ..).2
    | writeFailed hsize hpos hdata =>
      obtain ⟨-, rfl, -⟩ := HelperReturn.returned.inj hresult
      exact (chunkData_consumed ..).2
  | @skipped script t size hsize hneg hret h ih =>
    obtain ⟨wire, htook⟩ := ih
    exact ⟨_, (chunkHeader_spec script t).took.trans htook⟩
  | @chunk script t size hsize hpos hdata h ih =>
    obtain ⟨wire, htook⟩ := ih
    obtain ⟨-, wire', htook'⟩ := chunkData_consumed fwrite script t size
    exact ⟨_, htook'.trans htook⟩

theorem ChunkRun.ret_ne_zero (h : ChunkRun fwrite result script t) :
    ∀ t' script', result ≠ .returned 0 t' script' := by
  induction h with
  | stop _ hret => exact hret
  | skipped _ _ _ _ ih => exact ih
  | chunk _ _ _ _ ih => exact ih

/-- A header that reads as zero ends the loop. -/
theorem ChunkRun.of_zero (h : ChunkRun fwrite result script t)
    (hzero : chunkSize (chunkHeader script t).header = some 0) :
    result = .returned (-1) (chunkHeader script t).transfer (chunkHeader script t).script := by
  have hother : ∀ {size : ℤ}, chunkSize (chunkHeader script t).header = some size → size = 0 :=
    fun hsize => (Option.some.inj (hzero.symm.trans hsize)).symm
  cases h with
  | stop hstep =>
    cases hstep with
    | fault hsize => cases hzero.symm.trans hsize
    | last => rfl
    | skipped hsize hneg => exact absurd (hother hsize) hneg.ne
    | chunk hsize hpos => exact absurd (hother hsize) (by omega)
    | recvFailed hsize hpos => exact absurd (hother hsize) (by omega)
    | writeFailed hsize hpos => exact absurd (hother hsize) (by omega)
  | skipped hsize hneg => exact absurd (hother hsize) hneg.ne
  | chunk hsize hpos => exact absurd (hother hsize) (by omega)

/-- Where the loop ends at a header that reads as zero, there or behind a chunk. -/
theorem ChunkRun.quiet_cases (h : ChunkRun fwrite (.returned (-1) t' script') script t)
    (hcoded : Coded script) :
    chunkSize (chunkHeader script t).header = some 0 ∧ t' = (chunkHeader script t).transfer
    ∨ (∃ size < 0, chunkSize (chunkHeader script t).header = some size
      ∧ (chunkHeader script t).ret = 0 ∧ ChunkRun fwrite (.returned (-1) t' script')
        (chunkHeader script t).script (chunkHeader script t).transfer)
    ∨ ∃ size : ℕ, 0 < size ∧ chunkSize (chunkHeader script t).header = some (size : ℤ)
      ∧ (chunkData fwrite script t size).outcome = .done ∧ ChunkRun fwrite
        (.returned (-1) t' script') (chunkData fwrite script t size).script
        (chunkData fwrite script t size).transfer := by
  have hheader := chunkHeader_spec script t
  cases h with
  | stop hstep hret =>
    generalize hresult : HelperReturn.returned (-1) t' script' = result at hstep
    cases hstep with
    | fault => cases hresult
    | last hsize => exact Or.inl ⟨hsize, (HelperReturn.returned.inj hresult).2.1⟩
    | skipped hsize hneg =>
      have hret' := (HelperReturn.returned.inj hresult).1
      obtain ⟨-, -, hcode⟩ := hheader.broken (by omega)
      exact absurd hret'.symm (hcode.ne_neg_one hcoded)
    | chunk hsize hpos hdata => exact absurd (HelperReturn.returned.inj hresult).1 (by decide)
    | recvFailed hsize hpos hdata =>
      exact absurd (HelperReturn.returned.inj hresult).1.symm
        ((chunkData_code hdata).ne_neg_one hcoded)
    | writeFailed => exact absurd (HelperReturn.returned.inj hresult).1 (by decide)
  | skipped hsize hneg hret h => exact Or.inr (Or.inl ⟨_, hneg, hsize, hret, h⟩)
  | chunk hsize hpos hdata h => exact Or.inr (Or.inr ⟨_, hpos, hsize, hdata, h⟩)

/-- The first header of a loop that ends so, if no receive has failed. -/
theorem ChunkRun.quiet_header (h : ChunkRun fwrite (.returned (-1) t' script') script t)
    (hcoded : Coded script) (hfailed : t'.failed = false) :
    cutLine 2 0 (chunkHeader script t).header = some ((chunkHeader script t).header, [])
      ∧ (chunkHeader script t).header.length ≤ readSize
      ∧ ∃ wire, Consumed (chunkHeader script t).transfer t' wire := by
  have hheader := chunkHeader_spec script t
  obtain ⟨hsize, wire, htook⟩ : chunkSize (chunkHeader script t).header ≠ none
      ∧ ∃ wire, Consumed (chunkHeader script t).transfer t' wire := by
    rcases h.quiet_cases hcoded with ⟨hsize, rfl⟩ | ⟨size, -, hsize, -, hrest⟩
      | ⟨size, -, hsize, -, hrest⟩
    · exact ⟨by simp [hsize], [], .refl _⟩
    · exact ⟨by simp [hsize], hrest.took⟩
    · obtain ⟨taken, hspec⟩ := chunkData_spec fwrite script t size
      obtain ⟨wire, htook⟩ := hrest.took
      exact ⟨by simp [hsize], _, hspec.took.trans htook⟩
  have hret : (chunkHeader script t).ret = 0 := by
    by_contra hret
    have hbroken := htook.failed (hheader.broken hret).1
    rw [hfailed] at hbroken
    cases hbroken
  refine ⟨(hheader.whole hret).2.2, not_lt.mp fun hlt => hsize ?_, wire, htook⟩
  rw [chunkSize, if_pos (Or.inl hlt)]

/-- **Such a loop has taken a whole body only if it is empty**: behind data comes a line end, which
is taken for a header. -/
theorem ChunkRun.isSizeLine (h : ChunkRun fwrite (.returned (-1) t' script') script t)
    (hcoded : Coded script) (hfailed : t'.failed = false) {wire data : List UInt8}
    (htook : Consumed t t' wire) (hchunked : Chunked (2 ^ 31) wire data) :
    IsSizeLine (chunkHeader script t).header 0
      ∧ (chunkHeader script t).header.length ≤ readSize := by
  have hheader := chunkHeader_spec script t
  obtain ⟨hline, hlength, wire₁, htook₁⟩ := h.quiet_header hcoded hfailed
  have hwire : wire = (chunkHeader script t).header ++ wire₁ :=
    htook.unique (hheader.took.trans htook₁)
  refine ⟨?_, hlength⟩
  cases hchunked with
  | last hlast =>
    have hall : wire ++ [] = (chunkHeader script t).header ++ wire₁ :=
      (List.append_nil _).trans hwire
    rw [← (cutLine_unique hlast.cut hline hall).1]
    exact hlast
  | @chunk line chunk rest data hsize hne hlt hrest =>
    exfalso
    have hpos := List.length_pos_of_ne_nil hne
    have hall : line ++ (chunk ++ (crlf ++ rest)) = (chunkHeader script t).header ++ wire₁ := by
      simpa using hwire
    obtain ⟨rfl, hbehind⟩ := cutLine_unique hsize.cut hline hall
    have hchunk := chunkSize_of_isSizeLine hsize hlt hlength
    rcases h.quiet_cases hcoded with ⟨hzero, -⟩ | ⟨size, hneg, hsize', -⟩
      | ⟨size, -, hsize', hdata, hnext⟩
    · have heq := Option.some.inj (hchunk.symm.trans hzero)
      omega
    · have heq := Option.some.inj (hchunk.symm.trans hsize')
      omega
    · obtain rfl : chunk.length = size := Int.ofNat.inj (Option.some.inj (hchunk.symm.trans hsize'))
      obtain ⟨taken, hspec⟩ := chunkData_spec fwrite script t chunk.length
      have hcoded' : Coded (chunkData fwrite script t chunk.length).script :=
        hcoded.of_suffix (chunkData_consumed ..).1
      -- the next header is the line end, and the last
      obtain ⟨hline', -, wire₂, htook₂⟩ := hnext.quiet_header hcoded' hfailed
      have hheader' := chunkHeader_spec (chunkData fwrite script t chunk.length).script
        (chunkData fwrite script t chunk.length).transfer
      have hsplit := htook₁.unique (hspec.took.trans (hheader'.took.trans htook₂))
      obtain ⟨-, hcrlf⟩ := List.append_inj (hbehind.trans hsplit) (hspec.done hdata).2.1.symm
      have hcut : cutLine 2 0 crlf = some (crlf, []) := rfl
      obtain ⟨hnextHeader, hrest'⟩ := cutLine_unique hcut hline' hcrlf
      rcases hnext.quiet_cases hcoded' with ⟨-, rfl⟩ | ⟨size, hneg, hsize'', -⟩
        | ⟨size, hpos', hsize'', -⟩
      · have hnil : wire₂ = [] := htook₂.unique (.refl _)
        have hlt' := hrest.length_lt
        rw [hrest', hnil] at hlt'
        exact absurd hlt' (Nat.not_lt_zero _)
      · rw [← hnextHeader, chunkSize_crlf] at hsize''
        exact absurd (Option.some.inj hsize'') (by omega)
      · rw [← hnextHeader, chunkSize_crlf] at hsize''
        exact absurd (Option.some.inj hsize'') (by omega)

/-! ## Where it breaks off -/

theorem breaksOff_of_neg {size : ℤ} (hsize : chunkSize (chunkHeader script t).header = some size)
    (hneg : size < 0) (hret : (chunkHeader script t).ret = 0) : BreaksOff fwrite script t ↔
      BreaksOff fwrite (chunkHeader script t).script (chunkHeader script t).transfer := by
  refine ⟨fun h => ?_, .skipped hsize hneg hret⟩
  cases h with
  | size _ _ hret' => exact absurd hret hret'
  | data hsize' hpos =>
    have heq := Option.some.inj (hsize.symm.trans hsize')
    omega
  | skipped _ _ _ h => exact h
  | chunk hsize' hpos =>
    have heq := Option.some.inj (hsize.symm.trans hsize')
    omega

theorem breaksOff_of_pos {size : ℕ} (hsize : chunkSize (chunkHeader script t).header = some ↑size)
    (hpos : 0 < size) (hdata : (chunkData fwrite script t size).outcome = .done) :
    BreaksOff fwrite script t ↔ BreaksOff fwrite (chunkData fwrite script t size).script
      (chunkData fwrite script t size).transfer := by
  refine ⟨fun h => ?_, .chunk hsize hpos hdata⟩
  cases h with
  | size hsize' hneg =>
    have heq := Option.some.inj (hsize.symm.trans hsize')
    omega
  | data hsize' _ hdata' =>
    obtain rfl := Int.ofNat.inj (Option.some.inj (hsize.symm.trans hsize'))
    exact absurd hdata hdata'
  | skipped hsize' hneg =>
    have heq := Option.some.inj (hsize.symm.trans hsize')
    omega
  | chunk hsize' _ _ h =>
    obtain rfl := Int.ofNat.inj (Option.some.inj (hsize.symm.trans hsize'))
    exact h

/-- It breaks off nowhere at a header that reads as zero, or can not be read. -/
theorem not_breaksOff {size : Option ℤ} (hsize : chunkSize (chunkHeader script t).header = size)
    (hnone : ∀ n ∈ size, n = 0) : ¬ BreaksOff fwrite script t := by
  intro h
  cases h with
  | size hsize' hneg => exact absurd (hnone _ (hsize.symm.trans hsize')) (by omega)
  | data hsize' hpos => exact absurd (hnone _ (hsize.symm.trans hsize')) (by omega)
  | skipped hsize' hneg => exact absurd (hnone _ (hsize.symm.trans hsize')) (by omega)
  | chunk hsize' hpos => exact absurd (hnone _ (hsize.symm.trans hsize')) (by omega)

/-- **The loop returns an error where it breaks off**, and only there. -/
theorem ChunkRun.breaksOff_iff (h : ChunkRun fwrite result script t) (hcoded : Coded script) :
    BreaksOff fwrite script t
      ↔ ∃ ret t' script', result = .returned ret t' script' ∧ ret ≠ 0 ∧ ret ≠ -1 := by
  induction h with
  | @stop script t hstep hret =>
    have hheader := chunkHeader_spec script t
    cases hstep with
    | fault hsize =>
      exact iff_of_false (not_breaksOff hsize (by simp)) (by rintro ⟨_, _, _, ⟨⟩, _⟩)
    | last hsize =>
      refine iff_of_false (not_breaksOff hsize (by simp)) ?_
      rintro ⟨ret, t', script', heq, -, hret'⟩
      exact hret' (HelperReturn.returned.inj heq).1.symm
    | skipped hsize hneg =>
      have hret' : (chunkHeader script t).ret ≠ 0 := fun hzero => hret _ _ (by rw [hzero])
      exact iff_of_true (.size hsize hneg hret')
        ⟨_, _, _, rfl, hret', (hheader.broken hret').2.2.ne_neg_one hcoded⟩
    | chunk => exact absurd rfl (hret _ _)
    | recvFailed hsize hpos hdata =>
      have hcode := chunkData_code hdata
      exact iff_of_true (.data hsize hpos (by simp [hdata]))
        ⟨_, _, _, rfl, hcode.ne_zero, hcode.ne_neg_one hcoded⟩
    | writeFailed hsize hpos hdata =>
      exact iff_of_true (.data hsize hpos (by simp [hdata])) ⟨_, _, _, rfl, by decide, by decide⟩
  | @skipped script t size hsize hneg hret h ih =>
    exact (breaksOff_of_neg hsize hneg hret).trans
      (ih (hcoded.of_suffix (chunkHeader_spec script t).suffix))
  | @chunk script t size hsize hpos hdata h ih =>
    exact (breaksOff_of_pos hsize hpos hdata).trans
      (ih (hcoded.of_suffix (chunkData_consumed ..).1))

end Chunks

/-! ## What is downloaded -/

theorem strstr_isSome {s needle : List UInt8} : (strstr s needle).isSome ↔ needle <:+: s := by
  rw [strstr, List.find?_isSome, List.infix_iff_prefix_suffix]
  simp [List.mem_tails, and_comm]

/-- Where the code finds a chunked body, the header says so. -/
theorem transferEncoding_of_isChunked {head : List UInt8} (h : (httpHeader head).isChunked) :
    (strstr head transferEncoding).isSome := by
  have hstring : head.takeWhile (· ≠ 0) <:+: head := (List.takeWhile_prefix _).isInfix
  rw [strstr_isSome]
  simp only [httpHeader] at h
  split at h
  · exact (strstr_isSome.mp h).trans hstring
  · split_ifs at h
    · exact (strstr_isSome.mp h).trans hstring
    · exact ((strstr_isSome.mp h).trans (List.take_prefix _ _).isInfix).trans hstring

namespace DownloadReturn

/-- A result that keeps the promise. -/
def Fine (r : DownloadReturn) : Prop :=
  ∃ ret t, r = .returned ret t ∧ (ret = 0 → t.failed = false ∧ Complete t.received t.file)

theorem fine_returned {ret : ℤ} {t : Transfer} :
    Fine (.returned ret t) ↔ (ret = 0 → t.failed = false ∧ Complete t.received t.file) :=
  ⟨fun ⟨_, _, heq, h⟩ => by cases heq; exact h, fun h => ⟨ret, t, rfl, h⟩⟩

theorem not_fine_fault : ¬ Fine .fault := by rintro ⟨_, _, ⟨⟩, _⟩

theorem fine_finish {ret : ℤ} {t : Transfer} (h : t.closed = false) : Fine (Download.finish ret t)
    ↔ (ret = -1 ∨ ret = 0 → t.failed = false ∧ Complete t.received t.file) := by
  rw [Download.finish, h]
  simp only [Bool.false_eq_true, if_false]
  rw [fine_returned]
  refine imp_congr_left ?_
  split_ifs with hret
  · simp [hret]
  · simp [hret, errTr50FilePutHttp]

end DownloadReturn

namespace Download

open DownloadReturn

variable {d : Download}

theorem coded (d : Download) : Coded d.script := d.codes.2.2

theorem not_complete_nil (file : List UInt8) : ¬ Complete [] file := by
  rintro ⟨head, body, ⟨⟩, -⟩

theorem head_spec (d : Download) :
    ReadsHeader 4 0 d.script (.start d.stream) d.head d.head.header := by
  obtain ⟨taken, hheader, hspec⟩ := readHeader_spec 4 d.script (.start d.stream) 0 []
  exact hheader ▸ hspec

theorem response_eq (d : Download) : d.response =
    match (if d.header.isChunked then
        (downloadChunks d.fwrite (d.head.script.length + 1) d.head.script
          d.head.transfer).getD .fault
      else tr50HelperReader d.fwrite d.head.script d.head.transfer (toInt32 d.header.fileSize)) with
    | .returned ret t _ => finish ret t
    | .fault => .fault := by
  rw [response, tr50HelperHttpHeaderMsgDecoder, header]
  by_cases h : httpOk.isPrefixOf d.head.header
  · have h' : httpOk.isPrefixOf (readHeader 4 d.script (.start d.stream) 0 []).header := h
    simp only [h, h', if_true]
    rfl
  · have h' : ¬ httpOk.isPrefixOf (readHeader 4 d.script (.start d.stream) 0 []).header := h
    simp only [h, h', Bool.false_eq_true, if_false]
    rfl

/-- The bytes of the header, and those behind it. -/
theorem cut_head {t : Transfer} {body : List UInt8} (htook : Consumed d.head.transfer t body)
    (hret : d.head.ret = 0) : cutLine 4 0 t.received = some (d.head.header, body) := by
  have hhead := d.head_spec
  rw [htook.received, hhead.took.received]
  exact (cutLine_append _ (hhead.whole hret).2.2).2

/-- What a complete body is behind this header. -/
theorem complete_iff {t : Transfer} {body : List UInt8} (htook : Consumed d.head.transfer t body)
    (hret : d.head.ret = 0) : Complete t.received t.file
      ↔ httpOk <+: d.head.header ∧ BodyComplete d.head.header body t.file := by
  have hcut := cut_head htook hret
  refine ⟨?_, fun h => ⟨_, _, hcut, h⟩⟩
  rintro ⟨head, body', hcut', h⟩
  obtain ⟨rfl, rfl⟩ := Prod.mk.inj (Option.some.inj (hcut.symm.trans hcut'))
  exact h

/-- A header that has not come whole has failed. -/
theorem head_ret_of_not_failed {t : Transfer} {body : List UInt8}
    (htook : Consumed d.head.transfer t body) (hfailed : t.failed = false) : d.head.ret = 0 := by
  by_contra hret
  have hbroken := htook.failed (d.head_spec.broken hret).1
  rw [hfailed] at hbroken
  cases hbroken

/-! ### A body that is not chunked -/

theorem bodyComplete_self {head body : List UInt8} : BodyComplete head body body
    ↔ strstr head transferEncoding = none ∧ ∃ n, headerLength head = some n ∧ n ≤ body.length := by
  rw [BodyComplete]
  cases strstr head transferEncoding with
  | some _ =>
    refine iff_of_false (fun h => ?_) (by simp)
    exact absurd (Chunked.length_lt (by simpa using h)) (lt_irrefl _)
  | none => simp [List.take_prefix]

theorem reader_cases (fwrite : ℕ → Bool) (script : List TcpRecv) (t : Transfer) (filesize : ℤ)
    {r : DataRead} (hr : readData fwrite script t filesize.toNat = r) :
    (r.outcome = .done ∧ ∃ ret, (ret = -1 ∨ ret = 0)
      ∧ tr50HelperReader fwrite script t filesize = .returned ret r.transfer r.script)
    ∨ (∃ e, r.outcome = .recvFailed e
      ∧ tr50HelperReader fwrite script t filesize = .returned e r.transfer r.script)
    ∨ (r.outcome = .writeFailed ∧ tr50HelperReader fwrite script t filesize
      = .returned errTr50FileWriteFailed { r.transfer with closed := true } r.script) := by
  rw [tr50HelperReader, hr]
  by_cases hzero : filesize = 0
  · rw [hzero, Int.toNat_zero, readData_zero] at hr
    subst hr
    exact Or.inl ⟨rfl, -1, Or.inl rfl, if_pos hzero⟩
  · rw [if_neg hzero]
    cases hout : r.outcome with
    | done => exact Or.inl ⟨rfl, 0, Or.inr rfl, by simp only [hout]⟩
    | recvFailed e => exact Or.inr (Or.inl ⟨e, rfl, by simp only [hout]⟩)
    | writeFailed => exact Or.inr (Or.inr ⟨rfl, by simp only [hout]⟩)

theorem fine_plain (h : ¬ d.header.isChunked) :
    Fine d.response ↔ d.Interrupted ∨ d.Whole := by
  have hhead := d.head_spec
  obtain ⟨body, hspec⟩ := readData_spec d.fwrite d.head.script d.head.transfer d.size
  change ReadsData _ _ _ d.data body at hspec
  have hclosed : d.data.transfer.closed = false :=
    hspec.took.closed.trans (hhead.took.closed.trans rfl)
  rw [response_eq, Interrupted, Whole]
  simp only [h, Bool.false_eq_true, if_false]
  rcases reader_cases d.fwrite d.head.script d.head.transfer (toInt32 d.header.fileSize)
    (r := d.data) rfl with ⟨hout, ret, hret, hreader⟩ | ⟨e, hout, hreader⟩ | ⟨hout, hreader⟩
  · -- all the data have come that the code asks for
    obtain ⟨hfailed, hlength, -⟩ := hspec.done hout
    have hfile : d.data.transfer.file = body := by
      rw [hspec.file (by simp [hout]), hhead.file]
      rfl
    simp only [hreader, hout, reduceCtorEq, exists_false, false_or, true_and]
    rw [fine_finish hclosed, imp_iff_right hret]
    constructor
    · rintro ⟨hnot, hcomplete⟩
      have hhret := head_ret_of_not_failed hspec.took hnot
      rw [complete_iff hspec.took hhret, hfile, bodyComplete_self, hlength] at hcomplete
      exact ⟨hhret, hcomplete⟩
    · rintro ⟨hhret, hcomplete⟩
      refine ⟨hfailed.trans (hhead.whole hhret).1, ?_⟩
      rwa [complete_iff hspec.took hhret, hfile, bodyComplete_self, hlength]
  · obtain ⟨-, -, hcode⟩ := hspec.recvFailed e hout
    have hne := hcode.ne_neg_one (d.coded.of_suffix hhead.suffix)
    simp only [hreader, hout]
    refine iff_of_true ((fine_finish hclosed).mpr fun hret => ?_) (Or.inl ⟨e, rfl⟩)
    exact absurd hret (not_or.mpr ⟨hne, hcode.ne_zero⟩)
  · simp only [hreader, hout, finish, if_true]
    exact iff_of_false not_fine_fault (by simp)

/-! ### A chunked body -/

theorem fine_chunked (h : d.header.isChunked) : Fine d.response ↔ d.Interrupted ∨ d.Whole := by
  have hhead := d.head_spec
  have hcoded : Coded d.head.script := d.coded.of_suffix hhead.suffix
  obtain ⟨result, hresult⟩ := Option.isSome_iff_exists.mp
    (downloadChunks_isSome d.fwrite (t := d.head.transfer) (Nat.lt_succ_self d.head.script.length))
  have hrun := chunkRun hresult
  have hbreaks := hrun.breaksOff_iff hcoded
  have hok : httpOk.isPrefixOf d.head.header := by
    by_contra hnot
    rw [header, if_neg hnot] at h
    cases h
  have hte : (strstr d.head.header transferEncoding).isSome := by
    rw [header, if_pos hok] at h
    exact transferEncoding_of_isChunked h
  rw [response_eq, Interrupted, Whole]
  simp only [h, if_true, hresult, Option.getD_some]
  rw [hbreaks]
  -- an empty body ends the loop at once
  have hempty : IsSizeLine d.firstChunk.header 0 → d.firstChunk.header.length ≤ readSize →
      result = .returned (-1) d.firstChunk.transfer d.firstChunk.script := fun hline hlength =>
    hrun.of_zero (chunkSize_of_isSizeLine hline (by norm_num) hlength)
  cases result with
  | fault =>
    refine iff_of_false not_fine_fault ?_
    rintro (⟨_, _, _, ⟨⟩, _⟩ | ⟨_, _, hline, hlength⟩)
    cases hempty hline hlength
  | returned ret t script =>
    obtain ⟨wire, htook⟩ := hrun.took
    have hclosed : t.closed = false := htook.closed.trans (hhead.took.closed.trans rfl)
    simp only
    rw [fine_finish hclosed]
    by_cases hret : ret = -1
    · subst hret
      rw [imp_iff_right (Or.inl rfl), or_iff_right]
      · constructor
        · rintro ⟨hnot, hcomplete⟩
          have hhret := head_ret_of_not_failed htook hnot
          rw [complete_iff htook hhret, BodyComplete, if_pos hte] at hcomplete
          exact ⟨hhret, hcomplete.1, hrun.isSizeLine hcoded hnot htook hcomplete.2⟩
        · rintro ⟨hhret, hstatus, hline, hlength⟩
          obtain ⟨-, rfl, -⟩ := HelperReturn.returned.inj (hempty hline hlength)
          have hfirst := chunkHeader_spec d.head.script d.head.transfer
          change ReadsHeader 2 0 _ _ d.firstChunk d.firstChunk.header at hfirst
          have hfret : d.firstChunk.ret = 0 := by
            by_contra hfret
            have hnone := (hfirst.broken hfret).2.1
            rw [hline.cut] at hnone
            cases hnone
          have hfile : d.firstChunk.transfer.file = [] := hfirst.file.trans hhead.file
          refine ⟨(hfirst.whole hfret).1.trans (hhead.whole hhret).1, ?_⟩
          rw [complete_iff hfirst.took hhret, BodyComplete, if_pos hte, hfile]
          exact ⟨hstatus, .last hline⟩
      · rintro ⟨_, _, _, heq, -, hne⟩
        exact hne (HelperReturn.returned.inj heq).1.symm
    · have hne : ret ≠ 0 := fun hzero => hrun.ret_ne_zero t script (by rw [hzero])
      exact iff_of_true (fun h => absurd h (not_or.mpr ⟨hret, hne⟩))
        (Or.inl ⟨ret, t, script, rfl, hne, hret⟩)

/-! ### The result -/

theorem fine_response : Fine d.response ↔ d.Interrupted ∨ d.Whole := by
  by_cases h : d.header.isChunked
  · exact fine_chunked h
  · exact fine_plain h

/-- A chunked response that breaks off behind its first chunk. -/
def truncated : Download where
  params := true
  get := 0
  fileId := true
  fopen := true
  connect := 0
  send := 0
  stream := cstring "HTTP/1.1 200 OK\r\nTransfer-Encoding: chunked\r\n\r\n5\r\nhello".toList
  script := List.replicate 60 (.piece 1024)
  fwrite _ := true
  codes := by
    refine ⟨by decide, by decide, fun e he hmem => ?_⟩
    cases List.eq_of_mem_replicate hmem

end Download

end Tr50
