import Tr50.Util.Send
import Tr50.Worker.Http

/-!
# Worker/Upload — what is sent, and whether it can be read

The body that `tr50_helper_file_upload` sends: every `fread` in a chunk, and the last chunk.  It is
what the coding asks for: whoever decodes it by the rules gets the file (`uploadBody_decodes`).  Fed
to the loop of `tr50_file_download` it comes back up to its first chunk and no further
(`uploadRead`): `tr50_helper_chunked_reader` leaves the line end behind a chunk's data, and takes it
for a header of its own, of size zero.
-/

namespace Tr50

open Machinery

/-- What `fread` makes of a file. -/
structure FileReads where
  reads : List (List UInt8)
  nonempty : ∀ stream ∈ reads, stream ≠ []
  bounded : ∀ stream ∈ reads, stream.length ≤ 1024

def FileReads.content (f : FileReads) : List UInt8 := f.reads.flatten

/-- What the loop of `tr50_helper_file_upload`, and the line behind it, hand to `_tcp_send`. -/
def uploadSends : List (List UInt8) → List (List UInt8)
  | [] => [cstring "0\r\n\r\n".toList]
  | stream :: reads => (hexText stream.length ++ crlf) :: stream :: crlf :: uploadSends reads

def uploadBody (f : FileReads) : List UInt8 := (uploadSends f.reads).flatten

/-- Receives that take what `fragmentation` says, or what is there. -/
def fragments (fragmentation : ℕ → ℕ) (n : ℕ) : List TcpRecv :=
  (List.range n).map fun k => .piece (fragmentation k)

/-- What the loop of `tr50_file_download` writes of a body. -/
def readBack (fragmentation : ℕ → ℕ) (body : List UInt8) : Option (List UInt8) :=
  match downloadChunks (fun _ => true) (body.length + 1) (fragments fragmentation body.length)
    (.start body) with
  | some (.returned _ t _) => some t.file
  | _ => none

/-! ## What is sent -/

theorem flatten_uploadSends (reads : List (List UInt8)) :
    (uploadSends reads).flatten = encodeChunks reads ++ crlf := by
  induction reads with
  | nil =>
    rw [encodeChunks, hexText_of_lt (by norm_num)]
    rfl
  | cons stream reads ih =>
    simp [uploadSends, ih, encodeChunks, chunk, List.append_assoc]

/-- **The body is chunks with the file's content**, up to the last header. -/
theorem chunked_uploadBody (f : FileReads) : ∃ wire, uploadBody f = wire ++ crlf
    ∧ Chunked (2 ^ 31) wire f.content := by
  have hbounded : ∀ block ∈ f.reads, block ≠ [] ∧ block.length < 2 ^ 31 := fun block hmem =>
    ⟨f.nonempty block hmem, (f.bounded block hmem).trans_lt (by norm_num)⟩
  exact ⟨encodeChunks f.reads, flatten_uploadSends _, chunked_encode hbounded⟩

/-- One `_tcp_send` after the other, up to the first that fails: the last code, and what the system
has taken.  Its answers to the `k`-th are `sys k`. -/
def sendAll (sys : ℕ → List SysSend) : (k : ℕ) → List (List UInt8) → Option ℤ × List UInt8
  | _, [] => (some 0, [])
  | k, buffer :: buffers =>
    let run := tcpSend true buffer 5000 (sys k)
    if run.code = some 0 then
      let rest := sendAll sys (k + 1) buffers
      (rest.1, accepted buffer run.offers ++ rest.2)
    else (run.code, accepted buffer run.offers)

/-- The system answers each offer of these sends. -/
def AllAnswered (sys : ℕ → List SysSend) : (k : ℕ) → List (List UInt8) → Prop
  | _, [] => True
  | k, buffer :: buffers =>
    (∀ o ∈ (tcpSend true buffer 5000 (sys k)).offers, o.Answered)
      ∧ AllAnswered sys (k + 1) buffers

/-- **Sends that succeed have handed everything over.** -/
theorem sendAll_taken {sys : ℕ → List SysSend} {k : ℕ} {buffers : List (List UInt8)}
    (hsys : AllAnswered sys k buffers) (h : (sendAll sys k buffers).1 = some 0) :
    (sendAll sys k buffers).2 = buffers.flatten := by
  induction buffers generalizing k with
  | nil => rfl
  | cons buffer buffers ih =>
    obtain ⟨hanswered, hrest⟩ := hsys
    rw [sendAll] at h ⊢
    by_cases hcode : (tcpSend true buffer 5000 (sys k)).code = some 0
    · simp only [if_pos hcode] at h ⊢
      have haccepted := (handsOver_tcpSend hanswered).zero_iff.mp hcode
      rw [haccepted.1, ih hrest h, List.flatten_cons]
    · simp only [if_neg hcode] at h
      exact absurd h hcode

/-- The sends are those of the chunks, and that of the last chunk, once. -/
theorem uploadSends_eq (reads : List (List UInt8)) :
    uploadSends reads = reads.flatMap (fun stream => [hexText stream.length ++ crlf, stream, crlf])
      ++ [cstring "0\r\n\r\n".toList] := by
  induction reads with
  | nil => rfl
  | cons stream reads ih => simp [uploadSends, ih]

/-- **What is sent decodes to the file**, up to its last byte: the chunks that come out of the body
have the file's content, each has data, and only the last send says the size zero. -/
theorem uploadBody_decodes (f : FileReads) (sys : ℕ → List SysSend)
    (hsys : AllAnswered sys 0 (uploadSends f.reads))
    (hsent : (sendAll sys 0 (uploadSends f.reads)).1 = some 0) :
    ∃ chunks, decodeChunked (sendAll sys 0 (uploadSends f.reads)).2 = some (chunks, [])
      ∧ chunks.flatten = f.content ∧ (∀ chunk ∈ chunks, chunk ≠ [])
      ∧ uploadSends f.reads
        = chunks.flatMap (fun chunk => [hexText chunk.length ++ crlf, chunk, crlf])
          ++ [cstring "0\r\n\r\n".toList] := by
  have hdecoded := decodeChunked_encode f.nonempty []
  rw [List.append_nil] at hdecoded
  refine ⟨f.reads, ?_, rfl, f.nonempty, uploadSends_eq f.reads⟩
  rw [sendAll_taken hsys hsent, flatten_uploadSends, hdecoded]

/-- A file read in two pieces, whose first bytes look like a chunk of their own. -/
def twoReads : FileReads := ⟨[[13, 10, 48], [65]], by simp, by simp⟩

theorem uploadSends_twoReads :
    uploadSends twoReads.reads
      = [[51, 13, 10], [13, 10, 48], [13, 10], [49, 13, 10], [65], [13, 10],
        [48, 13, 10, 13, 10]] := by
  rw [twoReads, uploadSends, uploadSends, hexText_of_lt (by simp), hexText_of_lt (by simp)]
  rfl

theorem uploadBody_decodes_twoReads :
    ∃ chunks, decodeChunked (sendAll (fun k => [⟨1, [3, 3, 2, 3, 1, 2, 5].getD k 0⟩]) 0
        (uploadSends twoReads.reads)).2 = some (chunks, [])
      ∧ chunks.flatten = twoReads.content ∧ (∀ chunk ∈ chunks, chunk ≠ [])
      ∧ uploadSends twoReads.reads
        = chunks.flatMap (fun chunk => [hexText chunk.length ++ crlf, chunk, crlf])
          ++ [cstring "0\r\n\r\n".toList] :=
  uploadBody_decodes twoReads (fun k => [⟨1, [3, 3, 2, 3, 1, 2, 5].getD k 0⟩])
    (by
      rw [uploadSends_twoReads]
      exact ⟨by decide, by decide, by decide, by decide, by decide, by decide, by decide, trivial⟩)
    (by rw [uploadSends_twoReads]; rfl)

/-! ## What is read -/

theorem flows_fragments (fragmentation : ℕ → ℕ) (body : List UInt8) :
    Flows (fragments fragmentation body.length) (.start body) := by
  refine ⟨fun ev hev => ?_, by simp [fragments, Transfer.start]⟩
  obtain ⟨k, -, rfl⟩ := List.mem_map.mp hev
  exact ⟨fragmentation k, rfl⟩

/-- Of a file without a byte none is written. -/
theorem readBack_nil (fragmentation : ℕ → ℕ) {f : FileReads} (h : f.reads = []) :
    readBack fragmentation (uploadBody f) = some [] := by
  have hbody : uploadBody f = [48, 13, 10] ++ crlf := by
    rw [uploadBody, h]
    rfl
  have hflows := flows_fragments fragmentation (uploadBody f)
  have hcut : cutLine 2 0 (Transfer.start (uploadBody f)).stream = some ([48, 13, 10], crlf) := by
    rw [hbody]
    rfl
  obtain ⟨t, script, hreader, hfile⟩ := hflows.stop hcut (by decide) fun _ => true
  rw [readBack, downloadChunks, hreader]
  exact congrArg some hfile

/-- **The first read is written, and no other.** -/
theorem readBack_cons (fragmentation : ℕ → ℕ) {f : FileReads} {stream : List UInt8}
    {reads : List (List UInt8)} (h : f.reads = stream :: reads) :
    readBack fragmentation (uploadBody f) = some stream := by
  have hmem : stream ∈ f.reads := h ▸ List.mem_cons_self
  have hbounded := f.bounded stream hmem
  have hbody : uploadBody f = (hexText stream.length ++ crlf)
      ++ (stream ++ (crlf ++ (uploadSends reads).flatten)) := by
    rw [uploadBody, h]
    simp [uploadSends]
  have hflows := flows_fragments fragmentation (uploadBody f)
  have hlength : (hexText stream.length ++ crlf).length ≤ readSize := by
    have hdigits := length_hexText_le 2 (n := stream.length) (by omega)
    simp only [List.length_append, crlf, List.length_cons, List.length_nil, readSize]
    omega
  obtain ⟨t, script, hreader, hflows', hstream, hfile⟩ := hflows.chunk hbody
    (isSizeLine_hexText _) (f.nonempty stream hmem) (by omega) hlength
  -- the line end behind the data is the next header
  have hcut : cutLine 2 0 t.stream = some (crlf, (uploadSends reads).flatten) := by
    rw [hstream]
    rfl
  obtain ⟨t', script', hreader', hfile'⟩ := hflows'.stop hcut chunkSize_crlf fun _ => true
  obtain ⟨fuel, hfuel⟩ : ∃ fuel, (uploadBody f).length = fuel + 1 := by
    refine Nat.exists_eq_succ_of_ne_zero fun hzero => ?_
    simp [hbody, crlf] at hzero
  rw [readBack, downloadChunks, hreader]
  simp only [if_true]
  rw [hfuel, downloadChunks, hreader']
  exact congrArg some (hfile'.trans hfile)

/-- **A body comes back if it is one chunk, or none.** -/
theorem uploadRead (f : FileReads) (fragmentation : ℕ → ℕ) :
    readBack fragmentation (uploadBody f) = some f.content ↔ f.reads.length ≤ 1 := by
  have hnonempty := f.nonempty
  rw [FileReads.content]
  cases hreads : f.reads with
  | nil => simp [readBack_nil fragmentation hreads]
  | cons stream reads =>
    rw [readBack_cons fragmentation hreads]
    cases reads with
    | nil => simp
    | cons stream' reads =>
      have hne : stream' ≠ [] := hnonempty stream' (by simp [hreads])
      simp [hne]

/-- **Two chunks do not come back.** -/
theorem not_uploadRead_twoReads : ¬ ∀ (f : FileReads) (fragmentation : ℕ → ℕ),
    readBack fragmentation (uploadBody f) = some f.content := by
  intro h
  have hread := h twoReads fun _ => 1
  rw [readBack_cons (fun _ => 1) (f := twoReads) rfl] at hread
  exact absurd hread (by decide)

end Tr50
