import Mathlib.Data.List.DropRight
import Tr50.Machinery.Lines
import Tr50.Util.Blob
import Tr50.Worker.Download
import Tr50.Worker.Upload

/-!
# Worker/Response — the head of a response

`tr50_helper_http_header_msg_decoder` on a status line, header fields and an empty line
(`ResponseHead`), taken in byte by byte into a blob of its own.  It takes the head and no more, but
makes of it what it should only for some (`decodes_iff`): the result is that of the last receive
whatever the status is; a length is read in base 16, from behind the first `"Content-Length: "`
there is; and `strtok` has ended the text there when `"Transfer-Encoding: chunked"` is looked for.
-/

namespace Tr50

open Machinery

/-! ## The code -/

/-- `tr50_helper_http_header_msg_decoder`, with the blob it appends to. -/
def headerMsgDecoder (script : List TcpRecv) (t : Transfer) :
    Option (ℤ × Option HttpHeader × Transfer × List TcpRecv) :=
  (blobRun 512 (byteOps (readHeader 4 script t 0 []).header)).map fun _ =>
    tr50HelperHttpHeaderMsgDecoder script t

/-- What `tr50_helper_file_upload` returns, `ret` being that of the response. -/
def fileUploadReturn (ret : ℤ) : ℤ := if ret = -1 then errTr50FilePutHttp else ret

/-! ## Heads -/

/-- Bytes within a line of text. -/
def Plain (s : List UInt8) : Prop := ∀ c ∈ s, c ≠ 0 ∧ ¬ isLineEnd c

def isBlank (c : UInt8) : Bool := c = 32 ∨ c = 9

/-- A header field; `value` is all that stands behind the colon. -/
structure HeaderField where
  name : List UInt8
  value : List UInt8
  plain : Plain name ∧ Plain value

namespace HeaderField

def line (field : HeaderField) : List UInt8 := field.name ++ ch ':' :: field.value

/-- The value without the blanks around it. -/
def content (field : HeaderField) : List UInt8 :=
  (field.value.dropWhile isBlank).rdropWhile isBlank

/-- Names go without regard to case. -/
def Named (field : HeaderField) (name : String) : Prop :=
  field.name.map tolower = (cstring name.toList).map tolower

instance (field : HeaderField) (name : String) : Decidable (field.Named name) :=
  inferInstanceAs (Decidable (_ = _))

end HeaderField

/-- A status line and header fields. -/
structure ResponseHead where
  version : List UInt8
  status : List UInt8
  /-- What stands behind the status, its blank included. -/
  reason : List UInt8
  fields : List HeaderField
  version_form : ∃ major minor, isDigit major ∧ isDigit minor
    ∧ version = cstring "HTTP/".toList ++ [major, ch '.', minor]
  status_form : status.length = 3 ∧ ∀ c ∈ status, isDigit c
  reason_form : Plain reason ∧ ∀ c ∈ reason.head?, c = 32
  /-- A length is a decimal number. -/
  length_form : ∀ field ∈ fields, field.Named "Content-Length" →
    field.content ≠ [] ∧ ∀ c ∈ field.content, isDigit c

namespace ResponseHead

def statusLine (head : ResponseHead) : List UInt8 :=
  head.version ++ (ch ' ' :: head.status) ++ head.reason

def lines (head : ResponseHead) : List (List UInt8) :=
  head.statusLine :: head.fields.map HeaderField.line

def text (head : ResponseHead) : List UInt8 := joinLines head.lines ++ crlf

/-- The `Content-Length` header. -/
def lengthField (head : ResponseHead) : Option HeaderField :=
  head.fields.find? (·.Named "Content-Length")

/-- Its decimal value, or `-1`. -/
def fileSize (head : ResponseHead) : ℤ :=
  match head.lengthField with
  | some field => decNat field.content
  | none => -1

/-- There is a `Transfer-Encoding: chunked`. -/
def isChunked (head : ResponseHead) : Bool :=
  head.fields.any fun field => field.Named "Transfer-Encoding"
    ∧ field.content.map tolower = cstring "chunked".toList

end ResponseHead

/-- What the decoder should do with a head that comes: take it; refuse it if its status is not 200;
and else say its length, and whether it is chunked. -/
def Decodes (head : ResponseHead) (rest : List UInt8) (t : Transfer) (script : List TcpRecv)
    (decoded : Option (ℤ × Option HttpHeader × Transfer × List TcpRecv)) : Prop :=
  ∃ ret header t', decoded = some (ret, header, t', script)
    ∧ t'.stream = rest ∧ t'.received = t.received ++ head.text
    ∧ (head.status ≠ cstring "200".toList → ret ≠ 0 ∧ fileUploadReturn ret ≠ 0)
    ∧ (head.status = cstring "200".toList →
      ret = 0 ∧ header = some ⟨head.isChunked, head.fileSize⟩)

/-! ## What is read -/

/-- The text that is read as a length: what stands behind the first `"Content-Length: "`, or, where
that is nothing, the next line. -/
def lengthText : List (List UInt8) → Option (List UInt8)
  | [] => none
  | line :: lines =>
    match strstr line contentLength with
    | none => lengthText lines
    | some tmpbuf => if tmpbuf.drop 16 = [] then lines.head? else some (tmpbuf.drop 16)

/-- The length is the one in the header. -/
inductive ResponseHead.LengthRead (head : ResponseHead) : Prop
  | absent (hfield : head.lengthField = none) (htext : lengthText head.lines = none)
  /-- It is what is read, and of one digit — or the largest `long`, for which too much is taken. -/
  | own (field : HeaderField) (text : List UInt8) (hfield : head.lengthField = some field)
    (htext : lengthText head.lines = some text) (hvalue : field.value = 32 :: text)
    (hsize : decNat field.content < 10 ∨ decNat field.content = 2 ^ 63 - 1)
  /-- Something else is read, and says the same in base 16. -/
  | elsewhere (text : List UInt8) (htext : lengthText head.lines = some text)
    (hother : ∀ field ∈ head.lengthField, field.value ≠ 32 :: text)
    (hsize : (strtol16 text).1 = head.fileSize)

def chunkedLine : List UInt8 := cstring "Transfer-Encoding: chunked".toList

/-- Of the lines before the first `"Content-Length: "` one ends so. -/
def ChunkedBefore (lines : List (List UInt8)) : Prop :=
  ∃ line ∈ lines.takeWhile fun line => strstr line contentLength = none, chunkedLine <:+ line

instance (lines : List (List UInt8)) : Decidable (ChunkedBefore lines) :=
  inferInstanceAs (Decidable (∃ line ∈ _, _))

theorem transferEncoding_eq : transferEncoding = chunkedLine ++ crlf := by decide

theorem Plain.unbroken {line : List UInt8} (h : Plain line) : Unbroken line :=
  fun c hc => (h c hc).2

theorem plain_of_all {s : List UInt8} (h : s.all fun c => c ≠ 0 ∧ ¬ isLineEnd c) : Plain s :=
  fun c hc => by simpa using List.all_eq_true.mp h c hc

theorem unbroken_contentLength : Unbroken contentLength := (plain_of_all (by decide)).unbroken

theorem unbroken_chunkedLine : Unbroken chunkedLine := (plain_of_all (by decide)).unbroken

section Lines

variable {lines : List (List UInt8)} {line text : List UInt8}

theorem strstr_eq_search (s needle : List UInt8) : strstr s needle = search needle s := rfl

theorem contentLength_ne_nil : contentLength ≠ [] := by decide

theorem chunkedLine_ne_nil : chunkedLine ≠ [] := by decide

/-- Whether the coding is found in a text of lines and what else there is. -/
theorem strstr_transferEncoding (h : ∀ line ∈ lines, Unbroken line) :
    (strstr (joinLines lines ++ text) transferEncoding).isSome
      ↔ (∃ line ∈ lines, chunkedLine <:+ line)
        ∨ (strstr text transferEncoding).isSome := by
  simp only [strstr_eq_search, search_isSome_iff, transferEncoding_eq,
    infix_joinLines_iff unbroken_chunkedLine chunkedLine_ne_nil h]

theorem strstr_transferEncoding_unbroken (h : Unbroken line) :
    (strstr line transferEncoding).isSome = false := by
  rw [← Bool.not_eq_true, strstr_eq_search, search_isSome_iff, transferEncoding_eq]
  exact not_infix_unbroken h

/-- The first line that says a length, if one does. -/
theorem strstr_cases (lines : List (List UInt8)) :
    (∀ line ∈ lines, strstr line contentLength = none)
      ∨ ∃ before line after tmpbuf, lines = before ++ line :: after
        ∧ (∀ line ∈ before, strstr line contentLength = none)
        ∧ strstr line contentLength = some tmpbuf := search_cases contentLength lines

section First

variable {before after : List (List UInt8)} {tmpbuf : List UInt8}

theorem chunkedBefore_of_forall (h : ∀ line ∈ lines, strstr line contentLength = none) :
    ChunkedBefore lines ↔ ∃ line ∈ lines, chunkedLine <:+ line := by
  have htake : lines.takeWhile (fun line => strstr line contentLength = none) = lines :=
    List.takeWhile_eq_self_iff.mpr fun line hmem => by simpa using h line hmem
  rw [ChunkedBefore, htake]

theorem chunkedBefore_append (h : ∀ line ∈ before, strstr line contentLength = none)
    (hline : strstr line contentLength = some tmpbuf) :
    ChunkedBefore (before ++ line :: after) ↔ ∃ line ∈ before, chunkedLine <:+ line := by
  have htake : (before ++ line :: after).takeWhile (fun line => strstr line contentLength = none)
      = before := by
    rw [List.takeWhile_append_of_pos fun line hmem => by simpa using h line hmem,
      List.takeWhile_cons_of_neg (by simp [hline]), List.append_nil]
  rw [ChunkedBefore, htake]

theorem lengthText_of_forall (h : ∀ line ∈ lines, strstr line contentLength = none) :
    lengthText lines = none := by
  induction lines with
  | nil => rfl
  | cons line lines ih =>
    rw [lengthText, h line List.mem_cons_self]
    exact ih fun line hmem => h line (List.mem_cons_of_mem _ hmem)

theorem lengthText_append (h : ∀ line ∈ before, strstr line contentLength = none)
    (hline : strstr line contentLength = some tmpbuf) :
    lengthText (before ++ line :: after)
      = if tmpbuf.drop 16 = [] then after.head? else some (tmpbuf.drop 16) := by
  induction before with
  | nil => rw [List.nil_append, lengthText, hline]
  | cons line before ih =>
    rw [List.cons_append, lengthText, h line List.mem_cons_self]
    exact ih fun line hmem => h line (List.mem_cons_of_mem _ hmem)

/-- A line that ends where the length should stand does not end in the coding. -/
theorem not_chunkedLine_suffix (hline : strstr line contentLength = some tmpbuf)
    (hnil : tmpbuf.drop 16 = []) : ¬ chunkedLine <:+ line := by
  obtain ⟨⟨value, rfl⟩, hfound⟩ := search_eq_some hline
  obtain rfl : value = [] := hnil
  rw [List.append_nil] at hfound
  intro hsuffix
  rcases List.suffix_or_suffix_of_suffix hfound hsuffix with h | h <;> exact absurd h (by decide)

/-- What `strtok` makes of the text: a token, and a terminator behind it. -/
theorem httpHeader_of_token {blob front value behind : List UInt8}
    (hblob : blob.takeWhile (· ≠ 0) = front ++ (crlf ++ behind))
    (hsearch : strstr (front ++ (crlf ++ behind)) contentLength = some tmpbuf)
    (htoken : (tmpbuf.drop 16).dropWhile isLineEnd = value ++ (crlf ++ behind))
    (hvalue : Unbroken value) :
    httpHeader blob = ⟨(strstr front transferEncoding).isSome, (strtol16 value).1⟩ := by
  have hne : value ++ (crlf ++ behind) ≠ [] := by simp [crlf]
  have hfront : (front ++ (crlf ++ behind)).length - (crlf ++ behind).length = front.length := by
    simp
  simp only [httpHeader, hblob, hsearch, htoken, if_neg hne, takeWhile_line hvalue,
    dropWhile_line hvalue, hfront, List.take_left]

end First

theorem takeWhile_joinLines (h : ∀ line ∈ lines, Plain line) :
    (joinLines lines ++ crlf).takeWhile (· ≠ 0) = joinLines lines ++ crlf := by
  rw [List.takeWhile_eq_self_iff]
  intro c hc
  have hends : ∀ c ∈ crlf, c ≠ 0 := by simp [crlf]
  rcases List.mem_append.mp hc with hc | hc
  · obtain ⟨line, hline, hmem⟩ := List.mem_flatMap.mp hc
    rcases List.mem_append.mp hmem with hmem | hmem
    · simpa using (h line hline c hmem).1
    · simpa using hends c hmem
  · simpa using hends c hc

/-- Where no line has a length. -/
theorem httpHeader_of_forall (h : ∀ line ∈ lines, Plain line)
    (hnone : ∀ line ∈ lines, strstr line contentLength = none) :
    httpHeader (joinLines lines ++ crlf) = ⟨ChunkedBefore lines, -1⟩ := by
  have hcrlf : (strstr crlf transferEncoding).isSome = false := by decide
  have hsearch : strstr (joinLines lines ++ crlf) contentLength = none :=
    search_joinLines unbroken_contentLength contentLength_ne_nil hnone
  have hchunked : (strstr (joinLines lines ++ crlf) transferEncoding).isSome
      = decide (ChunkedBefore lines) := by
    rw [Bool.eq_iff_iff, strstr_transferEncoding fun line hmem => (h line hmem).unbroken, hcrlf,
      decide_eq_true_iff, chunkedBefore_of_forall hnone]
    simp
  rw [httpHeader, takeWhile_joinLines h]
  simp only [hsearch, hchunked]

/-- The first length is that of the first line that has one. -/
theorem strstr_contentLength (after : List (List UInt8))
    (hbefore : ∀ line ∈ before, strstr line contentLength = none)
    (hline : strstr line contentLength = some tmpbuf) :
    strstr (joinLines (before ++ line :: after) ++ crlf) contentLength
      = some (tmpbuf ++ (crlf ++ (joinLines after ++ crlf))) := by
  rw [joinLines_append, joinLines_cons, List.append_assoc, List.append_assoc, List.append_assoc]
  refine (search_joinLines unbroken_contentLength contentLength_ne_nil hbefore).trans ?_
  rw [search_line unbroken_contentLength contentLength_ne_nil,
    show search contentLength line = _ from hline]
  rfl

section Measured

variable (h : ∀ line' ∈ before ++ line :: after, Plain line' ∧ line' ≠ [])
  (hbefore : ∀ line ∈ before, strstr line contentLength = none)
  (hline : strstr line contentLength = some tmpbuf)

include h hbefore hline

/-- Where nothing stands behind it the next line is taken for the length. -/
theorem httpHeader_of_nil (hnil : tmpbuf.drop 16 = []) :
    httpHeader (joinLines (before ++ line :: after) ++ crlf)
      = ⟨ChunkedBefore (before ++ line :: after),
        (after.head?.map fun text => (strtol16 text).1).getD (-1)⟩ := by
  have hunbroken : ∀ line' ∈ before ++ line :: after, Unbroken line' :=
    fun line' hmem => (h line' hmem).1.unbroken
  have hblob := takeWhile_joinLines fun line' hmem => (h line' hmem).1
  have hcrlf : (strstr crlf transferEncoding).isSome = false := by decide
  have hend := not_chunkedLine_suffix hline hnil
  have hsearch := strstr_contentLength after hbefore hline
  obtain ⟨⟨value, rfl⟩, -⟩ := search_eq_some hline
  obtain rfl : value = [] := hnil
  have hdrop : (contentLength ++ [] ++ (crlf ++ (joinLines after ++ crlf))).drop 16
      = crlf ++ (joinLines after ++ crlf) := rfl
  cases after with
  | nil =>
    -- no token
    have hchunked : (strstr (joinLines (before ++ [line]) ++ crlf) transferEncoding).isSome
        = decide (ChunkedBefore (before ++ [line])) := by
      rw [Bool.eq_iff_iff, strstr_transferEncoding hunbroken, hcrlf, decide_eq_true_iff,
        chunkedBefore_append hbefore hline]
      simp [or_and_right, exists_or, hend]
    rw [httpHeader, hblob]
    simp only [hsearch, hdrop, hchunked]
    rfl
  | cons next after =>
    -- the token is the next line
    obtain ⟨hnext, hne⟩ := h next (by simp)
    have htext : joinLines (before ++ line :: next :: after) ++ crlf
        = (joinLines (before ++ [line]) ++ next) ++ (crlf ++ (joinLines after ++ crlf)) := by
      simp
    have htoken : (crlf ++ (joinLines (next :: after) ++ crlf)).dropWhile isLineEnd
        = next ++ (crlf ++ (joinLines after ++ crlf)) := by
      rw [dropWhile_crlf, joinLines_cons, List.append_assoc, List.append_assoc,
        dropWhile_unbroken hnext.unbroken hne]
    rw [htext] at hsearch hblob ⊢
    rw [httpHeader_of_token hblob hsearch (by rw [hdrop, htoken]) hnext.unbroken]
    simp only [HttpHeader.mk.injEq, List.head?_cons, Option.map_some, Option.getD_some, and_true]
    rw [Bool.eq_iff_iff, strstr_transferEncoding fun line' hmem =>
        hunbroken line' (by simp at hmem ⊢; tauto),
      decide_eq_true_iff, chunkedBefore_append hbefore hline,
      strstr_transferEncoding_unbroken hnext.unbroken]
    simp [or_and_right, exists_or, hend]

/-- Where something does, the coding can only stand in front of it. -/
theorem httpHeader_of_ne_nil (hne : tmpbuf.drop 16 ≠ []) :
    httpHeader (joinLines (before ++ line :: after) ++ crlf)
      = ⟨ChunkedBefore (before ++ line :: after), (strtol16 (tmpbuf.drop 16)).1⟩ := by
  have hline' := (h line (by simp)).1.unbroken
  have hblob := takeWhile_joinLines fun line' hmem => (h line' hmem).1
  have hsearch := strstr_contentLength after hbefore hline
  obtain ⟨⟨value, rfl⟩, hfound⟩ := search_eq_some hline
  have hvalue : Unbroken value := hline'.of_suffix ((List.suffix_append _ _).trans hfound)
  have hdrop : (contentLength ++ value ++ (crlf ++ (joinLines after ++ crlf))).drop 16
      = value ++ (crlf ++ (joinLines after ++ crlf)) := by
    rw [List.append_assoc]
    rfl
  have htext : joinLines (before ++ line :: after) ++ crlf
      = (joinLines before ++ line) ++ (crlf ++ (joinLines after ++ crlf)) := by simp
  rw [htext] at hsearch hblob ⊢
  rw [httpHeader_of_token hblob hsearch (by rw [hdrop, dropWhile_unbroken hvalue hne]) hvalue]
  refine congrArg₂ HttpHeader.mk ?_ rfl
  rw [Bool.eq_iff_iff,
    strstr_transferEncoding fun line' hmem => (h line' (by simp [hmem])).1.unbroken,
    decide_eq_true_iff, chunkedBefore_append hbefore hline, strstr_transferEncoding_unbroken hline']
  simp

end Measured

/-- **What the decoder reads in a text of lines.** -/
theorem httpHeader_joinLines (h : ∀ line ∈ lines, Plain line ∧ line ≠ []) :
    httpHeader (joinLines lines ++ crlf) = ⟨ChunkedBefore lines,
      ((lengthText lines).map fun text => (strtol16 text).1).getD (-1)⟩ := by
  rcases strstr_cases lines with hnone | ⟨before, line, after, tmpbuf, rfl, hbefore, hline⟩
  · rw [httpHeader_of_forall (fun line hmem => (h line hmem).1) hnone, lengthText_of_forall hnone]
    rfl
  · rw [lengthText_append hbefore hline]
    split_ifs with hnil
    · exact httpHeader_of_nil h hbefore hline hnil
    · exact httpHeader_of_ne_nil h hbefore hline hnil

end Lines

/-! ## A length in base 16 -/

section Length

variable {digits : List UInt8} {field : HeaderField} {text : List UInt8}

theorem isHex_of_isDigit {c : UInt8} (h : isDigit c) : isHex c ∧ hexValue c = (c - ch '0').toNat
    ∧ hexValue c < 10 := by
  have hall : ∀ n : Fin 256, isDigit (UInt8.ofFin n) → isHex (UInt8.ofFin n)
      ∧ hexValue (UInt8.ofFin n) = (UInt8.ofFin n - ch '0').toNat
      ∧ hexValue (UInt8.ofFin n) < 10 := by
    decide +kernel
  exact hall c.toFin h

/-- A decimal number of one digit is the same in base 16, any other is smaller. -/
theorem decNat_hexNat (h : ∀ c ∈ digits, isDigit c) :
    decNat digits < 10 ∧ hexNat digits = decNat digits
      ∨ 10 ≤ decNat digits ∧ decNat digits < hexNat digits := by
  induction digits using List.reverseRecOn with
  | nil => exact Or.inl ⟨by decide, rfl⟩
  | append_singleton digits c ih =>
    obtain ⟨-, hvalue, hlt⟩ := isHex_of_isDigit (h c (by simp))
    have hdec : decNat (digits ++ [c]) = 10 * decNat digits + hexValue c := by
      rw [decNat, List.foldl_append, hvalue]
      rfl
    have hhex : hexNat (digits ++ [c]) = 16 * hexNat digits + hexValue c := by
      rw [hexNat, List.foldl_append]
      rfl
    have hsmaller := ih fun c hc => h c (List.mem_append_left _ hc)
    omega

theorem isBlank_cases {c : UInt8} (h : isBlank c) :
    (c = 32 ∨ 9 ≤ c ∧ c ≤ 13) ∧ ¬ isHex c ∧ c ≠ ch 'x' ∧ c ≠ ch 'X' := by
  rw [isBlank, decide_eq_true_iff] at h
  rcases h with rfl | rfl <;> decide

/-- Blanks in front of a number are passed over. -/
theorem strtol16_dropWhile (s : List UInt8) : strtol16 (s.dropWhile isBlank) = strtol16 s := by
  have hdrop : (s.dropWhile isBlank).dropWhile (fun c => c = 32 ∨ (9 ≤ c ∧ c ≤ 13))
      = s.dropWhile fun c => c = 32 ∨ (9 ≤ c ∧ c ≤ 13) := by
    induction s with
    | nil => rfl
    | cons c s ih =>
      by_cases hc : isBlank c
      · rw [List.dropWhile_cons_of_pos hc, ih,
          List.dropWhile_cons_of_pos (by simpa using (isBlank_cases hc).1)]
      · rw [List.dropWhile_cons_of_neg hc]
  simp only [strtol16, hdrop]

/-- **Where the header is what is read**, its digits are, in base 16. -/
theorem strtol16_value (hvalue : field.value = 32 :: text)
    (hform : field.content ≠ [] ∧ ∀ c ∈ field.content, isDigit c) :
    (strtol16 text).1 = min (2 ^ 63 - 1) (hexNat field.content : ℤ) := by
  have hcontent : field.content = (text.dropWhile isBlank).rdropWhile isBlank := by
    rw [HeaderField.content, hvalue, List.dropWhile_cons_of_pos (by decide)]
  rw [← strtol16_dropWhile, ← List.rdropWhile_append_rtakeWhile (p := isBlank)
      (l := text.dropWhile isBlank), ← hcontent,
    strtol16_digits hform.1 fun c hc => (isHex_of_isDigit (hform.2 c hc)).1]
  intro c hc
  exact (isBlank_cases (List.mem_rtakeWhile_imp (List.mem_of_mem_head? hc))).2

theorem strtol16_value_iff (hvalue : field.value = 32 :: text)
    (hform : field.content ≠ [] ∧ ∀ c ∈ field.content, isDigit c) :
    (strtol16 text).1 = decNat field.content
      ↔ decNat field.content < 10 ∨ decNat field.content = 2 ^ 63 - 1 := by
  rw [strtol16_value hvalue hform]
  have hcases := decNat_hexNat hform.2
  omega

end Length

namespace ResponseHead

variable {head : ResponseHead}

theorem fileSize_of_none (h : head.lengthField = none) : head.fileSize = -1 := by
  rw [fileSize, h]

theorem fileSize_of_some {field : HeaderField} (h : head.lengthField = some field) :
    head.fileSize = decNat field.content := by
  rw [fileSize, h]

/-- **The length comes out right** in these cases only. -/
theorem lengthRead_iff (head : ResponseHead) :
    ((lengthText head.lines).map fun text => (strtol16 text).1).getD (-1) = head.fileSize
      ↔ head.LengthRead := by
  cases htext : lengthText head.lines with
  | none =>
    constructor
    · intro h
      cases hfield : head.lengthField with
      | none => exact .absent hfield htext
      | some field =>
        rw [fileSize_of_some hfield, Option.map_none, Option.getD_none] at h
        omega
    · rintro (⟨hfield, -⟩ | ⟨_, _, _, htext', -⟩ | ⟨_, htext', -⟩)
      · rw [fileSize_of_none hfield]
        rfl
      · cases htext.symm.trans htext'
      · cases htext.symm.trans htext'
  | some text =>
    rw [Option.map_some, Option.getD_some]
    by_cases hown : ∃ field, head.lengthField = some field ∧ field.value = 32 :: text
    · obtain ⟨field, hfield, hvalue⟩ := hown
      have hfind : head.fields.find? (·.Named "Content-Length") = some field := hfield
      have hnamed : field.Named "Content-Length" := by simpa using List.find?_some hfind
      have hform := head.length_form field (List.mem_of_find?_eq_some hfind) hnamed
      rw [fileSize_of_some hfield, strtol16_value_iff hvalue hform]
      constructor
      · exact .own field text hfield htext hvalue
      · rintro (⟨hfield', -⟩ | ⟨field', -, hfield', -, -, hsize⟩ | ⟨text', htext', hother, -⟩)
        · cases hfield.symm.trans hfield'
        · obtain rfl := Option.some.inj (hfield.symm.trans hfield')
          exact hsize
        · obtain rfl := Option.some.inj (htext.symm.trans htext')
          exact absurd hvalue (hother field hfield)
    · constructor
      · exact .elsewhere text htext fun field hfield hvalue => hown ⟨field, hfield, hvalue⟩
      · rintro (⟨-, htext'⟩ | ⟨field, text', hfield, htext', hvalue, -⟩ | ⟨text', htext', -, hsize⟩)
        · cases htext.symm.trans htext'
        · obtain rfl := Option.some.inj (htext.symm.trans htext')
          exact absurd ⟨field, hfield, hvalue⟩ hown
        · obtain rfl := Option.some.inj (htext.symm.trans htext')
          exact hsize

end ResponseHead

/-! ## Heads that come -/

/-- **Bytes that come one by one are taken one by one**, up to where the head ends. -/
theorem readHeader_of_pieces {ends seen : ℕ} {line rest header : List UInt8}
    {pieces script : List TcpRecv} {t : Transfer}
    (hcut : cutLine ends seen line = some (line, [])) (hstream : t.stream = line ++ rest)
    (hpieces : ∀ ev ∈ pieces, ∃ n, ev = .piece n) (hlength : pieces.length = line.length) :
    readHeader ends (pieces ++ script) t seen header
      = ⟨0, header ++ line, { t with stream := rest, received := t.received ++ line }, script⟩ := by
  induction line generalizing seen header pieces t with
  | nil => cases hcut
  | cons c line ih =>
    obtain ⟨ev, pieces, rfl⟩ := List.exists_cons_of_length_eq_add_one hlength
    obtain ⟨n, rfl⟩ := hpieces ev List.mem_cons_self
    have hlen : pieceLen n 1 t.stream.length = 1 := by
      rw [pieceLen, hstream]
      simp
    have hrecv : t.recv 1 (.piece n)
        = (.ok [c], { t with stream := line ++ rest, received := t.received ++ [c] }) := by
      rw [Transfer.recv, hlen, if_neg Nat.one_ne_zero, hstream]
      rfl
    rw [List.cons_append, readHeader_step hrecv]
    rw [cutLine] at hcut
    have hnext : ∀ seen', cutLine ends seen' line = some (line, []) →
        readHeader ends (pieces ++ script)
            { t with stream := line ++ rest, received := t.received ++ [c] } seen' (header ++ [c])
          = ⟨0, header ++ c :: line,
            { t with stream := rest, received := t.received ++ c :: line }, script⟩ := by
      intro seen' hcut'
      rw [ih hcut' rfl (fun ev hev => hpieces ev (List.mem_cons_of_mem _ hev))
        (Nat.succ.inj hlength)]
      simp
    have hrest : ∀ {cut : Option (List UInt8 × List UInt8)},
        cut.map (fun cut => (c :: cut.1, cut.2)) = some (c :: line, []) →
        cut = some (line, []) := by
      intro cut h
      obtain ⟨⟨s, s'⟩, rfl, heq⟩ := Option.map_eq_some_iff.mp h
      obtain ⟨hs, rfl⟩ := Prod.mk.inj heq
      exact congrArg (fun s => some (s, [])) (List.cons.inj hs).2
    by_cases hc : isLineEnd c
    · rw [if_pos hc] at hcut ⊢
      by_cases hends : seen + 1 = ends
      · rw [if_pos hends] at hcut ⊢
        obtain ⟨hline, hnil⟩ := Prod.mk.inj (Option.some.inj hcut)
        obtain rfl : line = [] := (List.cons.inj hline).2.symm
        obtain rfl := List.length_eq_zero_iff.mp (Nat.succ.inj hlength)
        rfl
      · rw [if_neg hends] at hcut ⊢
        exact hnext _ (hrest hcut)
    · rw [if_neg hc] at hcut ⊢
      exact hnext _ (hrest hcut)

namespace ResponseHead

variable {head : ResponseHead}

theorem isDigit_plain {c : UInt8} (h : isDigit c) : c ≠ 0 ∧ ¬ isLineEnd c := by
  have hall : ∀ n : Fin 256, isDigit (UInt8.ofFin n) →
      UInt8.ofFin n ≠ 0 ∧ ¬ isLineEnd (UInt8.ofFin n) := by
    decide +kernel
  exact hall c.toFin h

theorem lines_plain (head : ResponseHead) : ∀ line ∈ head.lines, Plain line ∧ line ≠ [] := by
  intro line hmem
  rcases List.mem_cons.mp hmem with rfl | hmem
  · obtain ⟨major, minor, hmajor, hminor, hversion⟩ := head.version_form
    refine ⟨fun c hc => ?_, by simp [statusLine]⟩
    have hconst : Plain (cstring "HTTP/".toList) := plain_of_all (by decide)
    simp only [statusLine, hversion, List.mem_append, List.mem_cons, List.not_mem_nil,
      or_false] at hc
    rcases hc with ((hc | rfl | rfl | rfl) | rfl | hc) | hc
    · exact hconst c hc
    · exact isDigit_plain hmajor
    · decide
    · exact isDigit_plain hminor
    · decide
    · exact isDigit_plain (head.status_form.2 c hc)
    · exact head.reason_form.1 c hc
  · obtain ⟨field, -, rfl⟩ := List.mem_map.mp hmem
    refine ⟨fun c hc => ?_, by simp [HeaderField.line]⟩
    rcases List.mem_append.mp hc with hc | hc
    · exact field.plain.1 c hc
    · rcases List.mem_cons.mp hc with rfl | hc
      · decide
      · exact field.plain.2 c hc

/-- A head ends with its empty line. -/
theorem cutLine_text (head : ResponseHead) : cutLine 4 0 head.text = some (head.text, []) := by
  obtain ⟨hplain, hne⟩ := head.lines_plain head.statusLine List.mem_cons_self
  have hcut := cutLine_joinLines [] fun line hmem =>
    (head.lines_plain line hmem).imp_left Plain.unbroken
  rw [List.append_nil] at hcut
  refine Eq.trans ?_ hcut
  rw [text, lines, joinLines_cons, List.append_assoc, cutLine_unbroken hplain.unbroken hne,
    cutLine_unbroken hplain.unbroken hne]

/-- It begins with what the decoder compares it with if it says so. -/
theorem httpOk_isPrefixOf_iff (head : ResponseHead) : httpOk.isPrefixOf head.text
    ↔ head.version = cstring "HTTP/1.1".toList ∧ head.status = cstring "200".toList := by
  obtain ⟨major, minor, -, -, hversion⟩ := head.version_form
  have hlength : head.version.length = 8 := by
    rw [hversion]
    rfl
  have htext : head.text = head.version ++ (ch ' ' :: (head.status
      ++ (head.reason ++ (crlf ++ (joinLines (head.fields.map HeaderField.line) ++ crlf))))) := by
    simp [text, lines, statusLine]
  have hok : httpOk = cstring "HTTP/1.1".toList ++ (ch ' ' :: cstring "200".toList) := by decide
  rw [List.isPrefixOf_iff_prefix, htext, hok]
  constructor
  · rintro ⟨behind, hbehind⟩
    rw [List.append_assoc] at hbehind
    obtain ⟨hv, hs⟩ := List.append_inj hbehind (by rw [hlength]; rfl)
    rw [List.cons_append] at hs
    obtain ⟨hs', -⟩ := List.append_inj (List.cons.inj hs).2 (by rw [head.status_form.1]; rfl)
    exact ⟨hv.symm, hs'.symm⟩
  · rintro ⟨hv, hs⟩
    rw [hv, hs, ← List.cons_append, ← List.append_assoc]
    exact List.prefix_append _ _

end ResponseHead

/-- **A head that comes is taken in**, and what it says read, if it is a 200. -/
theorem headerMsgDecoder_text (head : ResponseHead) (fragmentation : ℕ → ℕ) (rest : List UInt8)
    (t : Transfer) (script : List TcpRecv) :
    headerMsgDecoder (fragments fragmentation head.text.length ++ script)
        { t with stream := head.text ++ rest }
      = if head.text.length < 2 ^ 30 then
          some (0, if httpOk.isPrefixOf head.text then some (httpHeader head.text) else none,
            { t with stream := rest, received := t.received ++ head.text }, script)
        else none := by
  have hread : readHeader 4 (fragments fragmentation head.text.length ++ script)
      { t with stream := head.text ++ rest } 0 []
      = ⟨0, head.text, { t with stream := rest, received := t.received ++ head.text }, script⟩ := by
    refine readHeader_of_pieces head.cutLine_text rfl (fun ev hev => ?_)
      (by rw [fragments, List.length_map, List.length_range]; rfl)
    obtain ⟨k, -, rfl⟩ := List.mem_map.mp hev
    exact ⟨fragmentation k, rfl⟩
  have hblob := @blobRun_bytes_isSome_iff 9 head.text (by decide)
  rw [show ((2 ^ 9 : ℕ) : ℤ) = 512 by norm_num] at hblob
  rw [headerMsgDecoder, tr50HelperHttpHeaderMsgDecoder, hread]
  by_cases hlen : head.text.length < 2 ^ 30
  · obtain ⟨blob, hrun⟩ := Option.isSome_iff_exists.mp (hblob.mpr hlen)
    rw [if_pos hlen, hrun, Option.map_some]
    split_ifs <;> rfl
  · rw [if_neg hlen, Option.not_isSome_iff_eq_none.mp (mt hblob.mp hlen), Option.map_none]

/-- **When a head is decoded as it should be**: it is a 200 of HTTP/1.1; an `int` counts the blob;
the length comes out right; and the coding, if it is there, stands in front of the length — and only
then. -/
theorem decodes_iff (head : ResponseHead) (fragmentation : ℕ → ℕ) (rest : List UInt8)
    (t : Transfer) (script : List TcpRecv) :
    Decodes head rest t script
        (headerMsgDecoder (fragments fragmentation head.text.length ++ script)
          { t with stream := head.text ++ rest })
      ↔ head.version = cstring "HTTP/1.1".toList ∧ head.status = cstring "200".toList
        ∧ head.text.length < 2 ^ 30 ∧ head.LengthRead
        ∧ (head.isChunked ↔ ChunkedBefore head.lines) := by
  have hheader : httpHeader head.text = ⟨ChunkedBefore head.lines,
      ((lengthText head.lines).map fun text => (strtol16 text).1).getD (-1)⟩ :=
    httpHeader_joinLines head.lines_plain
  rw [headerMsgDecoder_text, ← head.lengthRead_iff]
  by_cases hlen : head.text.length < 2 ^ 30
  · rw [if_pos hlen]
    constructor
    · rintro ⟨ret, header, t', hdecoded, -, -, hother, hok⟩
      obtain ⟨rfl, hrest⟩ := Prod.mk.inj (Option.some.inj hdecoded)
      have hstatus : head.status = cstring "200".toList := by
        by_contra hne
        exact (hother hne).1 rfl
      obtain ⟨-, rfl⟩ := hok hstatus
      have hsaid := (Prod.mk.inj hrest).1
      split_ifs at hsaid with hprefix
      rw [hheader] at hsaid
      obtain ⟨hchunked, hsize⟩ := HttpHeader.mk.inj (Option.some.inj hsaid)
      refine ⟨(head.httpOk_isPrefixOf_iff.mp hprefix).1, hstatus, hlen, hsize, ?_⟩
      rw [← hchunked, decide_eq_true_iff]
    · rintro ⟨hversion, hstatus, -, hsize, hchunked⟩
      refine ⟨_, _, _, rfl, rfl, rfl, fun hne => absurd hstatus hne, fun _ => ⟨rfl, ?_⟩⟩
      rw [if_pos (head.httpOk_isPrefixOf_iff.mpr ⟨hversion, hstatus⟩), hheader, hsize]
      have hbool : decide (ChunkedBefore head.lines) = head.isChunked := by
        rw [Bool.eq_iff_iff, hchunked, decide_eq_true_iff]
      rw [hbool]
  · rw [if_neg hlen]
    refine iff_of_false ?_ fun h => hlen h.2.2.1
    rintro ⟨_, _, _, hdecoded, -⟩
    cases hdecoded

/-- A response that is an error. -/
def notFound : ResponseHead where
  version := cstring "HTTP/1.1".toList
  status := cstring "404".toList
  reason := []
  fields := []
  version_form := ⟨ch '1', ch '1', by decide, by decide, by decide⟩
  status_form := ⟨rfl, List.all_eq_true.mp (by decide)⟩
  reason_form := by simp [Plain]
  length_form := by simp

/-- **It passes for one that is none.** -/
theorem not_decodes_notFound :
    ¬ Decodes notFound [] (.start []) [] (headerMsgDecoder
        (fragments (fun _ => 1) notFound.text.length ++ [])
        { Transfer.start [] with stream := notFound.text ++ [] }) := by
  rw [headerMsgDecoder_text, if_pos (by decide)]
  rintro ⟨ret, header, t', hdecoded, -, -, hother, -⟩
  obtain ⟨rfl, -⟩ := Prod.mk.inj (Option.some.inj hdecoded)
  exact (hother (by decide)).1 rfl

end Tr50
