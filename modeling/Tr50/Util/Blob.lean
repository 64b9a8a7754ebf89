import Tr50.Util.Error
import Tr50.Util.Memory

/-!
# Util/Blob — a block of bytes that grows

`util/common/tr50.blob.c`.  A `_BLOB` appends at `len`; where what is left of its block does not do
with a byte to spare, `_blob_grow` moves it to a larger one and clears the new end.  So a blob is
its bytes over zeros (`Blob.holding`), and an append is an append (`blobAppend_holding`) at the size
`grownSize` says.

`blobRun_keeps` is what any sequence of calls leaves.  `blobRun_terminated_iff` says when the bytes
have a zero behind them: `_blob_grow` doubles the block or, where that is too little, makes it just
large enough, and then none is left.
-/

namespace Tr50

open Machinery

def blobDefaultSize : ℤ := 1024

/-- `_BLOB` -/
structure Blob where
  buffer : Buffer
  size : ℤ
  len : ℤ
  unused : ℤ

/-- `_blob_create`: its result and `*handle`, the two allocations being granted or not. -/
def blobCreate (malloc mallocBuffer : Bool) (initialLength : ℤ) : Option (ℤ × Option Blob) :=
  if malloc = false then some (errTr50Malloc, none)
  else
    let size := if initialLength ≤ 0 then blobDefaultSize else initialLength
    if mallocBuffer = false then some (errTr50Malloc, none)
    else
      (memoryMemset (Buffer.alloc size.toNat) 0 0 size).map fun buffer =>
        (0, some ⟨buffer, size, 0, size⟩)

/-- `_blob_clear` -/
def blobClear : Option Blob → Option (ℤ × Option Blob)
  | none => some (errTr50Badhandle, none)
  | some blob =>
    (memoryMemset blob.buffer 0 0 blob.size).map fun buffer =>
      (0, some ⟨buffer, blob.size, 0, blob.size⟩)

/-- `new_size` in `_blob_grow` -/
def Blob.newSize (blob : Blob) (additionalBytesNeeded : ℤ) : ℤ :=
  if additionalBytesNeeded - blob.unused > blob.size then additionalBytesNeeded + blob.len
  else blob.size * 2

/-- `_blob_grow` -/
def blobGrow (realloc : Bool) (blob : Blob) (additionalBytesNeeded : ℤ) : Option (ℤ × Blob) :=
  if additionalBytesNeeded < blob.unused then some (0, blob)
  else
    (intOf (additionalBytesNeeded - blob.unused)).bind fun _ =>
    (intOf (blob.newSize additionalBytesNeeded)).bind fun newSize =>
    if realloc = false then some (errTr50Malloc, blob)
    else
      (memoryMemset (blob.buffer.realloc newSize.toNat) blob.size 0 (newSize - blob.size)).map
        fun buffer => (0, ⟨buffer, newSize, blob.len, newSize - blob.len⟩)

/-- The bytes of `data`, or zeros, stored behind those of the blob. -/
def Blob.put (blob : Blob) (data : Option (List UInt8)) (dataLen : ℤ) : Option Buffer :=
  match data with
  | none => memoryMemset blob.buffer blob.len 0 dataLen
  | some src => memoryMemcpy blob.buffer blob.len src dataLen

/-- `_blob_append`; `data` is the block that the argument points to. -/
def blobAppend (realloc : Bool) (handle : Option Blob) (data : Option (List UInt8)) (dataLen : ℤ) :
    Option (ℤ × Option Blob) :=
  match handle with
  | none => some (errTr50Badhandle, none)
  | some blob =>
    (blobGrow realloc blob dataLen).bind fun (ret, blob) =>
      if ret < 0 then some (ret, some blob)
      else
        (blob.put data dataLen).map fun buffer =>
          (0, some ⟨buffer, blob.size, blob.len + dataLen, blob.unused - dataLen⟩)

/-! ## What a blob holds -/

/-- The size at which `_blob_grow` leaves a block of `size` bytes, `len` of them used, that `n` more
are to go to. -/
def grownSize (size len n : ℕ) : ℕ :=
  if n < size - len then size else if size + (size - len) < n then n + len else size * 2

/-- The bytes that an append adds. -/
def appended (data : Option (List UInt8)) (n : ℕ) : List UInt8 :=
  match data with
  | none => List.replicate n 0
  | some src => src.take n

/-- A blob of `size` bytes that holds `bs`. -/
def Blob.holding (bs : List UInt8) (size : ℕ) : Blob :=
  ⟨Buffer.padded (some 0) bs size, size, bs.length, size - bs.length⟩

section Grow

variable {bs : List UInt8} {size len n : ℕ}

/-- **The block is large enough**, whichever of the three it is. -/
theorem le_grownSize (h : len ≤ size) : len + n ≤ grownSize size len n := by
  unfold grownSize
  split_ifs <;> omega

theorem size_le_grownSize : size ≤ grownSize size len n := by
  unfold grownSize
  split_ifs <;> omega

/-- Past the old block the new one ends at most one doubling behind what it must hold. -/
theorem grownSize_le (h : len ≤ size) : grownSize size len n ≤ max size (2 * (len + n)) := by
  unfold grownSize
  split_ifs <;> omega

/-- A byte is left unless the append is as large as the doubled block. -/
theorem lt_grownSize_iff (h : len ≤ size) :
    len + n < grownSize size len n ↔ n < size + (size - len) := by
  unfold grownSize
  split_ifs <;> omega

theorem length_appended {data : Option (List UInt8)} (h : ∀ src ∈ data, n ≤ src.length) :
    (appended data n).length = n := by
  cases data with
  | none => exact List.length_replicate
  | some src => exact List.length_take_of_le (h src rfl)

theorem blobCreate_holding (initialLength : ℤ) : ∃ size : ℕ, 0 < size
    ∧ (size : ℤ) = (if initialLength ≤ 0 then blobDefaultSize else initialLength)
    ∧ blobCreate true true initialLength = some (0, some (Blob.holding [] size)) := by
  obtain ⟨size, hsize⟩ : ∃ size : ℕ,
      (if initialLength ≤ 0 then blobDefaultSize else initialLength) = size :=
    Int.eq_ofNat_of_zero_le (by rw [blobDefaultSize]; split_ifs <;> omega)
  have hpos : 0 < size := by
    rw [blobDefaultSize] at hsize
    split_ifs at hsize <;> omega
  refine ⟨size, hpos, hsize.symm, ?_⟩
  simp only [blobCreate, hsize, Bool.true_eq_false, if_false, Int.toNat_natCast,
    memoryMemset_of_nonneg, Buffer.alloc_memset, Option.map_some]
  simp [Blob.holding]

/-- Where there is no need for it a blob does not grow… -/
theorem blobGrow_small (realloc : Bool) (h : bs.length ≤ size) (hn : n < size - bs.length) :
    blobGrow realloc (.holding bs size) n = some (0, .holding bs size) :=
  if_pos (show (n : ℤ) < size - bs.length by omega)

/-- …and where it does, it asks for `grownSize` bytes, if an `int` counts them. -/
theorem blobGrow_large (realloc : Bool) (h : bs.length ≤ size) (hn : size - bs.length ≤ n) :
    blobGrow realloc (.holding bs size) n
      = if grownSize size bs.length n < 2 ^ 31 then
          some (if realloc then (0, .holding bs (grownSize size bs.length n))
            else (errTr50Malloc, .holding bs size))
        else none := by
  have hgrow : ¬ (n : ℤ) < (Blob.holding bs size).unused := by
    change ¬ (n : ℤ) < size - bs.length
    omega
  have hsize : (Blob.holding bs size).newSize n = grownSize size bs.length n := by
    rw [grownSize, if_neg (by omega)]
    change (if (n : ℤ) - (size - bs.length) > size then (n : ℤ) + bs.length else size * 2) = _
    split_ifs <;> omega
  have hle := @le_grownSize size bs.length n h
  rw [blobGrow, if_neg hgrow, hsize]
  by_cases hlt : grownSize size bs.length n < 2 ^ 31
  · have hmissing : -2 ^ 31 ≤ (n : ℤ) - (Blob.holding bs size).unused
        ∧ (n : ℤ) - (Blob.holding bs size).unused < 2 ^ 31 := by
      change -2 ^ 31 ≤ (n : ℤ) - (size - bs.length) ∧ (n : ℤ) - (size - bs.length) < 2 ^ 31
      omega
    rw [if_pos hlt, intOf_of_mem hmissing, Option.bind_some, intOf_of_mem (by omega),
      Option.bind_some]
    cases realloc with
    | false => rfl
    | true =>
      change (memoryMemset ((Buffer.padded (some 0) bs size).realloc _) size 0 (_ - size)).map _ = _
      rw [if_pos rfl, Int.toNat_natCast, ← Nat.cast_sub size_le_grownSize, memoryMemset_of_nonneg,
        Buffer.padded_realloc_memset h size_le_grownSize]
      rfl
  · rw [if_neg hlt, intOf_of_ge (n := grownSize size bs.length n) (by omega)]
    exact Option.bind_fun_none _

/-- What has room is stored behind the bytes. -/
theorem put_holding {data : Option (List UInt8)} (hdata : ∀ src ∈ data, n ≤ src.length)
    (h : bs.length + n ≤ size) :
    (Blob.holding bs size).put data n
      = some (Buffer.padded (some 0) (bs ++ appended data n) size) := by
  have hroom : bs.length + (appended data n).length ≤ size := by rwa [length_appended hdata]
  have hcopy := Buffer.padded_memcpy (c := some 0) hroom
  cases data with
  | none => exact (memoryMemset_of_nonneg _ _ _ n).trans hcopy
  | some src => exact (memoryMemcpy_of_le _ _ (hdata src rfl)).trans hcopy

variable {data : Option (List UInt8)}

/-- An append whose bytes have room, once the blob has grown. -/
theorem blobAppend_grown {realloc : Bool} {size' : ℕ} (hdata : ∀ src ∈ data, n ≤ src.length)
    (hgrow : blobGrow realloc (.holding bs size) n = some (0, .holding bs size'))
    (h : bs.length + n ≤ size') :
    blobAppend realloc (some (.holding bs size)) data n
      = some (0, some (.holding (bs ++ appended data n) size')) := by
  simp only [blobAppend, hgrow, Option.bind_some, lt_irrefl, if_false, put_holding hdata h,
    Option.map_some]
  simp [Blob.holding, length_appended hdata, sub_sub]

theorem blobAppend_small (realloc : Bool) (hdata : ∀ src ∈ data, n ≤ src.length)
    (h : bs.length ≤ size) (hn : n < size - bs.length) :
    blobAppend realloc (some (.holding bs size)) data n
      = some (0, some (.holding (bs ++ appended data n) size)) :=
  blobAppend_grown hdata (blobGrow_small realloc h hn) (by omega)

theorem blobAppend_large (hdata : ∀ src ∈ data, n ≤ src.length) (h : bs.length ≤ size)
    (hn : size - bs.length ≤ n) (hsize : grownSize size bs.length n < 2 ^ 31) :
    blobAppend true (some (.holding bs size)) data n
      = some (0, some (.holding (bs ++ appended data n) (grownSize size bs.length n))) :=
  blobAppend_grown hdata ((blobGrow_large true h hn).trans (if_pos hsize)) (le_grownSize h)

/-- A blob that cannot grow keeps what it holds. -/
theorem blobAppend_refused (h : bs.length ≤ size) (hn : size - bs.length ≤ n)
    (hsize : grownSize size bs.length n < 2 ^ 31) :
    blobAppend false (some (.holding bs size)) data n
      = some (errTr50Malloc, some (.holding bs size)) := by
  rw [blobAppend, blobGrow_large false h hn, if_pos hsize]
  rfl

/-- Past what an `int` counts nothing is promised. -/
theorem blobAppend_overflow (realloc : Bool) (h : bs.length ≤ size) (hn : size - bs.length ≤ n)
    (hsize : 2 ^ 31 ≤ grownSize size bs.length n) :
    blobAppend realloc (some (.holding bs size)) data n = none := by
  rw [blobAppend, blobGrow_large realloc h hn, if_neg (by omega)]
  rfl

/-- **The bytes of an append are in the blob, or it is as it was**, if the append returns. -/
theorem blobAppend_cases {realloc : Bool} {ret : ℤ} {blob : Option Blob}
    (hdata : ∀ src ∈ data, n ≤ src.length) (h : bs.length ≤ size)
    (happend : blobAppend realloc (some (.holding bs size)) data n = some (ret, blob)) :
    ret = 0 ∧ blob = some (.holding (bs ++ appended data n) (grownSize size bs.length n))
      ∨ ret = errTr50Malloc ∧ blob = some (.holding bs size) := by
  by_cases hn : n < size - bs.length
  · rw [blobAppend_small realloc hdata h hn] at happend
    obtain ⟨rfl, rfl⟩ := Prod.mk.inj (Option.some.inj happend)
    exact Or.inl ⟨rfl, by rw [grownSize, if_pos hn]⟩
  by_cases hsize : grownSize size bs.length n < 2 ^ 31
  · cases realloc with
    | true =>
      rw [blobAppend_large hdata h (not_lt.mp hn) hsize] at happend
      obtain ⟨rfl, rfl⟩ := Prod.mk.inj (Option.some.inj happend)
      exact Or.inl ⟨rfl, rfl⟩
    | false =>
      rw [blobAppend_refused h (not_lt.mp hn) hsize] at happend
      obtain ⟨rfl, rfl⟩ := Prod.mk.inj (Option.some.inj happend)
      exact Or.inr ⟨rfl, rfl⟩
  · rw [blobAppend_overflow realloc h (not_lt.mp hn) (not_lt.mp hsize)] at happend
    cases happend

end Grow

/-! ## Sequences of calls -/

/-- A call on a blob. -/
inductive BlobOp
  | append (data : Option (List UInt8)) (dataLen : ℤ)
  | clear

/-- The caller's part: a length that is not negative, and a block that has the bytes. -/
def BlobOp.Sound : BlobOp → Prop
  | append data dataLen => 0 ≤ dataLen ∧ ∀ src ∈ data, dataLen ≤ src.length
  | clear => True

/-- One call, its allocation granted. -/
def Blob.step (blob : Blob) : BlobOp → Option Blob
  | .append data dataLen => (blobAppend true (some blob) data dataLen).bind (·.2)
  | .clear => (blobClear (some blob)).bind (·.2)

/-- A blob from its creation on. -/
def blobRun (initialLength : ℤ) (ops : List BlobOp) : Option Blob :=
  (blobCreate true true initialLength).bind fun created => created.2.bind fun blob =>
    ops.foldlM Blob.step blob

/-- What a call leaves of the bytes there were. -/
def BlobOp.leave (bs : List UInt8) : BlobOp → List UInt8
  | append data dataLen => bs ++ appended data dataLen.toNat
  | clear => []

/-- Everything appended since the last clear. -/
def content (ops : List BlobOp) : List UInt8 := ops.foldl BlobOp.leave []

/-- The blob keeps `bs` at the front of its block, zeros behind them and its books in order. -/
structure Blob.Keeps (blob : Blob) (bs : List UInt8) : Prop where
  size : blob.size = blob.len + blob.unused
  unused : 0 ≤ blob.unused
  len : blob.len = bs.length
  block : blob.buffer.length = blob.size
  front : blob.buffer.take bs.length = bs.map some
  back : ∀ c ∈ blob.buffer.drop bs.length, c = some 0

/-- The byte at `len` is there, and ends a string. -/
def Blob.Terminated (blob : Blob) : Prop := blob.buffer[blob.len.toNat]? = some (some 0)

section Runs

variable {bs : List UInt8} {size : ℕ} {ops : List BlobOp} {initialLength : ℤ} {blob : Blob}

theorem keeps_holding (h : bs.length ≤ size) : (Blob.holding bs size).Keeps bs where
  size := (add_sub_cancel _ _).symm
  unused := sub_nonneg.mpr (by exact_mod_cast h)
  len := rfl
  block := congrArg _ (Buffer.length_padded h)
  front := by
    rw [Blob.holding, Buffer.padded, ← List.length_map (f := some), List.take_left]
  back c hc := by
    rw [Blob.holding, Buffer.padded, ← List.length_map (f := some), List.drop_left] at hc
    exact List.eq_of_mem_replicate hc

theorem terminated_holding_iff (h : bs.length ≤ size) :
    (Blob.holding bs size).Terminated ↔ bs.length < size := by
  rw [Blob.Terminated, Blob.holding, Int.toNat_natCast, Buffer.padded,
    ← List.length_map (f := some), List.getElem?_append_right le_rfl, Nat.sub_self, List.length_map,
    List.getElem?_replicate]
  split_ifs with hlt <;> simp <;> omega

theorem step_clear (h : bs.length ≤ size) :
    (Blob.holding bs size).step .clear = some (.holding [] size) := by
  have hclear := @Buffer.memcpy_over (List.replicate size 0) [] (Buffer.padded (some 0) bs size) []
    (by rw [Buffer.length_padded h, List.length_replicate])
  rw [List.nil_append, List.append_nil, List.append_nil, List.nil_append] at hclear
  have hset : memoryMemset (Blob.holding bs size).buffer 0 0 (Blob.holding bs size).size
      = some (Buffer.padded (some 0) [] size) :=
    (memoryMemset_of_nonneg _ _ _ size).trans (hclear.trans (by simp [Buffer.padded]))
  rw [Blob.step, blobClear, hset]
  simp [Blob.holding]

/-- One append, at the size the block has then. -/
theorem step_append {data : Option (List UInt8)} {n : ℕ} (hdata : ∀ src ∈ data, n ≤ src.length)
    (h : bs.length ≤ size) : (Blob.holding bs size).step (.append data n)
      = if n < size - bs.length ∨ grownSize size bs.length n < 2 ^ 31 then
          some (.holding (bs ++ appended data n) (grownSize size bs.length n))
        else none := by
  by_cases hn : n < size - bs.length
  · rw [if_pos (Or.inl hn), Blob.step, blobAppend_small true hdata h hn, grownSize, if_pos hn]
    rfl
  · by_cases hsize : grownSize size bs.length n < 2 ^ 31
    · rw [if_pos (Or.inr hsize), Blob.step, blobAppend_large hdata h (not_lt.mp hn) hsize]
      rfl
    · rw [if_neg (by tauto), Blob.step,
        blobAppend_overflow true h (not_lt.mp hn) (not_lt.mp hsize)]
      rfl

/-- **A call leaves its bytes**: the block stays large enough, and is never empty. -/
theorem step_holding {op : BlobOp} (hop : op.Sound) (h : bs.length ≤ size) (hpos : 0 < size)
    (hstep : (Blob.holding bs size).step op = some blob) :
    ∃ size', (op.leave bs).length ≤ size' ∧ 0 < size' ∧ blob = .holding (op.leave bs) size' := by
  cases op with
  | clear =>
    rw [step_clear h] at hstep
    exact ⟨size, Nat.zero_le _, hpos, (Option.some.inj hstep).symm⟩
  | append data dataLen =>
    obtain ⟨n, rfl⟩ := Int.eq_ofNat_of_zero_le hop.1
    have hdata : ∀ src ∈ data, n ≤ src.length := fun src hsrc => by exact_mod_cast hop.2 src hsrc
    rw [step_append hdata h] at hstep
    split_ifs at hstep
    refine ⟨_, ?_, hpos.trans_le size_le_grownSize, (Option.some.inj hstep).symm⟩
    rw [BlobOp.leave, List.length_append, Int.toNat_natCast, length_appended hdata]
    exact le_grownSize h

theorem blobRun_concat (op : BlobOp) : blobRun initialLength (ops ++ [op])
    = (blobRun initialLength ops).bind (Blob.step · op) := by
  obtain ⟨size, -, -, hcreate⟩ := blobCreate_holding initialLength
  simp [blobRun, hcreate, List.foldlM_append]

theorem content_concat (op : BlobOp) : content (ops ++ [op]) = op.leave (content ops) := by
  simp [content]

/-- **What a run has left is a blob that holds what was appended.** -/
theorem blobRun_holding (hsound : ∀ op ∈ ops, op.Sound)
    (h : blobRun initialLength ops = some blob) :
    ∃ size, (content ops).length ≤ size ∧ 0 < size ∧ blob = .holding (content ops) size := by
  induction ops using List.reverseRecOn generalizing blob with
  | nil =>
    obtain ⟨size, hpos, -, hcreate⟩ := blobCreate_holding initialLength
    rw [blobRun, hcreate] at h
    exact ⟨size, Nat.zero_le _, hpos, (Option.some.inj h).symm⟩
  | append_singleton ops op ih =>
    rw [blobRun_concat] at h
    obtain ⟨past, hpast, hstep⟩ := Option.bind_eq_some_iff.mp h
    obtain ⟨size, hle, hpos, rfl⟩ := ih (fun op hop => hsound op (List.mem_append_left _ hop)) hpast
    rw [content_concat]
    exact step_holding (hsound op (by simp)) hle hpos hstep

/-- **Any sequence of calls keeps the blob in order**, as long as less than `2 ^ 30` bytes have been
appended since the last clear; that it is there at all says that nothing has been written outside
its block. -/
theorem blobRun_keeps (initialLength : ℤ) (ops : List BlobOp) (hsound : ∀ op ∈ ops, op.Sound)
    (hlen : ∀ past, past <+: ops → (content past).length < 2 ^ 30) :
    ∃ blob, blobRun initialLength ops = some blob ∧ blob.Keeps (content ops) := by
  induction ops using List.reverseRecOn with
  | nil =>
    obtain ⟨size, -, -, hcreate⟩ := blobCreate_holding initialLength
    exact ⟨_, by rw [blobRun, hcreate]; rfl, keeps_holding (Nat.zero_le _)⟩
  | append_singleton ops op ih =>
    have hpast : ∀ op ∈ ops, op.Sound := fun op hop => hsound op (List.mem_append_left _ hop)
    obtain ⟨blob, hrun, -⟩ := ih hpast fun past h => hlen past (h.trans (List.prefix_append _ _))
    obtain ⟨size, hle, hpos, rfl⟩ := blobRun_holding hpast hrun
    have hop := hsound op (by simp)
    obtain ⟨next, hstep⟩ : ∃ next, (Blob.holding (content ops) size).step op = some next := by
      cases op with
      | clear => exact ⟨_, step_clear hle⟩
      | append data dataLen =>
        obtain ⟨n, rfl⟩ := Int.eq_ofNat_of_zero_le hop.1
        have hdata : ∀ src ∈ data, n ≤ src.length := fun src h => by exact_mod_cast hop.2 src h
        have hlt := hlen _ List.prefix_rfl
        rw [content_concat, BlobOp.leave, List.length_append, Int.toNat_natCast,
          length_appended hdata] at hlt
        refine ⟨_, (step_append hdata hle).trans (if_pos ?_)⟩
        unfold grownSize
        split_ifs <;> omega
    obtain ⟨size', hle', -, hnext⟩ := step_holding hop hle hpos hstep
    refine ⟨next, by rw [blobRun_concat, hrun]; exact hstep, ?_⟩
    rw [content_concat, hnext]
    exact keeps_holding hle'

theorem blobRun_keeps_cleared :
    ∃ blob, blobRun 3 [.append (some [1, 2]) 2, .clear, .append (some [3]) 1, .append none 2]
      = some blob ∧ blob.Keeps [3, 0, 0] :=
  blobRun_keeps 3 [.append (some [1, 2]) 2, .clear, .append (some [3]) 1, .append none 2]
    (by simp [BlobOp.Sound]) fun past h =>
      (by decide : ∀ past ∈ List.inits [BlobOp.append (some [1, 2]) 2, .clear, .append (some [3]) 1,
        .append none 2], (content past).length < 2 ^ 30) past ((List.mem_inits _ _).mpr h)

/-- An append leaves a terminator where it is smaller than twice the block, less what is used of it
— and where the block can be doubled, if it has to be. -/
theorem step_terminated_iff {data : Option (List UInt8)} {dataLen : ℤ}
    (hop : (BlobOp.append data dataLen).Sound) (h : bs.length ≤ size) :
    (∃ next, (Blob.holding bs size).step (.append data dataLen) = some next ∧ next.Terminated)
      ↔ dataLen < (Blob.holding bs size).unused ∨
        dataLen < (Blob.holding bs size).unused + (Blob.holding bs size).size
          ∧ (Blob.holding bs size).size * 2 < 2 ^ 31 := by
  obtain ⟨n, rfl⟩ := Int.eq_ofNat_of_zero_le hop.1
  have hdata : ∀ src ∈ data, n ≤ src.length := fun src hsrc => by exact_mod_cast hop.2 src hsrc
  have hlength := congrArg (bs.length + ·) (length_appended hdata)
  have hterminated : (Blob.holding (bs ++ appended data n) (grownSize size bs.length n)).Terminated
      ↔ n < size + (size - bs.length) := by
    rw [terminated_holding_iff (by rw [List.length_append, hlength]; exact le_grownSize h),
      List.length_append, hlength, lt_grownSize_iff h]
  rw [step_append hdata h]
  change _ ↔ (n : ℤ) < size - bs.length
    ∨ (n : ℤ) < size - bs.length + size ∧ (size : ℤ) * 2 < 2 ^ 31
  by_cases hroom : n < size - bs.length ∨ grownSize size bs.length n < 2 ^ 31
  · simp only [if_pos hroom, Option.some.injEq, exists_eq_left', hterminated]
    unfold grownSize at hroom
    split_ifs at hroom <;> omega
  · simp only [if_neg hroom, reduceCtorEq, false_and, exists_false, false_iff]
    unfold grownSize at hroom
    split_ifs at hroom <;> omega

/-- The same of the append that a run ends with. -/
theorem blobRun_append_terminated_iff {initialLength : ℤ} {past : List BlobOp}
    {data : Option (List UInt8)} {dataLen : ℤ} {blob : Blob}
    (hsound : ∀ op ∈ past ++ [.append data dataLen], op.Sound)
    (hrun : blobRun initialLength past = some blob) :
    (∃ next, blobRun initialLength (past ++ [.append data dataLen]) = some next
        ∧ next.Terminated)
      ↔ dataLen < blob.unused
        ∨ dataLen < blob.unused + blob.size ∧ blob.size * 2 < 2 ^ 31 := by
  obtain ⟨size, hle, -, rfl⟩ :=
    blobRun_holding (fun op hop => hsound op (List.mem_append_left _ hop)) hrun
  rw [blobRun_concat, hrun, Option.bind_some]
  exact step_terminated_iff (hsound _ (by simp)) hle

/-- Where no append fails, the calls go through. -/
theorem exists_blobRun {initialLength : ℤ} {ops : List BlobOp} (hsound : ∀ op ∈ ops, op.Sound)
    (happend : ∀ past data dataLen blob, past ++ [.append data dataLen] <+: ops →
      blobRun initialLength past = some blob →
        ∃ next, blobRun initialLength (past ++ [.append data dataLen]) = some next) :
    ∃ blob, blobRun initialLength ops = some blob := by
  induction ops using List.reverseRecOn with
  | nil =>
    obtain ⟨size, -, -, hcreate⟩ := blobCreate_holding initialLength
    exact ⟨_, by rw [blobRun, hcreate]; rfl⟩
  | append_singleton ops op ih =>
    have hpast : ∀ op ∈ ops, op.Sound := fun op hop => hsound op (List.mem_append_left _ hop)
    obtain ⟨blob, hrun⟩ := ih hpast fun past data dataLen blob h =>
      happend past data dataLen blob (h.trans (List.prefix_append _ _))
    cases op with
    | append data dataLen => exact happend ops data dataLen blob List.prefix_rfl hrun
    | clear =>
      obtain ⟨size, hle, -, rfl⟩ := blobRun_holding hpast hrun
      exact ⟨_, by rw [blobRun_concat, hrun]; exact step_clear hle⟩

/-- **The bytes are a C string after every append exactly where each is small enough**: smaller than
what is unused and the block together, and where the block has to grow it can be doubled.  One that
is larger, or that doubles the block and just fills it, leaves no terminator. -/
theorem blobRun_terminated_iff (initialLength : ℤ) (ops : List BlobOp)
    (hsound : ∀ op ∈ ops, op.Sound) :
    (∀ past data dataLen, past ++ [.append data dataLen] <+: ops →
        ∃ blob, blobRun initialLength (past ++ [.append data dataLen]) = some blob
          ∧ blob.Terminated)
      ↔ ∀ past data dataLen blob, past ++ [.append data dataLen] <+: ops →
        blobRun initialLength past = some blob →
          dataLen < blob.unused
          ∨ dataLen < blob.unused + blob.size ∧ blob.size * 2 < 2 ^ 31 := by
  have happend : ∀ past data dataLen blob, past ++ [.append data dataLen] <+: ops →
      blobRun initialLength past = some blob →
      ((∃ next, blobRun initialLength (past ++ [.append data dataLen]) = some next
          ∧ next.Terminated)
        ↔ dataLen < blob.unused
          ∨ dataLen < blob.unused + blob.size ∧ blob.size * 2 < 2 ^ 31) :=
    fun past data dataLen blob hpast hrun =>
      blobRun_append_terminated_iff (fun op hop => hsound op (hpast.subset hop)) hrun
  constructor
  · exact fun h past data dataLen blob hpast hrun =>
      (happend past data dataLen blob hpast hrun).mp (h past data dataLen hpast)
  · intro h past data dataLen hpast
    have hpastOps : past <+: ops := (List.prefix_append _ _).trans hpast
    obtain ⟨blob, hrun⟩ := exists_blobRun (fun op hop => hsound op (hpastOps.subset hop))
      fun before data dataLen blob hbefore hrun => by
        have hops := hbefore.trans hpastOps
        obtain ⟨next, hnext, -⟩ :=
          (happend before data dataLen blob hops hrun).mpr (h before data dataLen blob hops hrun)
        exact ⟨next, hnext⟩
    exact (happend past data dataLen blob hpast hrun).mpr (h past data dataLen blob hpast hrun)

theorem blobRun_terminated_iff_small :
    (∀ past data dataLen, past ++ [.append data dataLen] <+: [.append (some [1, 2]) 2] →
        ∃ blob, blobRun 3 (past ++ [.append data dataLen]) = some blob ∧ blob.Terminated)
      ↔ ∀ past data dataLen blob, past ++ [.append data dataLen] <+: [.append (some [1, 2]) 2] →
        blobRun 3 past = some blob →
          dataLen < blob.unused
          ∨ dataLen < blob.unused + blob.size ∧ blob.size * 2 < 2 ^ 31 :=
  blobRun_terminated_iff 3 [.append (some [1, 2]) 2] (by simp [BlobOp.Sound])

/-- A first append of at least twice the block fills the one it moves to. -/
theorem blobRun_full {n : ℕ} (hpos : 0 < size) (hn : 2 * size ≤ n) (hlt : n < 2 ^ 31) :
    blobRun size [.append none n] = some (.holding (List.replicate n 0) n) := by
  obtain ⟨size', -, hsize, hcreate⟩ := blobCreate_holding size
  obtain rfl : size' = size := by
    rw [if_neg (by omega)] at hsize
    exact_mod_cast hsize
  have hgrown : grownSize size' ([] : List UInt8).length n = n := by
    unfold grownSize
    rw [List.length_nil]
    split_ifs <;> omega
  have hstep := @step_append [] size' none n (by simp) (Nat.zero_le _)
  rw [hgrown, if_pos (Or.inr hlt)] at hstep
  rw [blobRun, hcreate]
  simp only [Option.bind_some, List.foldlM_cons, hstep]
  rfl

/-- The blob of `_compress_inflate`, and a reply of 512 bytes. -/
theorem blobRun_unterminated : ∃ blob, blobRun 256 [.append none 512] = some blob
    ∧ ¬ blob.Terminated := by
  have hrun := @blobRun_full 256 512 (by decide) (by decide) (by decide)
  refine ⟨_, hrun, fun h => ?_⟩
  rw [terminated_holding_iff (List.length_replicate.le)] at h
  exact absurd h (by rw [List.length_replicate]; decide)

/-! ## Byte by byte -/

/-- A blob that takes its bytes one by one. -/
def byteOps (bytes : List UInt8) : List BlobOp :=
  .clear :: bytes.map fun c => .append (some [c]) 1

/-- Its block is doubled as often as the bytes make it. -/
theorem blobRun_bytes {j : ℕ} {bytes : List UInt8} (hlen : bytes.length < 2 ^ 30)
    (hj : j ≤ 30) : ∃ m ≤ 30, blobRun (2 ^ j : ℕ) (byteOps bytes) = some (.holding bytes (2 ^ m))
      ∧ bytes.length < 2 ^ m ∧ (m = j ∨ 2 ^ m ≤ 2 * bytes.length) := by
  induction bytes using List.reverseRecOn with
  | nil =>
    obtain ⟨size, hpos, hsize, hcreate⟩ := blobCreate_holding (2 ^ j : ℕ)
    have hexp : (0 : ℤ) < (2 ^ j : ℕ) := by exact_mod_cast Nat.two_pow_pos j
    rw [if_neg (not_le.mpr hexp)] at hsize
    obtain rfl : size = 2 ^ j := by exact_mod_cast hsize
    refine ⟨j, hj, ?_, hpos, Or.inl rfl⟩
    have hclear : (Blob.holding [] (2 ^ j)).step .clear = some (.holding [] (2 ^ j)) :=
      step_clear (Nat.zero_le _)
    rw [blobRun, hcreate]
    simp only [byteOps, List.map_nil, Option.bind_some, List.foldlM_cons, List.foldlM_nil, hclear]
    rfl
  | append_singleton bytes c ih =>
    rw [List.length_append, List.length_singleton] at hlen
    obtain ⟨m, hm, hrun, hlt, hsize⟩ := ih (by omega)
    have hstep := @step_append bytes (2 ^ m) (some [c]) 1 (by simp) hlt.le
    have hnext : blobRun (2 ^ j : ℕ) (byteOps (bytes ++ [c]))
        = (Blob.holding bytes (2 ^ m)).step (.append (some [c]) 1) := by
      rw [byteOps, List.map_append, ← List.cons_append, List.map_singleton, blobRun_concat]
      exact congrArg (Option.bind · _) hrun
    rw [hnext, List.length_append, List.length_singleton]
    by_cases hroom : bytes.length + 1 < 2 ^ m
    · have hgrown : grownSize (2 ^ m) bytes.length 1 = 2 ^ m := if_pos (by omega)
      refine ⟨m, hm, ?_, hroom, by omega⟩
      exact hstep.trans (by rw [hgrown, if_pos (Or.inl (by omega))]; rfl)
    · have hgrown : grownSize (2 ^ m) bytes.length 1 = 2 ^ (m + 1) := by
        rw [grownSize, if_neg (by omega), if_neg (by omega), pow_succ]
      have hm' : m < 30 := (Nat.pow_lt_pow_iff_right (by decide : 1 < 2)).mp (by omega)
      have hlt' : 2 ^ (m + 1) < 2 ^ 31 := Nat.pow_lt_pow_right (by decide) (by omega)
      refine ⟨m + 1, hm', ?_, by omega, by omega⟩
      exact hstep.trans (by rw [hgrown, if_pos (Or.inr hlt')]; rfl)

/-- **Bytes one by one have room exactly if they are less than `2 ^ 30`**. -/
theorem blobRun_bytes_isSome_iff {j : ℕ} (bytes : List UInt8) (hj : j ≤ 30) :
    (blobRun (2 ^ j : ℕ) (byteOps bytes)).isSome ↔ bytes.length < 2 ^ 30 := by
  constructor
  · intro h
    induction bytes using List.reverseRecOn with
    | nil => exact Nat.two_pow_pos 30
    | append_singleton bytes c ih =>
      rw [byteOps, List.map_append, ← List.cons_append, List.map_singleton, blobRun_concat] at h
      obtain ⟨blob, hnext⟩ := Option.isSome_iff_exists.mp h
      obtain ⟨past, hpast, hstep⟩ := Option.bind_eq_some_iff.mp hnext
      have hlen := ih (Option.isSome_iff_exists.mpr ⟨past, hpast⟩)
      rw [List.length_append, List.length_singleton]
      by_contra hge
      -- the block has `2 ^ 30` bytes, and cannot be doubled
      obtain ⟨m, hm, hrun, hlt, -⟩ := blobRun_bytes hlen hj
      obtain rfl : past = .holding bytes (2 ^ m) := Option.some.inj (hpast.symm.trans hrun)
      obtain rfl : m = 30 := by
        have := (Nat.pow_lt_pow_iff_right (by decide : 1 < 2)).mp
          (show 2 ^ 29 < 2 ^ m by omega)
        omega
      rw [show (1 : ℤ) = (1 : ℕ) from rfl, step_append (by simp) hlt.le, if_neg] at hstep
      · cases hstep
      · rw [grownSize, if_neg (by omega), if_neg (by omega)]
        omega
  · intro hlen
    obtain ⟨m, -, hrun, -⟩ := blobRun_bytes hlen hj
    rw [hrun]
    rfl

end Runs

end Tr50
