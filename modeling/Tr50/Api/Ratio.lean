import Tr50.Api.Payload
import Tr50.Machinery.Ring

/-!
# Api/Ratio — the compression ratio of the latest messages

`tr50.stats.c`.  `_tr50_stats_set_compress_ratio` writes the lengths of a compressed message, before
and after, into two rings of a hundred entries; `tr50_stats_compress_ratio` adds up what they hold.
`samples` is what has been recorded since the last clear — which sets the count to zero, and leaves
most of the entries: they are never read (`Records.ratio`).

The arithmetic is that of `int`.  `compressRatio_iff` says when the ratio is the one of the latest
hundred samples, `compressRatio_isSome_iff` when there is one at all.
-/

namespace Tr50

open Machinery

/-! ## The code -/

/-- `_TR50_COMPRESSION_HISTORY_MAX` -/
def tr50CompressionHistoryMax : ℕ := 100

/-- The compression fields of `_TR50_STATS`. -/
structure Tr50Stats where
  compressionCompressedLen : List ℤ
  compressionOriginalLen : List ℤ
  compressionRatioCount : ℤ

/-- The statistics of a client that has just been created. -/
def Tr50Stats.init : Tr50Stats where
  compressionCompressedLen := List.replicate tr50CompressionHistoryMax 0
  compressionOriginalLen := List.replicate tr50CompressionHistoryMax 0
  compressionRatioCount := 0

/-- `_tr50_stats_set_compress_ratio` -/
def tr50StatsSetCompressRatio (stats : Tr50Stats) (dataLen compressedLen : ℤ) : Option Tr50Stats :=
  let i := stats.compressionRatioCount.tmod tr50CompressionHistoryMax
  if 0 ≤ i then
    (intAdd stats.compressionRatioCount 1).map fun count =>
      ⟨stats.compressionCompressedLen.set i.toNat compressedLen,
        stats.compressionOriginalLen.set i.toNat dataLen, count⟩
  else none

/-- `tr50_stats_clear_compression_ratio`: the `memset` is of a hundred bytes, a quarter of the
entries. -/
def tr50StatsClearCompressionRatio (stats : Tr50Stats) : Tr50Stats where
  compressionCompressedLen := List.replicate (tr50CompressionHistoryMax / 4) 0
    ++ stats.compressionCompressedLen.drop (tr50CompressionHistoryMax / 4)
  compressionOriginalLen := stats.compressionOriginalLen
  compressionRatioCount := 0

/-- A sum that a loop of `+=` makes. -/
def intSum (lens : List ℤ) : Option ℤ := lens.foldlM intAdd 0

/-- `tr50_stats_compress_ratio` -/
def tr50StatsCompressRatio (stats : Tr50Stats) : Option ℤ :=
  if stats.compressionRatioCount = 0 then some 0
  else
    let n := if stats.compressionRatioCount > 100 then 100 else stats.compressionRatioCount.toNat
    (intSum (stats.compressionCompressedLen.take n)).bind fun compressedSum =>
    (intSum (stats.compressionOriginalLen.take n)).bind fun uncompressedSum =>
    (intOf (100 * compressedSum)).bind fun product =>
    if uncompressedSum = 0 then none else intOf (100 - product.tdiv uncompressedSum)

/-! ## Sequences of calls -/

inductive RatioOp
  | set (dataLen compressedLen : ℤ)
  | clear
deriving DecidableEq, Repr

def RatioOp.NonNeg : RatioOp → Prop
  | set dataLen compressedLen => 0 ≤ dataLen ∧ 0 ≤ compressedLen
  | clear => True

def Tr50Stats.step (stats : Tr50Stats) : RatioOp → Option Tr50Stats
  | .set dataLen compressedLen => tr50StatsSetCompressRatio stats dataLen compressedLen
  | .clear => some (tr50StatsClearCompressionRatio stats)

def ratioRun (ops : List RatioOp) : Option Tr50Stats := ops.foldlM Tr50Stats.step .init

/-- What a call leaves of the samples: the original length of each, and its compressed length. -/
def RatioOp.leave (samples : List (ℤ × ℤ)) : RatioOp → List (ℤ × ℤ)
  | set dataLen compressedLen => samples ++ [(dataLen, compressedLen)]
  | clear => []

/-- What has been recorded since the last clear, the oldest first. -/
def samples (ops : List RatioOp) : List (ℤ × ℤ) := ops.foldl RatioOp.leave []

/-- The latest of them. -/
def latest (samples : List (ℤ × ℤ)) : List (ℤ × ℤ) :=
  samples.drop (samples.length - tr50CompressionHistoryMax)

def originalSum (samples : List (ℤ × ℤ)) : ℤ := ((latest samples).map Prod.fst).sum

def compressedSum (samples : List (ℤ × ℤ)) : ℤ := ((latest samples).map Prod.snd).sum

/-- The ratio of the latest samples, in percent. -/
def ratioOf (samples : List (ℤ × ℤ)) : ℤ :=
  if samples = [] then 0 else 100 - 100 * compressedSum samples / originalSum samples

/-- The samples have a ratio: there are none, or their original lengths are not all zero, and
neither these nor a hundred times the compressed lengths add up to more than an `int` holds. -/
def Measurable (samples : List (ℤ × ℤ)) : Prop :=
  samples = [] ∨ 0 < originalSum samples ∧ originalSum samples < 2 ^ 31
    ∧ 100 * compressedSum samples < 2 ^ 31

instance (samples : List (ℤ × ℤ)) : Decidable (Measurable samples) :=
  inferInstanceAs (Decidable (_ ∨ _))

/-! ## The rings -/

/-- The statistics hold the samples. -/
structure Records (stats : Tr50Stats) (samples : List (ℤ × ℤ)) : Prop where
  compressed : Ring stats.compressionCompressedLen (samples.map Prod.snd)
  original : Ring stats.compressionOriginalLen (samples.map Prod.fst)
  compressedSize : stats.compressionCompressedLen.length = tr50CompressionHistoryMax
  originalSize : stats.compressionOriginalLen.length = tr50CompressionHistoryMax
  count : stats.compressionRatioCount = samples.length
  room : samples.length < 2 ^ 31

theorem records_init : Records .init [] where
  compressed := .nil _
  original := .nil _
  compressedSize := List.length_replicate
  originalSize := List.length_replicate
  count := rfl
  room := by decide

section Records

variable {stats stats' : Tr50Stats} {samples : List (ℤ × ℤ)}

/-- After a clear any entries will do. -/
theorem Records.clear (h : Records stats samples) :
    Records (tr50StatsClearCompressionRatio stats) [] where
  compressed := .nil _
  original := .nil _
  compressedSize := by
    have hsize := h.compressedSize
    rw [tr50CompressionHistoryMax] at hsize
    rw [tr50StatsClearCompressionRatio, List.length_append, List.length_replicate, List.length_drop,
      hsize, tr50CompressionHistoryMax]
  originalSize := h.originalSize
  count := rfl
  room := by decide

/-- A sample is recorded as long as an `int` counts them. -/
theorem Records.set (h : Records stats samples) (dataLen compressedLen : ℤ) :
    (∃ stats', tr50StatsSetCompressRatio stats dataLen compressedLen = some stats'
        ∧ Records stats' (samples ++ [(dataLen, compressedLen)]))
      ∧ samples.length + 1 < 2 ^ 31
    ∨ tr50StatsSetCompressRatio stats dataLen compressedLen = none
      ∧ 2 ^ 31 ≤ samples.length + 1 := by
  have hindex : stats.compressionRatioCount.tmod tr50CompressionHistoryMax
      = (samples.length % tr50CompressionHistoryMax : ℕ) := by
    rw [h.count, Int.tmod_eq_emod_of_nonneg (Int.natCast_nonneg _), Int.natCast_emod]
  rw [tr50StatsSetCompressRatio, hindex, if_pos (Int.natCast_nonneg _), Int.toNat_natCast, h.count]
  by_cases hroom : samples.length + 1 < 2 ^ 31
  · refine Or.inl ⟨⟨_, by rw [intAdd_of_lt (by omega)]; rfl, ?_⟩, hroom⟩
    have hcompressed := h.compressed.put
      (List.ne_nil_of_length_pos (by rw [h.compressedSize]; decide)) compressedLen
    have horiginal := h.original.put
      (List.ne_nil_of_length_pos (by rw [h.originalSize]; decide)) dataLen
    rw [List.length_map, h.compressedSize] at hcompressed
    rw [List.length_map, h.originalSize] at horiginal
    exact
      { compressed := by simpa using hcompressed
        original := by simpa using horiginal
        compressedSize := by rw [List.length_set, h.compressedSize]
        originalSize := by rw [List.length_set, h.originalSize]
        count := by simp
        room := by simpa using hroom }
  · refine Or.inr ⟨?_, not_lt.mp hroom⟩
    rw [intAdd, if_neg (by omega)]
    rfl

/-- Non-negative entries are added up as long as an `int` holds their sum. -/
theorem intSum_of_nonneg {lens : List ℤ} (h : ∀ len ∈ lens, 0 ≤ len) :
    intSum lens = if lens.sum < 2 ^ 31 then some lens.sum else none := by
  suffices hfold : ∀ start : ℤ, 0 ≤ start → start < 2 ^ 31 → lens.foldlM intAdd start
      = if start + lens.sum < 2 ^ 31 then some (start + lens.sum) else none by
    rw [intSum]
    simpa only [zero_add] using hfold 0 le_rfl (by decide)
  induction lens with
  | nil =>
    intro start _ hlt
    rw [List.sum_nil, add_zero, if_pos hlt]
    rfl
  | cons len lens ih =>
    intro start hstart hlt
    have hlen := h len List.mem_cons_self
    have hrest : 0 ≤ lens.sum := List.sum_nonneg fun len hmem => h len (List.mem_cons_of_mem _ hmem)
    rw [List.foldlM_cons, List.sum_cons, ← add_assoc]
    by_cases hroom : start + len < 2 ^ 31
    · rw [intAdd_of_lt ⟨by omega, hroom⟩]
      exact ih (fun len hmem => h len (List.mem_cons_of_mem _ hmem)) _ (by omega) hroom
    · rw [intAdd, if_neg (by omega), if_neg (by omega)]
      rfl

/-- **What is added up is the window**: the entries in use are the latest samples in some order. -/
theorem Records.sums (h : Records stats samples) :
    (stats.compressionCompressedLen.take (min samples.length tr50CompressionHistoryMax)).Perm
        ((latest samples).map Prod.snd)
      ∧ (stats.compressionOriginalLen.take (min samples.length tr50CompressionHistoryMax)).Perm
        ((latest samples).map Prod.fst) := by
  have hcompressed := h.compressed.perm
  have horiginal := h.original.perm
  rw [List.length_map, h.compressedSize, ← List.map_drop] at hcompressed
  rw [List.length_map, h.originalSize, ← List.map_drop] at horiginal
  exact ⟨hcompressed, horiginal⟩

/-- A ratio of two sums, in `int`s. -/
theorem intRatio_eq {compressed original : ℤ} (hcompressed : 0 ≤ compressed)
    (horiginal : 0 ≤ original) :
    ((if compressed < 2 ^ 31 then some compressed else none).bind fun c =>
        (if original < 2 ^ 31 then some original else none).bind fun u =>
          (intOf (100 * c)).bind fun product =>
            if u = 0 then none else intOf (100 - product.tdiv u))
      = if 0 < original ∧ original < 2 ^ 31 ∧ 100 * compressed < 2 ^ 31 then
          some (100 - 100 * compressed / original)
        else none := by
  by_cases hproduct : 100 * compressed < 2 ^ 31
  · rw [if_pos (by omega : compressed < 2 ^ 31), Option.bind_some]
    by_cases hlt : original < 2 ^ 31
    · rw [if_pos hlt, Option.bind_some, intOf_of_mem (by omega), Option.bind_some]
      by_cases hzero : original = 0
      · rw [if_pos hzero, if_neg (by omega)]
      · have hdiv := Int.ediv_le_self original (by omega : 0 ≤ 100 * compressed)
        have hdivnonneg := Int.ediv_nonneg (by omega : 0 ≤ 100 * compressed) horiginal
        rw [if_neg hzero, Int.tdiv_eq_ediv_of_nonneg (by omega), intOf_of_mem (by omega),
          if_pos ⟨by omega, hlt, hproduct⟩]
    · rw [if_neg hlt, if_neg fun h => hlt h.2.1]
      rfl
  · have hno : ¬ (0 < original ∧ original < 2 ^ 31 ∧ 100 * compressed < 2 ^ 31) :=
      fun h => hproduct h.2.2
    rw [if_neg hno]
    by_cases hc : compressed < 2 ^ 31
    · rw [if_pos hc, Option.bind_some, intOf_of_ge (by omega)]
      split_ifs <;> rfl
    · rw [if_neg hc]
      rfl

/-- **The ratio is that of the latest samples**, where no `int` overflows and nothing is divided by
zero. -/
theorem Records.ratio (h : Records stats samples) (hnonneg : ∀ s ∈ samples, 0 ≤ s.1 ∧ 0 ≤ s.2) :
    tr50StatsCompressRatio stats = if Measurable samples then some (ratioOf samples) else none := by
  rcases eq_or_ne samples [] with rfl | hne
  · have hcount : stats.compressionRatioCount = 0 := h.count
    rw [tr50StatsCompressRatio, if_pos hcount, if_pos (show Measurable [] from Or.inl rfl)]
    rfl
  have hlength := List.length_pos_of_ne_nil hne
  have hcount : ¬ stats.compressionRatioCount = 0 := by
    rw [h.count]
    omega
  have hn : (if stats.compressionRatioCount > 100 then 100 else stats.compressionRatioCount.toNat)
      = min samples.length tr50CompressionHistoryMax := by
    rw [h.count, tr50CompressionHistoryMax]
    split_ifs <;> omega
  obtain ⟨hcompressed, horiginal⟩ := h.sums
  have hmem : ∀ s ∈ latest samples, 0 ≤ s.1 ∧ 0 ≤ s.2 := fun s hs =>
    hnonneg s (List.mem_of_mem_drop hs)
  have hsnd : ∀ len ∈ (latest samples).map Prod.snd, 0 ≤ len := by
    intro len hlen
    obtain ⟨s, hs, rfl⟩ := List.mem_map.mp hlen
    exact (hmem s hs).2
  have hfst : ∀ len ∈ (latest samples).map Prod.fst, 0 ≤ len := by
    intro len hlen
    obtain ⟨s, hs, rfl⟩ := List.mem_map.mp hlen
    exact (hmem s hs).1
  rw [tr50StatsCompressRatio, if_neg hcount]
  simp only [hn]
  rw [intSum_of_nonneg fun len hlen => hsnd len (hcompressed.mem_iff.mp hlen),
    intSum_of_nonneg fun len hlen => hfst len (horiginal.mem_iff.mp hlen), hcompressed.sum_eq,
    horiginal.sum_eq]
  refine (intRatio_eq (List.sum_nonneg hsnd) (List.sum_nonneg hfst)).trans ?_
  rw [ratioOf, if_neg hne]
  exact if_congr (by rw [Measurable, or_iff_right hne]; rfl) rfl rfl

end Records

/-! ## The ratio after a sequence of calls -/

section Runs

variable {ops : List RatioOp}

theorem ratioRun_concat (ops : List RatioOp) (op : RatioOp) :
    ratioRun (ops ++ [op]) = (ratioRun ops).bind (Tr50Stats.step · op) := by
  simp [ratioRun, List.foldlM_append]

theorem samples_concat (ops : List RatioOp) (op : RatioOp) :
    samples (ops ++ [op]) = op.leave (samples ops) := by
  simp [samples]

/-- **The statistics hold the samples**, or more have been recorded than an `int` counts. -/
theorem ratioRun_cases (ops : List RatioOp) :
    (∃ stats, ratioRun ops = some stats ∧ Records stats (samples ops))
        ∧ (∀ past, past <+: ops → (samples past).length < 2 ^ 31)
      ∨ ratioRun ops = none ∧ ∃ past, past <+: ops ∧ 2 ^ 31 ≤ (samples past).length := by
  induction ops using List.reverseRecOn with
  | nil =>
    refine Or.inl ⟨⟨_, rfl, records_init⟩, fun past hpast => ?_⟩
    rw [List.prefix_nil.mp hpast]
    decide
  | append_singleton ops op ih =>
    rw [ratioRun_concat, samples_concat]
    rcases ih with ⟨⟨stats, hrun, h⟩, hroom⟩ | ⟨hnone, past, hpast, hfull⟩
    · -- the prefixes of the longer sequence are those of the shorter one and itself
      have hprefixes : (samples (ops ++ [op])).length < 2 ^ 31 →
          ∀ past, past <+: ops ++ [op] → (samples past).length < 2 ^ 31 := by
        intro hlast past hpast
        rcases List.prefix_concat_iff.mp hpast with rfl | hpast
        · exact hlast
        · exact hroom past hpast
      rw [samples_concat] at hprefixes
      rw [hrun, Option.bind_some]
      cases op with
      | clear => exact Or.inl ⟨⟨_, rfl, h.clear⟩, hprefixes (by rw [RatioOp.leave]; decide)⟩
      | set dataLen compressedLen =>
        have hlength : (RatioOp.leave (samples ops) (.set dataLen compressedLen)).length
            = (samples ops).length + 1 := by simp [RatioOp.leave]
        rcases h.set dataLen compressedLen with ⟨hset, hlt⟩ | ⟨hnone, hfull⟩
        · exact Or.inl ⟨hset, hprefixes (by omega)⟩
        · exact Or.inr ⟨hnone, _, List.prefix_rfl, by rw [samples_concat]; omega⟩
    · rw [hnone]
      exact Or.inr ⟨rfl, past, hpast.trans (List.prefix_append _ _), hfull⟩

theorem samples_nonneg (h : ∀ op ∈ ops, op.NonNeg) : ∀ s ∈ samples ops, 0 ≤ s.1 ∧ 0 ≤ s.2 := by
  induction ops using List.reverseRecOn with
  | nil => simp [samples]
  | append_singleton ops op ih =>
    have hops := ih fun op hop => h op (List.mem_append_left _ hop)
    have hop := h op (by simp)
    rw [samples_concat]
    cases op with
    | clear => simp [RatioOp.leave]
    | set dataLen compressedLen =>
      intro s hs
      rcases List.mem_append.mp hs with hs | hs
      · exact hops s hs
      · obtain rfl := List.mem_singleton.mp hs
        exact hop

end Runs

/-- **The ratio is that of the latest hundred samples since the last clear** — exactly as long as
fewer than `2 ^ 31` samples are recorded between two clears, and a hundred times the sum of their
compressed lengths fits into an `int`. -/
theorem compressRatio_iff (ops : List RatioOp) (hnonneg : ∀ op ∈ ops, op.NonNeg)
    (horiginal : originalSum (samples ops) < 2 ^ 31)
    (hpos : samples ops ≠ [] → 0 < originalSum (samples ops)) :
    (∃ stats, ratioRun ops = some stats
        ∧ tr50StatsCompressRatio stats = some (ratioOf (samples ops)))
      ↔ (∀ past, past <+: ops → (samples past).length < 2 ^ 31)
        ∧ 100 * compressedSum (samples ops) < 2 ^ 31 := by
  have hsamples := samples_nonneg hnonneg
  rcases ratioRun_cases ops with ⟨⟨stats, hrun, h⟩, hroom⟩ | ⟨hnone, past, hpast, hfull⟩
  · have hratio := h.ratio hsamples
    have hempty : samples ops = [] → compressedSum (samples ops) = 0 := fun hnil => by
      rw [hnil]
      rfl
    constructor
    · rintro ⟨stats', hrun', hright⟩
      obtain rfl := Option.some.inj (hrun.symm.trans hrun')
      rw [hright] at hratio
      split_ifs at hratio with hgood
      refine ⟨hroom, ?_⟩
      rcases hgood with hnil | ⟨-, -, hproduct⟩
      · rw [hempty hnil]
        decide
      · exact hproduct
    · rintro ⟨-, hproduct⟩
      refine ⟨stats, hrun, hratio.trans (if_pos ?_)⟩
      by_cases hnil : samples ops = []
      · exact Or.inl hnil
      · exact Or.inr ⟨hpos hnil, horiginal, hproduct⟩
  · refine iff_of_false ?_ fun h => absurd (h.1 past hpast) (not_lt.mpr hfull)
    rintro ⟨stats, hrun, -⟩
    rw [hnone] at hrun
    cases hrun

theorem compressRatio_iff_cleared :
    (∃ stats, ratioRun [.set 10 20, .clear, .set 300 100] = some stats
        ∧ tr50StatsCompressRatio stats = some (ratioOf [(300, 100)]))
      ↔ (∀ past, past <+: [.set 10 20, .clear, .set 300 100] → (samples past).length < 2 ^ 31)
        ∧ 100 * compressedSum [(300, 100)] < 2 ^ 31 :=
  compressRatio_iff [.set 10 20, .clear, .set 300 100] (by simp [RatioOp.NonNeg]) (by decide)
    (by decide)

/-- One message after the other, each as long as it was. -/
theorem samples_replicate (n : ℕ) :
    samples (List.replicate n (.set 1 1)) = List.replicate n (1, 1) := by
  induction n with
  | zero => rfl
  | succ n ih => rw [List.replicate_succ', samples_concat, ih, RatioOp.leave, List.replicate_succ']

theorem sums_replicate {n : ℕ} (hn : 100 ≤ n) :
    originalSum (List.replicate n (1, 1)) = 100
      ∧ compressedSum (List.replicate n (1, 1)) = 100 := by
  have hlatest : latest (List.replicate n (1, 1)) = List.replicate 100 ((1, 1) : ℤ × ℤ) := by
    rw [latest, List.drop_replicate, List.length_replicate, tr50CompressionHistoryMax]
    congr 1
    omega
  rw [originalSum, compressedSum, hlatest, List.map_replicate, List.map_replicate,
    List.sum_replicate]
  exact ⟨rfl, rfl⟩

/-- More samples than an `int` counts: the next `compression_ratio_count` is none. -/
theorem ratioRun_replicate {n : ℕ} (hn : 2 ^ 31 ≤ n) :
    ratioRun (List.replicate n (.set 1 1)) = none := by
  rcases ratioRun_cases (List.replicate n (.set 1 1)) with ⟨-, hroom⟩ | ⟨hnone, -⟩
  · have hlt := hroom _ List.prefix_rfl
    rw [samples_replicate, List.length_replicate] at hlt
    exact absurd hn (not_le.mpr hlt)
  · exact hnone

/-- A single reply whose bytes are more than an `int` holds a hundred times. -/
theorem compressRatio_product_overflow :
    (∀ op ∈ [RatioOp.set 21474837 21474837], op.NonNeg)
      ∧ originalSum (samples [.set 21474837 21474837]) = 21474837
      ∧ ¬ ∃ stats, ratioRun [.set 21474837 21474837] = some stats
        ∧ tr50StatsCompressRatio stats = some (ratioOf (samples [.set 21474837 21474837])) := by
  refine ⟨by simp [RatioOp.NonNeg], by decide, ?_⟩
  rintro ⟨stats, hrun, hratio⟩
  obtain rfl : _ = stats := Option.some.inj hrun
  exact absurd hratio (by decide)

/-- …and more samples than an `int` counts. -/
theorem compressRatio_count_overflow :
    (∀ op ∈ List.replicate (2 ^ 31) (RatioOp.set 1 1), op.NonNeg)
      ∧ originalSum (samples (List.replicate (2 ^ 31) (.set 1 1))) = 100
      ∧ 100 * compressedSum (samples (List.replicate (2 ^ 31) (.set 1 1))) < 2 ^ 31
      ∧ ¬ ∃ stats, ratioRun (List.replicate (2 ^ 31) (.set 1 1)) = some stats := by
  have hsums := @sums_replicate (2 ^ 31) (by decide)
  refine ⟨fun op hop => ?_, ?_, ?_, ?_⟩
  · rw [List.eq_of_mem_replicate hop]
    exact ⟨zero_le_one, zero_le_one⟩
  · rw [samples_replicate, hsums.1]
  · rw [samples_replicate, hsums.2]
    decide
  · rw [ratioRun_replicate le_rfl]
    simp

/-! ## The ratio after any messages -/

/-- What the client records its samples of, and what makes it forget them.  A text has an `int` for
its length. -/
inductive RatioEvent
  /-- `_tr50_build_payload` and `_compress_deflate` of it. -/
  | payload (compress : Bool) (raw : List UInt8) (deflated : ℤ × List UInt8)
  /-- `tr50_api_raw_async` -/
  | rawRequest (compress : Bool) (request : List UInt8) (deflated : ℤ × List UInt8)
  /-- `_tr50_publish_handler` on a `replyz/`, and `_compress_inflate` of its data. -/
  | replyz (data : List UInt8) (inflated : ℤ × List UInt8)
  /-- `tr50_start2`, or a clear. -/
  | start

/-- The call that an event makes. -/
def RatioEvent.op : RatioEvent → Option RatioOp
  | payload compress raw deflated =>
    if compress ∧ ¬ raw.length ≤ tr50MinCompressionLen ∧ deflated.1 = 0 then
      some (.set raw.length deflated.2.length)
    else none
  | rawRequest compress request deflated =>
    if compress ∧ request.length ≥ tr50MinCompressionLen ∧ deflated.1 = 0 then
      some (.set request.length deflated.2.length)
    else none
  | replyz data inflated =>
    if inflated.1 ≠ 0 then none else some (.set inflated.2.length data.length)
  | start => some .clear

theorem RatioEvent.op_nonneg {event : RatioEvent} {op : RatioOp} (h : event.op = some op) :
    op.NonNeg := by
  have hlengths : ∀ m n : ℕ, (RatioOp.set m n).NonNeg := fun m n =>
    ⟨Int.natCast_nonneg m, Int.natCast_nonneg n⟩
  cases event with
  | start =>
    obtain rfl := Option.some.inj h
    trivial
  | payload compress raw deflated =>
    rw [RatioEvent.op] at h
    split_ifs at h
    exact Option.some.inj h ▸ hlengths _ _
  | rawRequest compress request deflated =>
    rw [RatioEvent.op] at h
    split_ifs at h
    exact Option.some.inj h ▸ hlengths _ _
  | replyz data inflated =>
    rw [RatioEvent.op] at h
    split_ifs at h
    exact Option.some.inj h ▸ hlengths _ _

/-- **Whatever has been sent and received, there is a ratio exactly where the latest samples have
one**: after a single reply that inflates to nothing there is none. -/
theorem compressRatio_isSome_iff (events : List RatioEvent) {stats : Tr50Stats}
    (h : ratioRun (events.filterMap RatioEvent.op) = some stats) :
    (tr50StatsCompressRatio stats).isSome
      ↔ Measurable (samples (events.filterMap RatioEvent.op)) := by
  have hnonneg : ∀ op ∈ events.filterMap RatioEvent.op, op.NonNeg := fun op hop => by
    obtain ⟨event, -, hevent⟩ := List.mem_filterMap.mp hop
    exact RatioEvent.op_nonneg hevent
  rcases ratioRun_cases (events.filterMap RatioEvent.op) with
    ⟨⟨stats', hrun, hrecords⟩, -⟩ | ⟨hnone, -⟩
  · obtain rfl := Option.some.inj (hrun.symm.trans h)
    rw [hrecords.ratio (samples_nonneg hnonneg)]
    split_ifs with hgood <;> simp [hgood]
  · rw [hnone] at h
    cases h

theorem compressRatio_isSome_iff_reply :
    (tr50StatsCompressRatio ⟨8 :: List.replicate 99 0, 3 :: List.replicate 99 0, 1⟩).isSome
      ↔ Measurable [(3, 8)] :=
  compressRatio_isSome_iff [.start, .replyz [0x78, 0x9c, 0x73, 0x74, 0x72, 0x06, 0x00, 0x01]
    (0, [0x41, 0x42, 0x43])] rfl

/-- A first reply that inflates to nothing: a division by zero. -/
theorem compressRatio_div_zero :
    ∃ stats, ratioRun ([RatioEvent.start, .replyz [0x78, 0x9c, 0x03, 0x00, 0x00, 0x00, 0x00, 0x01]
        (0, [])].filterMap RatioEvent.op) = some stats
      ∧ tr50StatsCompressRatio stats = none :=
  ⟨⟨8 :: List.replicate 99 0, 0 :: List.replicate 99 0, 1⟩, rfl, by decide⟩

end Tr50
