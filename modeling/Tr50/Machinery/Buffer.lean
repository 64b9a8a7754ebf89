import Mathlib.Data.List.Basic
import Mathlib.Tactic

/-!
# Machinery/Buffer — an allocated block, cell by cell

A `Buffer` is a block of memory: one cell a byte, `none` while nothing has been stored there.
Offsets are signed, as pointer differences are, and an access outside the block is `none` — so a
program over buffers that returns `some` has stayed inside its memory.

`Buffer.filled bs n` is a block of `n` cells written up to `bs.length`; a copy at its edge moves the
edge (`filled_memcpy`), which is all a writer that fills a block front to back needs.  A writer that
clears its block first writes the same over zeros (`Buffer.padded`).
-/

namespace Tr50.Machinery

/-- A block of memory. -/
abbrev Buffer := List (Option UInt8)

namespace Buffer

/-- A fresh block of `n` cells. -/
def alloc (n : ℕ) : Buffer := List.replicate n none

/-- The block, moved to `n` cells: the old content is kept, the new cells are unwritten. -/
def realloc (b : Buffer) (n : ℕ) : Buffer := b.take n ++ List.replicate (n - b.length) none

/-- Store one byte. -/
def store (b : Buffer) (i : ℤ) (v : UInt8) : Option Buffer :=
  if 0 ≤ i ∧ i < b.length then some (b.set i.toNat (some v)) else none

/-- Store bytes from offset `i` on. -/
def memcpy (b : Buffer) (i : ℤ) : List UInt8 → Option Buffer
  | [] => some b
  | v :: vs => (b.store i v).bind fun b => memcpy b (i + 1) vs

/-- `n` cells written with `bs`, the rest unwritten. -/
def filled (bs : List UInt8) (n : ℕ) : Buffer :=
  bs.map some ++ List.replicate (n - bs.length) none

/-- `n` cells written with `bs`, the rest holding `c`. -/
def padded (c : Option UInt8) (bs : List UInt8) (n : ℕ) : Buffer :=
  bs.map some ++ List.replicate (n - bs.length) c

/-- The written cells at the front of a block. -/
def written : Buffer → List UInt8
  | some b :: buffer => b :: written buffer
  | _ => []

theorem filled_eq_padded (bs : List UInt8) (n : ℕ) : filled bs n = padded none bs n := rfl

theorem alloc_eq_filled (n : ℕ) : alloc n = filled [] n := by simp [alloc, filled]

theorem length_padded {c : Option UInt8} {bs : List UInt8} {n : ℕ} (h : bs.length ≤ n) :
    (padded c bs n).length = n := by
  simp [padded, h]

theorem length_filled {bs : List UInt8} {n : ℕ} (h : bs.length ≤ n) :
    (filled bs n).length = n := length_padded h

/-- A block filled to the brim holds its bytes. -/
theorem padded_length (c : Option UInt8) (bs : List UInt8) :
    padded c bs bs.length = bs.map some := by
  simp [padded]

theorem filled_length (bs : List UInt8) : filled bs bs.length = bs.map some := padded_length _ bs

theorem take_filled (bs : List UInt8) (n : ℕ) : (filled bs n).take bs.length = bs.map some := by
  rw [filled, ← List.length_map (f := some), List.take_left]

/-- What is written of a block filled up to an edge. -/
theorem written_filled : ∀ (bs : List UInt8) (n : ℕ), written (filled bs n) = bs
  | [], 0 => rfl
  | [], n + 1 => rfl
  | b :: bs, n => by
      rw [filled, List.map_cons, List.cons_append, written, List.length_cons, ← Nat.sub_sub,
        Nat.sub_right_comm]
      exact congrArg (b :: ·) (written_filled bs (n - 1))

/-- …and of what lies behind its first cell. -/
theorem written_drop_one (b : UInt8) (bs : List UInt8) (n : ℕ) :
    written ((filled (b :: bs) n).drop 1) = bs := by
  rw [filled, List.map_cons, List.cons_append, List.drop_one, List.tail_cons, List.length_cons,
    ← Nat.sub_sub, Nat.sub_right_comm]
  exact written_filled bs (n - 1)

/-- Bytes in front of a block are written. -/
theorem written_append (bs : List UInt8) (b : Buffer) :
    written (bs.map some ++ b) = bs ++ written b := by
  induction bs with
  | nil => rfl
  | cons c bs ih => exact congrArg (c :: ·) ih

/-- A block that is moved to more cells is in front of them. -/
theorem realloc_of_le {b : Buffer} {n : ℕ} (h : b.length ≤ n) :
    b.realloc n = b ++ List.replicate (n - b.length) none := by
  rw [realloc, List.take_of_length_le h]

theorem filled_realloc {bs : List UInt8} {m n : ℕ} (h : bs.length ≤ m) (hmn : m ≤ n) :
    (filled bs m).realloc n = filled bs n := by
  rw [realloc_of_le (by rwa [length_filled h]), length_filled h, filled, filled,
    List.append_assoc, List.replicate_append_replicate]
  congr 2
  omega

theorem padded_store {c : Option UInt8} {bs : List UInt8} {n : ℕ} (h : bs.length < n) (v : UInt8) :
    (padded c bs n).store bs.length v = some (padded c (bs ++ [v]) n) := by
  have hin : (0 : ℤ) ≤ bs.length ∧ (bs.length : ℤ) < (padded c bs n).length := by
    rw [length_padded h.le]
    omega
  obtain ⟨k, rfl⟩ : ∃ k, n = bs.length + (k + 1) := ⟨n - bs.length - 1, by omega⟩
  rw [store, if_pos hin, Int.toNat_natCast, padded, List.set_append_right _ _ (by simp),
    Nat.add_sub_cancel_left]
  simp [padded, List.replicate_succ, show bs.length + (k + 1) - (bs.length + 1) = k by omega]

theorem filled_store {bs : List UInt8} {n : ℕ} (h : bs.length < n) (v : UInt8) :
    (filled bs n).store bs.length v = some (filled (bs ++ [v]) n) := padded_store h v

/-- **A copy at the edge of the written part moves the edge.** -/
theorem padded_memcpy {c : Option UInt8} {n : ℕ} : ∀ {bs vs : List UInt8},
    bs.length + vs.length ≤ n →
      (padded c bs n).memcpy bs.length vs = some (padded c (bs ++ vs) n)
  | bs, [], _ => by simp [memcpy]
  | bs, v :: vs, h => by
      rw [List.length_cons] at h
      have hlen : (bs ++ [v]).length + vs.length ≤ n := by simp; omega
      have hnext := @padded_memcpy c n _ _ hlen
      rw [List.append_assoc, List.singleton_append, List.length_append] at hnext
      rw [memcpy, padded_store (by omega), Option.bind_some]
      exact hnext

theorem filled_memcpy {n : ℕ} {bs vs : List UInt8} (h : bs.length + vs.length ≤ n) :
    (filled bs n).memcpy bs.length vs = some (filled (bs ++ vs) n) := padded_memcpy h

/-- A block that is moved and then cleared behind its old end is padded as before. -/
theorem padded_realloc_memset {v : UInt8} {bs : List UInt8} {m n : ℕ} (h : bs.length ≤ m)
    (hmn : m ≤ n) :
    ((padded (some v) bs m).realloc n).memcpy m (List.replicate (n - m) v)
      = some (padded (some v) bs n) := by
  obtain ⟨k, rfl⟩ : ∃ k, m = bs.length + k := ⟨m - bs.length, by omega⟩
  have hblock : (padded (some v) bs (bs.length + k)).realloc n
      = filled (bs ++ List.replicate k v) n := by
    rw [realloc_of_le (by rwa [length_padded h]), length_padded h]
    simp [padded, filled]
  have hcopy := @padded_memcpy none n (bs ++ List.replicate k v)
    (List.replicate (n - (bs.length + k)) v) (by simp; omega)
  have hlength : (bs ++ List.replicate k v).length = bs.length + k := by simp
  rw [hlength] at hcopy
  have hrest : n - (bs.length + (n - bs.length)) = 0 := by omega
  rw [hblock, filled_eq_padded, hcopy]
  simp [padded, hrest, show k + (n - (bs.length + k)) = n - bs.length by omega]

/-- A store at an offset given as an integer… -/
theorem padded_store_at {c : Option UInt8} {bs : List UInt8} {n : ℕ} {i : ℤ} (hi : i = bs.length)
    (h : bs.length < n) (v : UInt8) :
    (padded c bs n).store i v = some (padded c (bs ++ [v]) n) := by
  subst hi
  exact padded_store h v

/-- …and a copy there. -/
theorem padded_memcpy_at {c : Option UInt8} {n : ℕ} {bs vs : List UInt8} {i : ℤ}
    (hi : i = bs.length) (h : bs.length + vs.length ≤ n) :
    (padded c bs n).memcpy i vs = some (padded c (bs ++ vs) n) := by
  subst hi
  exact padded_memcpy h

/-- A store behind the edge leaves what is written. -/
theorem padded_store_prefix {c : Option UInt8} {bs : List UInt8} {n : ℕ} {i : ℤ} {v : UInt8}
    {b : Buffer} (hi : bs.length ≤ i) (h : (padded c bs n).store i v = some b) :
    bs.map some <+: b := by
  unfold store at h
  split_ifs at h
  rw [← Option.some.inj h, padded, List.set_append_right _ _ (by rw [List.length_map]; omega)]
  exact List.prefix_append _ _

/-- A copy replaces as many cells as it has bytes. -/
theorem memcpy_over {vs : List UInt8} : ∀ {pre mid post : Buffer}, mid.length = vs.length →
    memcpy (pre ++ (mid ++ post)) pre.length vs = some (pre ++ (vs.map some ++ post)) := by
  induction vs with
  | nil =>
    intro pre mid post h
    obtain rfl := List.length_eq_zero_iff.mp h
    rfl
  | cons v vs ih =>
    intro pre mid post h
    obtain ⟨c, mid, rfl⟩ := List.exists_cons_of_length_pos (by rw [h]; exact Nat.succ_pos _)
    have hstore : store (pre ++ (c :: mid ++ post)) pre.length v
        = some (pre ++ [some v] ++ (mid ++ post)) := by
      rw [store, if_pos (by simp; omega), Int.toNat_natCast,
        List.set_append_right _ _ le_rfl, Nat.sub_self]
      simp
    have hnext := @ih (pre ++ [some v]) mid post (Nat.succ.inj h)
    rw [List.length_append, List.length_singleton, Nat.cast_add, Nat.cast_one] at hnext
    rw [memcpy, hstore, Option.bind_some, hnext]
    simp

/-- A block that is cleared holds zeros. -/
theorem alloc_memset (n : ℕ) (v : UInt8) :
    (alloc n).memcpy 0 (List.replicate n v) = some (padded (some v) [] n) := by
  have h := @padded_memcpy none n [] (List.replicate n v) (by simp)
  rw [List.length_nil, Nat.cast_zero, List.nil_append] at h
  rw [alloc_eq_filled, filled_eq_padded, h]
  simp [padded]

theorem filled_memcpy_at {n : ℕ} {bs vs : List UInt8} {i : ℤ} (hi : i = bs.length)
    (h : bs.length + vs.length ≤ n) :
    (filled bs n).memcpy i vs = some (filled (bs ++ vs) n) := padded_memcpy_at hi h

/-! ## Inside the block -/

theorem store_eq_memcpy (b : Buffer) (i : ℤ) (v : UInt8) : b.store i v = b.memcpy i [v] := by
  rw [memcpy]
  cases b.store i v <;> rfl

theorem store_inside {b b' : Buffer} {i : ℤ} {v : UInt8} (h : b.store i v = some b') :
    0 ≤ i ∧ i < b.length ∧ b' = b.set i.toNat (some v) := by
  unfold store at h
  split_ifs at h with hin
  exact ⟨hin.1, hin.2, (Option.some.inj h).symm⟩

/-- **A copy stays inside its block**, which keeps its length and every cell in front. -/
theorem memcpy_inside {vs : List UInt8} : ∀ {b b' : Buffer} {i : ℤ}, b.memcpy i vs = some b' →
    b'.length = b.length ∧ (vs ≠ [] → 0 ≤ i ∧ i + vs.length ≤ b.length) ∧
      ∀ k : ℕ, (k : ℤ) < i → b'[k]? = b[k]? := by
  induction vs with
  | nil =>
    intro b b' i h
    obtain rfl := Option.some.inj h
    exact ⟨rfl, fun hne => absurd rfl hne, fun _ _ => rfl⟩
  | cons v vs ih =>
    intro b b' i h
    obtain ⟨mid, hmid, hrest⟩ := Option.bind_eq_some_iff.mp h
    obtain ⟨hi, hlt, rfl⟩ := store_inside hmid
    obtain ⟨hlength, hfits, hkeeps⟩ := ih hrest
    rw [List.length_set] at hlength hfits
    refine ⟨hlength, fun _ => ⟨hi, ?_⟩, fun k hk => ?_⟩
    · rcases vs with _ | ⟨w, vs⟩
      · rw [List.length_singleton]
        omega
      · have := (hfits (List.cons_ne_nil w vs)).2
        rw [List.length_cons]
        push_cast at this ⊢
        omega
    · rw [hkeeps k (by omega), List.getElem?_set_ne (by omega)]

/-! ## The first cell -/

/-- A store writes its cell, and stays inside the block. -/
theorem store_zero {b b' : Buffer} {v : UInt8} (h : b.store 0 v = some b') :
    b'[0]? = some (some v) := by
  obtain ⟨-, hlt, rfl⟩ := store_inside h
  rw [Int.toNat_zero, List.getElem?_set_self (by omega)]

/-- What is copied behind the first cell leaves that one alone… -/
theorem memcpy_pos {vs : List UInt8} {b b' : Buffer} {i : ℤ} (hi : 0 < i)
    (h : b.memcpy i vs = some b') : b'[0]? = b[0]? := (memcpy_inside h).2.2 0 hi

/-- …and so does what is stored there. -/
theorem store_pos {b b' : Buffer} {i : ℤ} {v : UInt8} (hi : 0 < i) (h : b.store i v = some b') :
    b'[0]? = b[0]? := memcpy_pos hi (store_eq_memcpy b i v ▸ h)

/-! ## Blocks that begin with known bytes -/

/-- **A copy behind known bytes makes more of them known.** -/
theorem memcpy_behind {b : Buffer} {bs vs : List UInt8} (hfront : bs.map some <+: b)
    (hfits : bs.length + vs.length ≤ b.length) :
    ∃ b', b.memcpy bs.length vs = some b' ∧ (bs ++ vs).map some <+: b' ∧ b'.length = b.length := by
  obtain ⟨rest, rfl⟩ := hfront
  rw [List.length_append, List.length_map] at hfits
  have hcopy := @memcpy_over vs (bs.map some) (rest.take vs.length) (rest.drop vs.length)
    (by rw [List.length_take]; omega)
  rw [List.take_append_drop, List.length_map] at hcopy
  refine ⟨_, hcopy, ?_, (memcpy_inside hcopy).1⟩
  rw [List.map_append, ← List.append_assoc]
  exact List.prefix_append _ _

/-- …and a copy over them replaces the first. -/
theorem memcpy_front {b : Buffer} {bs vs : List UInt8} (hfront : bs.map some <+: b)
    (hlength : vs.length ≤ bs.length) :
    ∃ b', b.memcpy 0 vs = some b' ∧ (vs ++ bs.drop vs.length).map some <+: b' ∧
      b'.length = b.length := by
  obtain ⟨rest, rfl⟩ := hfront
  have hsplit : bs.map some ++ rest
      = [] ++ ((bs.take vs.length).map some ++ ((bs.drop vs.length).map some ++ rest)) := by
    rw [List.nil_append, ← List.append_assoc, ← List.map_append, List.take_append_drop]
  have hcopy := @memcpy_over vs [] ((bs.take vs.length).map some)
    ((bs.drop vs.length).map some ++ rest) (by rw [List.length_map, List.length_take]; omega)
  rw [← hsplit, List.length_nil, Nat.cast_zero, List.nil_append] at hcopy
  refine ⟨_, hcopy, ?_, (memcpy_inside hcopy).1⟩
  rw [List.map_append, ← List.append_assoc]
  exact List.prefix_append _ _

/-- What is copied further back leaves them alone. -/
theorem memcpy_keeps {b b' : Buffer} {bs vs : List UInt8} {i : ℤ} (hfront : bs.map some <+: b)
    (hi : bs.length ≤ i) (h : b.memcpy i vs = some b') : bs.map some <+: b' := by
  rw [List.prefix_iff_getElem?] at hfront ⊢
  intro k hk
  rw [(memcpy_inside h).2.2 k (by rw [List.length_map] at hk; omega), hfront k hk]

/-- A copy to the front is refused exactly where it is longer than the block. -/
theorem memcpy_zero_eq_none {b : Buffer} {vs : List UInt8} :
    b.memcpy 0 vs = none ↔ b.length < vs.length := by
  constructor
  · intro hnone
    by_contra hfits
    obtain ⟨b', hsome, -⟩ := @memcpy_behind b [] vs List.nil_prefix (by simpa using hfits)
    exact nomatch hnone.symm.trans hsome
  · intro hlt
    rcases hcopy : b.memcpy 0 vs with _ | b'
    · rfl
    · have hne : vs ≠ [] := List.ne_nil_of_length_pos (by omega)
      have := ((memcpy_inside hcopy).2.1 hne).2
      omega

/-- What is known is written. -/
theorem written_take_front {b : Buffer} {bs : List UInt8} (hfront : bs.map some <+: b) :
    written (b.take bs.length) = bs := by
  obtain ⟨rest, rfl⟩ := hfront
  rw [← List.length_map (f := some), List.take_left]
  simpa [written] using written_append bs []

end Buffer

end Tr50.Machinery
