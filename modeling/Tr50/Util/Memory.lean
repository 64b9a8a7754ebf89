import Tr50.Machinery.Buffer
import Tr50.Machinery.Bytes
import Mathlib.Data.List.TakeWhile

/-!
# Util/Memory — C integers, strings and the memory wrappers

`util/linux/linux.memory.c` and `util/platform.h` on the little-endian LP64 platform the library is
built for.  An `Option` result is `none` where the code leaves its memory or overflows an `int`:
both are undefined.
-/

namespace Tr50

open Machinery

/-! ## Integers -/

/-- A wider integer stored into an `int`. -/
def toInt32 (n : ℤ) : ℤ := Int.bmod n (2 ^ 32)

/-- …and into a `long long`. -/
def toInt64 (n : ℤ) : ℤ := Int.bmod n (2 ^ 64)

/-- The value of an `int` expression. -/
def intOf (n : ℤ) : Option ℤ := if -2 ^ 31 ≤ n ∧ n < 2 ^ 31 then some n else none

/-- `int` addition. -/
def intAdd (a b : ℤ) : Option ℤ :=
  if -2 ^ 31 ≤ a + b ∧ a + b < 2 ^ 31 then some (a + b) else none

theorem toInt32_of_mem {n : ℤ} (h : -2 ^ 31 ≤ n ∧ n < 2 ^ 31) : toInt32 n = n := by
  rw [toInt32, Int.bmod_eq_of_le] <;> omega

theorem toInt32_of_lt {n : ℕ} (h : n < 2 ^ 31) : toInt32 n = n := toInt32_of_mem (by omega)

/-- What is kept of a length is not longer. -/
theorem toInt32_le {n : ℤ} (h : 0 ≤ n) : toInt32 n ≤ n := by
  rw [toInt32, Int.bmod_def]
  split_ifs <;> omega

theorem intOf_of_mem {n : ℤ} (h : -2 ^ 31 ≤ n ∧ n < 2 ^ 31) : intOf n = some n := if_pos h

theorem intOf_of_ge {n : ℤ} (h : 2 ^ 31 ≤ n) : intOf n = none := if_neg (by omega)

theorem intOf_eq_some {n v : ℤ} (h : intOf n = some v) : v = n := by
  rw [intOf] at h
  split at h
  · exact (Option.some.inj h).symm
  · cases h

theorem intOf_mem {n v : ℤ} (h : intOf n = some v) : -2 ^ 31 ≤ n ∧ n < 2 ^ 31 := by
  by_contra hout
  rw [intOf, if_neg hout] at h
  cases h

theorem intAdd_eq_some {a b v : ℤ} (h : intAdd a b = some v) : v = a + b := intOf_eq_some h

theorem intAdd_of_lt {a b : ℤ} (h : -2 ^ 31 ≤ a + b ∧ a + b < 2 ^ 31) :
    intAdd a b = some (a + b) := if_pos h

/-- `swap16`: a word's two bytes exchanged. -/
def swap16 (n : UInt16) : UInt16 := ((n &&& 0xFF) <<< 8) ||| ((n &&& 0xFF00) >>> 8)

/-- The two bytes a `memcpy` takes out of an `unsigned short`, low byte first. -/
def hostBytes16 (n : UInt16) : List UInt8 := [n.toUInt8, (n >>> 8).toUInt8]

/-- The `unsigned short` a `memcpy` of two bytes makes. -/
def hostWord16 (b0 b1 : UInt8) : UInt16 := word16 b1 b0

theorem toNat_swap16 (n : UInt16) : (swap16 n).toNat = n.toNat % 256 * 256 + n.toNat / 256 := by
  have hn := n.toNat_lt
  have hlow : ((n &&& 0xFF) <<< 8 : UInt16).toNat = 2 ^ 8 * (n.toNat % 256) := by
    rw [UInt16.toNat_shiftLeft, UInt16.toNat_and]
    change (n.toNat &&& (2 ^ 8 - 1)) <<< 8 % 2 ^ 16 = _
    rw [Nat.and_two_pow_sub_one_eq_mod, Nat.shiftLeft_eq]
    omega
  have hhigh : ((n &&& 0xFF00) >>> 8 : UInt16).toNat = n.toNat / 256 := by
    rw [UInt16.toNat_shiftRight, UInt16.toNat_and]
    change (n.toNat &&& 0xFF00) >>> 8 = _
    rw [Nat.shiftRight_and_distrib, Nat.shiftRight_eq_div_pow]
    change n.toNat / 256 &&& (2 ^ 8 - 1) = _
    rw [Nat.and_two_pow_sub_one_eq_mod]
    omega
  rw [swap16, UInt16.toNat_or, hlow, hhigh,
    ← Nat.two_pow_add_eq_or_of_lt (show n.toNat / 256 < 2 ^ 8 by omega)]
  omega

@[simp] theorem swap16_swap16 (n : UInt16) : swap16 (swap16 n) = n := by
  have hn := n.toNat_lt
  refine UInt16.toNat_inj.mp ?_
  rw [toNat_swap16, toNat_swap16]
  omega

/-- **A swapped word is stored high byte first.** -/
theorem hostBytes16_swap16 (n : UInt16) : hostBytes16 (swap16 n) = be16 n := by
  have hn := n.toNat_lt
  have hlo : (swap16 n).toUInt8 = (n >>> 8).toUInt8 := by
    refine UInt8.toNat_inj.mp ?_
    rw [UInt16.toNat_toUInt8, UInt16.toNat_toUInt8, toNat_swap16, toNat_shiftRight_8]
    omega
  have hhi : (swap16 n >>> 8).toUInt8 = n.toUInt8 := by
    refine UInt8.toNat_inj.mp ?_
    have hdiv : (n.toNat % 256 * 256 + n.toNat / 256) / 256 = n.toNat % 256 := by
      rw [mul_comm, Nat.mul_add_div (by omega), Nat.div_eq_of_lt (by omega), add_zero]
    rw [UInt16.toNat_toUInt8, UInt16.toNat_toUInt8, toNat_shiftRight_8, toNat_swap16, hdiv]
    exact Nat.mod_mod _ _
  rw [hostBytes16, be16, hlo, hhi]

/-- …and two bytes read and swapped are the word with the first one high. -/
theorem swap16_hostWord16 (b0 b1 : UInt8) : swap16 (hostWord16 b0 b1) = word16 b0 b1 := by
  have h0 := b0.toNat_lt
  have h1 := b1.toNat_lt
  refine UInt16.toNat_inj.mp ?_
  rw [toNat_swap16, hostWord16, toNat_word16, toNat_word16]
  omega

/-! ## Strings -/

/-- The value of a `char`, which has a sign. -/
def signedChar (c : UInt8) : ℤ := if c.toNat < 128 then c.toNat else c.toNat - 256

/-- The characters before the first NUL. -/
def cut (s : List UInt8) : List UInt8 := s.takeWhile (· ≠ 0)

/-- `strlen`: the characters before the first NUL. -/
def strlen (s : List UInt8) : ℕ := (s.takeWhile (· ≠ 0)).length

theorem strlen_of_notMem {s : List UInt8} (h : 0 ∉ s) : strlen s = s.length := by
  rw [strlen, List.takeWhile_eq_self_iff.mpr]
  exact fun c hc => by simpa using fun h0 : c = 0 => h (h0 ▸ hc)

/-! ## Memory -/

/-- Read `n` bytes at offset `ptr`. -/
def load (mem : List UInt8) (ptr : ℤ) (n : ℕ) : Option (List UInt8) :=
  if 0 ≤ ptr ∧ ptr + n ≤ mem.length then some ((mem.drop ptr.toNat).take n) else none

theorem load_of_le {mem : List UInt8} {ptr n : ℕ} (h : ptr + n ≤ mem.length) :
    load mem ptr n = some ((mem.drop ptr).take n) := by
  rw [load, if_pos (by omega), Int.toNat_natCast]

/-- A block that sits behind a prefix is what a read past the prefix returns. -/
theorem load_append (pre bs post : List UInt8) :
    load (pre ++ (bs ++ post)) pre.length bs.length = some bs := by
  rw [load_of_le (by simp), List.drop_left, List.take_left]

/-- `_memory_memset`.  A negative `int` is a `size_t` beyond every block. -/
def memoryMemset (block : Buffer) (dest : ℤ) (value : UInt8) (size : ℤ) : Option Buffer :=
  if 0 ≤ size then block.memcpy dest (List.replicate size.toNat value) else none

/-- `_memory_memcpy` out of the block `src`. -/
def memoryMemcpy (block : Buffer) (dest : ℤ) (src : List UInt8) (size : ℤ) : Option Buffer :=
  if 0 ≤ size then (load src 0 size.toNat).bind (block.memcpy dest) else none

theorem memoryMemset_of_nonneg (block : Buffer) (dest : ℤ) (value : UInt8) (n : ℕ) :
    memoryMemset block dest value n = block.memcpy dest (List.replicate n value) := by
  rw [memoryMemset, if_pos (Int.natCast_nonneg n), Int.toNat_natCast]

theorem memoryMemcpy_of_le (block : Buffer) (dest : ℤ) {src : List UInt8} {n : ℕ}
    (h : n ≤ src.length) : memoryMemcpy block dest src n = block.memcpy dest (src.take n) := by
  rw [memoryMemcpy, if_pos (Int.natCast_nonneg n), Int.toNat_natCast, ← Nat.cast_zero,
    load_of_le (by omega), List.drop_zero, Option.bind_some]

/-- `_memory_clone_ex`: the copy, or NULL when `malloc` refuses.  `size` becomes a `size_t`, so a
negative length asks for more than any allocator gives — except `-1`, which asks for nothing and
then copies everything. -/
def memoryClone (malloc : Bool) (mem : List UInt8) (ptr size : ℤ) :
    Option (Option (List UInt8)) :=
  let n := (size % 2 ^ 64).toNat
  if malloc ∧ (n + 1) % 2 ^ 64 < 2 ^ 63 then (load mem ptr n).map some else some none

theorem memoryClone_of_nonneg {mem : List UInt8} {ptr : ℤ} {n : ℕ} (hn : n < 2 ^ 31) :
    memoryClone true mem ptr n = (load mem ptr n).map some := by
  have h : ((n : ℤ) % 2 ^ 64).toNat = n := by omega
  rw [memoryClone, h, if_pos ⟨rfl, by omega⟩]

theorem memoryClone_refused (mem : List UInt8) (ptr size : ℤ) :
    memoryClone false mem ptr size = some none := by simp [memoryClone]

end Tr50
