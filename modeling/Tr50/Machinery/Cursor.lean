import Tr50.Machinery.Buffer
import Tr50.Machinery.Writes

/-!
# Machinery/Cursor — a text written into a block

A `Cursor` is a block and the place where its next byte goes.  It `Holds` what stands in front of
that place; a terminator put there is replaced by the next byte.  Every operation `Writes` its text,
and a writer whose text leaves room for the last terminator makes a string of it
(`Cursor.string_of_writes`).
-/

namespace Tr50.Machinery

/-- The string at the front of a block; `none` where no terminator comes. -/
def Buffer.string : Buffer → Option (List UInt8)
  | some c :: block => if c = 0 then some [] else (string block).map (c :: ·)
  | _ => none

theorem Buffer.string_of_prefix {text : List UInt8} (h0 : 0 ∉ text) :
    ∀ {block : Buffer}, (text ++ [0]).map some <+: block → block.string = some text := by
  induction text with
  | nil =>
    rintro _ ⟨rest, rfl⟩
    rfl
  | cons c text ih =>
    rintro _ ⟨rest, rfl⟩
    rw [List.mem_cons, not_or] at h0
    rw [List.cons_append, List.map_cons, List.cons_append, Buffer.string, if_neg (Ne.symm h0.1),
      ih h0.2 (List.prefix_append _ rest), Option.map_some]

structure Cursor where
  block : Buffer
  place : ℕ

namespace Cursor

/-! ## Operations -/

/-- A fresh block of `n` bytes. -/
def start (n : ℕ) : Cursor := ⟨Buffer.alloc n, 0⟩

/-- Stores a byte, and goes behind it. -/
def put (c : UInt8) (s : Cursor) : Option Cursor :=
  (s.block.store s.place c).map (⟨·, s.place + 1⟩)

/-- Stores a terminator, and stays. -/
def terminate (s : Cursor) : Option Cursor := (s.block.store s.place 0).map (⟨·, s.place⟩)

/-- Stores a byte, and steps back: the next one replaces it. -/
def putBack (c : UInt8) (s : Cursor) : Option Cursor :=
  (s.put c).map fun s => { s with place := s.place - 1 }

/-- Copies a string with its terminator, and goes behind the string. -/
def copy (text : List UInt8) (s : Cursor) : Option Cursor :=
  (s.block.memcpy s.place (text ++ [0])).map (⟨·, s.place + text.length⟩)

/-- What is done under a condition. -/
def onlyIf (p : Prop) [Decidable p] (f : Cursor → Option Cursor) (s : Cursor) : Option Cursor :=
  if p then f s else some s

/-- The last terminator, and the string. -/
def finish (s : Cursor) : Option (List UInt8) := (s.put 0).bind fun s => s.block.string

/-! ## What is written -/

/-- The bytes stand in front of the place. -/
structure Holds (n : ℕ) (s : Cursor) (bs : List UInt8) : Prop where
  length : s.block.length = n
  front : bs.map some <+: s.block
  place : s.place = bs.length

variable {n : ℕ}

theorem holds_start (n : ℕ) : Holds n (start n) [] :=
  ⟨List.length_replicate, List.nil_prefix, rfl⟩

theorem copy_writes (text : List UInt8) : Writes (Holds n) n (copy text) text := by
  intro s bs hs hroom
  obtain ⟨block, hcopy, hfront, hlength⟩ := @Buffer.memcpy_behind s.block bs (text ++ [0]) hs.front
    (by rw [hs.length, List.length_append, List.length_singleton]; omega)
  refine ⟨⟨block, bs.length + text.length⟩, ?_, hlength.trans hs.length, ?_,
    List.length_append.symm⟩
  · rw [copy, hs.place, hcopy, Option.map_some]
  · rw [← List.append_assoc] at hfront
    exact ((List.prefix_append (bs ++ text) [0]).map some).trans hfront

/-- A byte may be put also where only the terminator has room. -/
theorem put_of_holds {s : Cursor} {bs : List UInt8} (hs : Holds n s bs) (hroom : bs.length < n)
    (c : UInt8) : ∃ s', s.put c = some s' ∧ Holds n s' (bs ++ [c]) := by
  obtain ⟨block, hcopy, hfront, hlength⟩ := @Buffer.memcpy_behind s.block bs [c] hs.front
    (by rw [hs.length, List.length_singleton]; omega)
  refine ⟨⟨block, bs.length + 1⟩, ?_, hlength.trans hs.length, hfront, by simp⟩
  rw [put, hs.place, Buffer.store_eq_memcpy, hcopy, Option.map_some]

theorem put_writes (c : UInt8) : Writes (Holds n) n (put c) [c] := fun _ bs hs hroom =>
  put_of_holds hs (by rw [List.length_singleton] at hroom; omega) c

theorem putBack_writes (c : UInt8) : Writes (Holds n) n (putBack c) [] := by
  intro s bs hs hroom
  rw [List.length_nil, Nat.add_zero] at hroom
  obtain ⟨s', hput, hlength, hfront, hplace⟩ := put_of_holds hs hroom c
  refine ⟨{ s' with place := s'.place - 1 }, ?_, hlength, ?_, ?_⟩
  · rw [putBack, hput, Option.map_some]
  · rw [List.append_nil]
    exact ((List.prefix_append bs [c]).map some).trans hfront
  · simp [hplace]

theorem terminate_writes : Writes (Holds n) n terminate [] := by
  intro s bs hs hroom
  have hback := putBack_writes (n := n) 0 hs hroom
  obtain ⟨s', hput, hholds⟩ := hback
  refine ⟨s', ?_, hholds⟩
  rw [← hput, putBack, put, terminate, Option.map_map]
  rfl

theorem onlyIf_writes {p : Prop} [Decidable p] {f : Cursor → Option Cursor} {text : List UInt8}
    (hf : Writes (Holds n) n f text) :
    Writes (Holds n) n (onlyIf p f) (if p then text else []) :=
  Writes.ite (fun _ => hf) fun _ => Writes.nothing

/-- **A text that leaves room for its terminator becomes a string.** -/
theorem string_of_writes {f : Cursor → Option Cursor} {text : List UInt8}
    (hf : Writes (Holds n) n f text) (hroom : text.length < n) (h0 : 0 ∉ text) :
    (f (start n)).bind finish = some text := by
  obtain ⟨s, hs, hholds⟩ := hf (holds_start n) (by simpa using hroom)
  rw [List.nil_append] at hholds
  obtain ⟨s', hput, -, hfront, -⟩ := put_of_holds hholds hroom 0
  rw [hs, Option.bind_some, finish, hput, Option.bind_some]
  exact Buffer.string_of_prefix h0 hfront

end Cursor

end Tr50.Machinery
