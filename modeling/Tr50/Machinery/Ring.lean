import Mathlib.Data.List.Rotate
import Mathlib.Tactic

/-!
# Machinery/Ring — the latest entries of a log

A ring keeps the end of a log in a block of cells: the `n`-th entry goes to cell `n` modulo the
size.  `Ring cells past` says what the cells hold once `past` has been written, its oldest entry
first: all of it as long as there is room, and then the latest entries, of which the oldest is the
next to go.  One more entry keeps that (`Ring.put`), so the cells in use are the latest entries in
some order (`Ring.perm`), whatever the cells have held before.
-/

namespace Tr50.Machinery

open scoped List

variable {α : Type*} {cells past : List α}

/-- The cells, after `past` has been written into them. -/
structure Ring (cells past : List α) : Prop where
  filling : past.length ≤ cells.length → cells.take past.length = past
  turning : cells.length ≤ past.length →
    cells.rotate past.length = past.drop (past.length - cells.length)

namespace Ring

/-- An empty log is in any block of cells. -/
theorem nil (cells : List α) : Ring cells [] where
  filling _ := List.take_zero
  turning h := by
    rw [List.length_eq_zero_iff.mp (Nat.le_zero.mp h)]
    rfl

/-- Turned to the cell that is written the ring loses its head and gains the entry at its end. -/
theorem rotate_set {n : ℕ} (hne : cells ≠ []) (x : α) :
    (cells.set (n % cells.length) x).rotate (n + 1) = (cells.rotate n).tail ++ [x] := by
  have hlt : n % cells.length < cells.length := Nat.mod_lt _ (List.length_pos_of_ne_nil hne)
  obtain ⟨front, y, back, hcells, hfront⟩ : ∃ front y back, cells = front ++ y :: back
      ∧ front.length = n % cells.length :=
    ⟨cells.take (n % cells.length), cells[n % cells.length], cells.drop (n % cells.length + 1),
      by rw [List.cons_getElem_drop_succ, List.take_append_drop],
      List.length_take_of_le hlt.le⟩
  have hset : cells.set (n % cells.length) x = front ++ x :: back := by
    rw [← hfront, hcells, List.set_append_right _ _ le_rfl, Nat.sub_self, List.set_cons_zero]
  have hturn : cells.rotate n = y :: back ++ front := by
    rw [← List.rotate_mod, ← hfront, hcells, List.rotate_append_length_eq]
  have hturn' : (front ++ x :: back).rotate n = x :: back ++ front := by
    have hlength : (front ++ x :: back).length = cells.length := by
      rw [hcells, List.length_append, List.length_append]
      rfl
    rw [← List.rotate_mod, hlength, ← hfront, List.rotate_append_length_eq]
  rw [hset, ← List.rotate_rotate, hturn', hturn, List.cons_append, List.rotate_cons_succ,
    List.rotate_zero, List.cons_append, List.tail_cons]

/-- **One more entry.** -/
theorem put (h : Ring cells past) (hne : cells ≠ []) (x : α) :
    Ring (cells.set (past.length % cells.length) x) (past ++ [x]) where
  filling hle := by
    rw [List.length_append, List.length_singleton, List.length_set] at hle
    rw [List.length_append, List.length_singleton, Nat.mod_eq_of_lt hle,
      List.take_add_one, List.take_set_of_le le_rfl, h.filling (Nat.le_of_succ_le hle),
      List.getElem?_set_self hle]
    rfl
  turning hle := by
    rw [List.length_append, List.length_singleton, List.length_set] at hle
    rw [List.length_append, List.length_singleton, List.length_set, rotate_set hne]
    rcases Nat.lt_or_ge past.length cells.length with hlt | hfull
    · -- the last free cell is written
      obtain ⟨y, hy⟩ : ∃ y, cells.drop past.length = [y] :=
        List.length_eq_one_iff.mp (by rw [List.length_drop]; omega)
      have hsplit : cells = past ++ [y] :=
        (List.take_append_drop past.length cells).symm.trans (by rw [h.filling hlt.le, hy])
      have hturn : cells.rotate past.length = [y] ++ past := by
        rw [hsplit, List.rotate_append_length_eq]
      rw [hturn, List.singleton_append, List.tail_cons, Nat.sub_eq_zero_of_le hlt, List.drop_zero]
    · have hpos := List.length_pos_of_ne_nil hne
      rw [h.turning hfull, List.tail_drop, Nat.succ_sub hfull,
        List.drop_append_of_le_length (by omega)]

/-- **What is in use are the latest entries.** -/
theorem perm (h : Ring cells past) :
    cells.take (min past.length cells.length) ~ past.drop (past.length - cells.length) := by
  rcases le_total past.length cells.length with hle | hle
  · rw [min_eq_left hle, h.filling hle, Nat.sub_eq_zero_of_le hle, List.drop_zero]
  · rw [min_eq_right hle, List.take_length, ← h.turning hle]
    exact (List.rotate_perm _ _).symm

end Ring

end Tr50.Machinery
