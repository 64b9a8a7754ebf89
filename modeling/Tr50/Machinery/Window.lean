import Mathlib.Data.List.Perm.Basic
import Mathlib.Data.List.Perm.Subperm
import Mathlib.Data.Int.ModEq
import Mathlib.Tactic

/-!
# Machinery/Window — numbers taken from a counter that wraps

Numbers taken one by one are distinct; what is left of them modulo `n` is distinct where no two are
a multiple of `n` apart (`nodup_emod_iff`), and so inside every window of `n`
(`pairwise_of_window`).

A bag whose images are two bags together comes apart into the two (`exists_perm_append_of_map`).
-/

namespace Tr50.Machinery

open scoped List

variable {α β : Type*}

/-- A bag is taken apart along its images. -/
theorem exists_perm_append_of_map {f : α → β} {l : List α} {m k : List β}
    (h : l.map f ~ m ++ k) : ∃ lm lk, l ~ lm ++ lk ∧ lm.map f = m ∧ lk.map f = k := by
  obtain ⟨l', hl', hperm⟩ : ∃ l', m ++ k = l'.map f ∧ l' ~ l := by
    have hcomp := congrFun (congrFun (List.eq_map_comp_perm f) (m ++ k)) l
    exact hcomp.mpr h.symm
  obtain ⟨lm, lk, rfl, hm, hk⟩ := List.map_eq_append_iff.mp hl'.symm
  exact ⟨lm, lk, hperm.symm, hm, hk⟩

/-- **What is left modulo `n` is distinct** where no two are a multiple of `n` apart. -/
theorem nodup_emod_iff (n : ℤ) (l : List ℤ) :
    (l.map (· % n)).Nodup ↔ l.Pairwise fun x y => ¬ n ∣ x - y := by
  rw [List.Nodup, List.pairwise_map]
  refine List.Pairwise.iff fun x y => not_congr ?_
  rw [Int.emod_eq_emod_iff_emod_sub_eq_zero, ← Int.dvd_iff_emod_eq_zero]

/-- Inside a window of `n` no two are. -/
theorem pairwise_of_window {n : ℤ} (lo : ℤ) {l : List ℤ} (h : ∀ x ∈ l, lo ≤ x ∧ x < lo + n)
    (hl : l.Nodup) : l.Pairwise fun x y => ¬ n ∣ x - y := by
  refine hl.imp_of_mem fun {x y} hx hy hne hdvd => hne ?_
  have hx := h x hx
  have hy := h y hy
  have hzero : x - y = 0 := Int.eq_zero_of_abs_lt_dvd hdvd (abs_lt.mpr (by omega))
  omega

end Tr50.Machinery
