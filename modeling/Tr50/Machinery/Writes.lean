import Mathlib.Data.List.Basic

/-!
# Machinery/Writes — steps that write

A writer goes from state to state, or is refused; `holds s bs` says what it has written.  A step
`Writes` a text when it puts it behind what is there, wherever the two are fewer than `n`.  Steps
that write can follow each other (`Writes.bind`), and be the rounds of a loop (`Writes.foldlM`),
whose text is that of the rounds.
-/

namespace Tr50.Machinery

variable {σ α ι : Type*}

/-- The step writes the text, where there is room for it. -/
def Writes (holds : σ → List α → Prop) (n : ℕ) (f : σ → Option σ) (text : List α) : Prop :=
  ∀ ⦃s bs⦄, holds s bs → bs.length + text.length < n →
    ∃ s', f s = some s' ∧ holds s' (bs ++ text)

variable {holds : σ → List α → Prop} {n : ℕ} {f g : σ → Option σ} {text text' : List α}

theorem Writes.nothing : Writes holds n some [] := fun s bs hs _ =>
  ⟨s, rfl, by rwa [List.append_nil]⟩

/-- One step after the other. -/
theorem Writes.bind (hf : Writes holds n f text) (hg : Writes holds n g text') :
    Writes holds n (fun s => (f s).bind g) (text ++ text') := by
  intro s bs hs hroom
  rw [List.length_append] at hroom
  obtain ⟨mid, hmid, hholds⟩ := hf hs (by omega)
  obtain ⟨s', hs', hholds'⟩ := hg hholds (by rw [List.length_append]; omega)
  refine ⟨s', ?_, ?_⟩
  · simp only [hmid, Option.bind_some, hs']
  · rwa [← List.append_assoc]

/-- A step that is taken, or not. -/
theorem Writes.ite {c : Prop} [Decidable c] (hf : c → Writes holds n f text)
    (hg : ¬ c → Writes holds n g text') :
    Writes holds n (fun s => if c then f s else g s) (if c then text else text') := by
  by_cases hc : c
  · simpa only [if_pos hc] using hf hc
  · simpa only [if_neg hc] using hg hc

/-- **Rounds write one after the other.** -/
theorem Writes.foldlM {f : σ → ι → Option σ} {text : ι → List α} :
    ∀ (l : List ι), (∀ i ∈ l, Writes holds n (f · i) (text i)) →
      Writes holds n (fun s => l.foldlM f s) (l.flatMap text)
  | [], _ => Writes.nothing
  | i :: l, h => (h i List.mem_cons_self).bind
      (Writes.foldlM l fun j hj => h j (List.mem_cons_of_mem i hj))

end Tr50.Machinery
