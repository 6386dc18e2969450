import Mathlib

/-!
# Labels that leave no trace

A machine takes labels and puts out a list for each one. Hidden labels are added to a sequence of
labels; the outputs stay the same if a relation between the two runs is kept by every label and
not disturbed by a hidden one.
-/

namespace Esp32Firmware

variable {σ α β : Type*}

/-- Two case distinctions are related if their conditions agree and their branches are related. -/
theorem ite_related {R : α → β → Prop} {c c' : Prop} [Decidable c] [Decidable c'] {a b : α}
    {a' b' : β} (hc : c ↔ c') (ha : R a a') (hb : R b b') :
    R (if c then a else b) (if c' then a' else b') := by
  by_cases h : c
  · rw [if_pos h, if_pos (hc.mp h)]
    exact ha
  · rw [if_neg h, if_neg (mt hc.mpr h)]
    exact hb

/-- The state after a sequence of labels and all that was put out -/
def trace (step : σ → α → σ × List β) : σ → List α → σ × List β
  | s, [] => (s, [])
  | s, a :: rest =>
    ((trace step (step s a).1 rest).1, (step s a).2 ++ (trace step (step s a).1 rest).2)

/-- The second sequence is the first one with hidden labels added and the others replaced by
similar ones. The conditions are read in the states of the run of the second sequence. -/
inductive Inserted (step : σ → α → σ × List β) (similar : σ → α → α → Prop)
    (hidden : σ → α → Prop) : σ → List α → List α → Prop
  | nil (s : σ) : Inserted step similar hidden s [] []
  | keep {s : σ} {a b : α} {labels added : List α} :
      similar s a b → Inserted step similar hidden (step s b).1 labels added →
      Inserted step similar hidden s (a :: labels) (b :: added)
  | insert {s : σ} {b : α} {labels added : List α} :
      hidden s b → Inserted step similar hidden (step s b).1 labels added →
      Inserted step similar hidden s labels (b :: added)

variable {step : σ → α → σ × List β} {similar : σ → α → α → Prop} {hidden : σ → α → Prop}

/-- A relation that similar labels keep and hidden labels do not disturb relates the ends of both
runs, and both put out the same. -/
theorem Inserted.unwind {R : σ → σ → Prop}
    (hkeep : ∀ s s' a b, R s s' → similar s' a b →
      R (step s a).1 (step s' b).1 ∧ (step s a).2 = (step s' b).2)
    (hhidden : ∀ s s' b, R s s' → hidden s' b → R s (step s' b).1 ∧ (step s' b).2 = [])
    {labels added : List α} {s s' : σ} (h : Inserted step similar hidden s' labels added)
    (hs : R s s') :
    R (trace step s labels).1 (trace step s' added).1 ∧
      (trace step s labels).2 = (trace step s' added).2 := by
  induction h generalizing s with
  | nil => exact ⟨hs, rfl⟩
  | keep hsimilar _ ih =>
    obtain ⟨hnext, hout⟩ := hkeep _ _ _ _ hs hsimilar
    obtain ⟨hend, hrest⟩ := ih hnext
    refine ⟨hend, ?_⟩
    simp only [trace]
    rw [hout, hrest]
  | insert hb _ ih =>
    obtain ⟨hnext, hout⟩ := hhidden _ _ _ hs hb
    obtain ⟨hend, hrest⟩ := ih hnext
    refine ⟨hend, ?_⟩
    simp only [trace]
    rw [hout, hrest, List.nil_append]

variable {labels added : List α} {s : σ}

/-- What holds of all added labels can be used where they are compared. -/
theorem Inserted.of_forall {P : α → Prop} (h : Inserted step similar hidden s labels added)
    (hP : ∀ b ∈ added, P b) :
    Inserted step (fun s a b => similar s a b ∧ P b) (fun s b => hidden s b ∧ P b) s labels
      added := by
  induction h with
  | nil => exact .nil _
  | keep hsimilar _ ih =>
    exact .keep ⟨hsimilar, hP _ (List.mem_cons_self ..)⟩
      (ih fun b hmem => hP b (List.mem_cons_of_mem _ hmem))
  | insert hhidden _ ih =>
    exact .insert ⟨hhidden, hP _ (List.mem_cons_self ..)⟩
      (ih fun b hmem => hP b (List.mem_cons_of_mem _ hmem))

theorem Inserted.length_le (h : Inserted step similar hidden s labels added) :
    labels.length ≤ added.length := by
  induction h with
  | nil => exact Nat.le_refl _
  | keep _ _ ih | insert _ _ ih =>
    simp only [List.length_cons]
    omega

/-- Equal labels that are kept are among the added ones. -/
theorem Inserted.subset (h : Inserted step similar hidden s labels added)
    (hsame : ∀ s a b, similar s a b → a = b) :
    labels ⊆ added := by
  induction h with
  | nil => exact List.Subset.refl _
  | keep hsimilar _ ih =>
    rw [hsame _ _ _ hsimilar]
    exact List.cons_subset_cons _ ih
  | insert _ _ ih => exact List.subset_cons_of_subset _ ih

end Esp32Firmware
