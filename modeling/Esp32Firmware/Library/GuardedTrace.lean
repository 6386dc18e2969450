import Mathlib.Data.List.Basic

/-!
# Guarded traces

A trace holds what happened, the newest first. A guard says of each act what has to have happened
before it.
-/

namespace Esp32Firmware

variable {α : Type*} {guard : α → List α → Prop} {act : α} {trace : List α}

/-- Every act of the trace found its guard in what came before. -/
def Guarded (guard : α → List α → Prop) (trace : List α) : Prop :=
  ∀ later act earlier, trace = later ++ act :: earlier → guard act earlier

theorem guarded_nil : Guarded guard [] := by
  intro later act earlier h
  exact absurd h.symm (List.append_ne_nil_of_right_ne_nil _ (List.cons_ne_nil _ _))

theorem Guarded.cons (h : Guarded guard trace) (hact : guard act trace) :
    Guarded guard (act :: trace) := by
  intro later act' earlier hsplit
  cases later with
  | nil =>
    obtain ⟨rfl, rfl⟩ := List.cons.inj hsplit
    exact hact
  | cons newest later => exact h later act' earlier (List.cons.inj hsplit).2

end Esp32Firmware
