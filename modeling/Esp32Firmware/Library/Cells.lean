import Mathlib.Data.List.Basic

/-!
# Cells that are computed in order

A cell is computed from the values at earlier positions. Evaluating a list of cells writes one
value after the other, each from the values that are there already.
-/

namespace Esp32Firmware

/-- What a cell is computed from, and how. -/
structure Cell (V : Type*) where
  inputs : List ℕ
  compute : (ℕ → V) → V

namespace Cell

variable {V : Type*}

/-- The cell only looks at its inputs. -/
def Respects (c : Cell V) : Prop :=
  ∀ f g : ℕ → V, (∀ p ∈ c.inputs, f p = g p) → c.compute f = c.compute g

/-- The cells are written from a position on, each after its inputs. -/
def Ordered (n : ℕ) : List (Cell V) → Prop
  | [] => True
  | c :: rest => c.Respects ∧ (∀ p ∈ c.inputs, p < n) ∧ Ordered (n + 1) rest

def evaluate : List (Cell V) → ℕ → (ℕ → V) → ℕ → V
  | [], _, values => values
  | c :: rest, n, values => evaluate rest (n + 1) (Function.update values n (c.compute values))

variable {cells rest : List (Cell V)} {c : Cell V} {n p : ℕ} {f g : ℕ → V}

theorem evaluate_append :
    evaluate (cells ++ rest) n f = evaluate rest (n + cells.length) (evaluate cells n f) := by
  induction cells generalizing n f with
  | nil => rfl
  | cons c cells ih =>
    change evaluate (cells ++ rest) (n + 1) _ = _
    rw [ih, List.length_cons, Nat.add_assoc, Nat.add_comm 1]
    rfl

theorem ordered_append :
    Ordered n (cells ++ rest) ↔ Ordered n cells ∧ Ordered (n + cells.length) rest := by
  induction cells generalizing n with
  | nil => exact ⟨fun h => ⟨trivial, h⟩, And.right⟩
  | cons c cells ih =>
    have hlength : n + (c :: cells).length = n + 1 + cells.length := by
      rw [List.length_cons]
      omega
    rw [List.cons_append, Ordered, Ordered, ih, hlength]
    simp only [and_assoc]

theorem evaluate_of_lt (h : p < n) : evaluate cells n f p = f p := by
  induction cells generalizing n f with
  | nil => rfl
  | cons c rest ih =>
    rw [evaluate, ih (Nat.lt_succ_of_lt h), Function.update_of_ne (Nat.ne_of_lt h)]

theorem evaluate_of_ge (h : n + cells.length ≤ p) : evaluate cells n f p = f p := by
  induction cells generalizing n f with
  | nil => rfl
  | cons c rest ih =>
    rw [List.length_cons] at h
    rw [evaluate, ih (by omega), Function.update_of_ne (by omega)]

/-- Cells that all look at positions below the first of them are ordered. -/
theorem ordered_of_forall (h : ∀ c ∈ cells, c.Respects ∧ ∀ p ∈ c.inputs, p < n) :
    Ordered n cells := by
  induction cells generalizing n with
  | nil => trivial
  | cons c rest ih =>
    obtain ⟨hrespects, hinputs⟩ := h c List.mem_cons_self
    refine ⟨hrespects, hinputs, ih ?_⟩
    intro c' hc'
    obtain ⟨hrespects', hinputs'⟩ := h c' (List.mem_cons_of_mem _ hc')
    exact ⟨hrespects', fun p hp => Nat.lt_succ_of_lt (hinputs' p hp)⟩

/-- Every cell has the value that is computed from the values in the end. -/
theorem evaluate_cell (h : Ordered n cells) {i : ℕ} (hc : cells[i]? = some c) :
    evaluate cells n f (n + i) = c.compute (evaluate cells n f) := by
  induction cells generalizing n f i with
  | nil => cases hc
  | cons first rest ih =>
    obtain ⟨hrespects, hinputs, hrest⟩ := h
    cases i with
    | zero =>
      cases hc
      rw [Nat.add_zero, evaluate, evaluate_of_lt (Nat.lt_succ_self n), Function.update_self]
      apply hrespects
      intro p hp
      rw [evaluate_of_lt (Nat.lt_succ_of_lt (hinputs p hp)),
        Function.update_of_ne (Nat.ne_of_lt (hinputs p hp))]
    | succ i =>
      rw [evaluate, ← ih hrest hc]
      congr 1
      omega

theorem Ordered.inputs_lt (h : Ordered n cells) {i : ℕ} (hc : cells[i]? = some c) :
    c.Respects ∧ ∀ p ∈ c.inputs, p < n + i := by
  induction cells generalizing n i with
  | nil => cases hc
  | cons first rest ih =>
    obtain ⟨hrespects, hinputs, hrest⟩ := h
    cases i with
    | zero =>
      cases hc
      exact ⟨hrespects, hinputs⟩
    | succ i =>
      obtain ⟨hrespects, hinputs⟩ := ih hrest hc
      exact ⟨hrespects, fun p hp => by have := hinputs p hp; omega⟩

/-- A relation between two valuations that every cell hands on holds everywhere. -/
theorem evaluate_rel {R : ℕ → V → V → Prop} (h : Ordered n cells)
    (hbelow : ∀ (i : ℕ) (c : Cell V), cells[i]? = some c → ∀ p ∈ c.inputs, p < n → R p (f p) (g p))
    (hcell : ∀ (i : ℕ) (c : Cell V), cells[i]? = some c →
      (∀ p ∈ c.inputs, R p (evaluate cells n f p) (evaluate cells n g p)) →
      R (n + i) (c.compute (evaluate cells n f)) (c.compute (evaluate cells n g)))
    {i : ℕ} (hc : cells[i]? = some c) :
    R (n + i) (evaluate cells n f (n + i)) (evaluate cells n g (n + i)) := by
  induction i using Nat.strongRecOn generalizing c with
  | ind i ih =>
    rw [evaluate_cell h hc, evaluate_cell h hc]
    apply hcell i c hc
    intro p hp
    rcases Nat.lt_or_ge p n with hlt | hge
    · rw [evaluate_of_lt hlt, evaluate_of_lt hlt]
      exact hbelow i c hc p hp hlt
    · obtain ⟨k, rfl⟩ := Nat.exists_eq_add_of_le hge
      have hk : k < i := Nat.lt_of_add_lt_add_left ((h.inputs_lt hc).2 _ hp)
      have hlength : k < cells.length := Nat.lt_trans hk (List.getElem?_eq_some_iff.mp hc).1
      exact ih k hk (List.getElem?_eq_getElem hlength)

/-- Valuations that agree at the inputs agree at the cells. -/
theorem evaluate_congr (h : Ordered n cells)
    (hbelow : ∀ (i : ℕ) (c : Cell V), cells[i]? = some c → ∀ p ∈ c.inputs, p < n → f p = g p)
    {i : ℕ} (hc : cells[i]? = some c) :
    evaluate cells n f (n + i) = evaluate cells n g (n + i) :=
  evaluate_rel (R := fun _ => (· = ·)) h hbelow
    (fun _ _ hc hinputs => (h.inputs_lt hc).1 _ _ hinputs) hc

/-- The values at the positions of the cells are overwritten. -/
theorem evaluate_eq_of_outside (h : Ordered n cells)
    (houtside : ∀ p, p < n ∨ n + cells.length ≤ p → f p = g p) :
    evaluate cells n f = evaluate cells n g := by
  ext p
  rcases Nat.lt_or_ge p n with hlt | hge
  · rw [evaluate_of_lt hlt, evaluate_of_lt hlt, houtside p (.inl hlt)]
  · rcases Nat.lt_or_ge p (n + cells.length) with hin | hout
    · obtain ⟨i, rfl⟩ := Nat.exists_eq_add_of_le hge
      have hi : i < cells.length := Nat.lt_of_add_lt_add_left hin
      exact evaluate_congr h (fun _ _ _ p _ hp => houtside p (.inl hp))
        (List.getElem?_eq_getElem hi)
    · rw [evaluate_of_ge hout, evaluate_of_ge hout, houtside p (.inr hout)]

end Cell

end Esp32Firmware
