import Mathlib.Data.List.Basic
import Mathlib.Data.List.Induction

/-!
# Ring buffers

The slots of a ring hold the last entries of a history, each at its number modulo the length of
the ring. A scan from the oldest to the newest slot finds the last of the best entries.
-/

namespace Esp32Firmware.RingBuffer

section

variable {β : Type*} {n : Nat} {slots : Nat → β} {entries : List β}

/-- Each of the last `n` entries is in its slot. -/
def Holds (n : Nat) (slots : Nat → β) (entries : List β) : Prop :=
  ∀ j x, entries[j]? = some x → entries.length ≤ j + n → slots (j % n) = x

theorem lt_of_getElem? {j : Nat} {x : β} (h : entries[j]? = some x) : j < entries.length :=
  (List.getElem?_eq_some_iff.mp h).1

theorem Holds.single (slots : Nat → β) (x : β) : Holds n (Function.update slots 0 x) [x] := by
  intro j y hy _
  have hj : j = 0 := Nat.lt_one_iff.mp (lt_of_getElem? hy)
  subst hj
  rw [Nat.zero_mod, Function.update_self]
  exact Option.some.inj hy

/-- Two numbers of the last `n` entries have the same slot only if they are equal. -/
theorem slot_injective {i j len : Nat} (hi : i ≤ len) (hj : j ≤ len) (hin : len < i + n)
    (hjn : len < j + n) (h : i % n = j % n) : i = j := by
  rcases Nat.le_total i j with hij | hij
  · have hzero : (j - i) % n = 0 := Nat.sub_mod_eq_zero_of_mod_eq h.symm
    rw [Nat.mod_eq_of_lt (by omega)] at hzero
    omega
  · have hzero : (i - j) % n = 0 := Nat.sub_mod_eq_zero_of_mod_eq h
    rw [Nat.mod_eq_of_lt (by omega)] at hzero
    omega

theorem Holds.push (h : Holds n slots entries) (x : β) :
    Holds n (Function.update slots (entries.length % n) x) (entries ++ [x]) := by
  intro j y hy hwindow
  have hlt : j < entries.length + 1 := by simpa using lt_of_getElem? hy
  rw [List.length_append, List.length_singleton] at hwindow
  by_cases hj : j = entries.length
  · subst hj
    rw [Function.update_self]
    simpa using hy
  · have hold : entries[j]? = some y := by
      rwa [List.getElem?_append_left (by omega)] at hy
    have hne : j % n ≠ entries.length % n := fun heq =>
      hj (slot_injective (by omega) (Nat.le_refl _) (by omega) (by omega) heq)
    rw [Function.update_of_ne hne]
    exact h j y hold (by omega)

/-- The last slot is followed by the first one. -/
theorem next_slot (hn : 0 < n) (len : Nat) :
    (if n ≤ len % n + 1 then 0 else len % n + 1) = (len + 1) % n := by
  have hlt := Nat.mod_lt len hn
  rw [← Nat.mod_add_mod len n 1]
  split
  · rw [show len % n + 1 = n by omega, Nat.mod_self]
  · exact (Nat.mod_eq_of_lt (by omega)).symm

/-- The slot to be written next holds the entry that leaves, if the ring is full. -/
theorem eq_leaving {j len : Nat} (hlt : j < len) (hwindow : len ≤ j + n) (h : j % n = len % n) :
    len = j + n := by
  by_contra hne
  exact absurd (slot_injective (by omega) (Nat.le_refl _) (by omega) (by omega) h) (by omega)

/-- Every slot of a full ring holds one of the last entries. -/
theorem exists_entry {len slot : Nat} (hslot : slot < n) (hfull : n ≤ len) :
    ∃ j, j ≤ len ∧ len < j + n ∧ j % n = slot := by
  have hlt : (len - slot) % n < n := Nat.mod_lt _ (by omega)
  have hdiv := Nat.div_add_mod (len - slot) n
  refine ⟨len - (len - slot) % n, Nat.sub_le _ _, by omega, ?_⟩
  rw [show len - (len - slot) % n = slot + n * ((len - slot) / n) by omega,
    Nat.add_mul_mod_self_left, Nat.mod_eq_of_lt hslot]

end

variable {α : Type*} (le : α → α → Prop) [DecidableRel le]

/-- The slots from the oldest to the newest entry, which is at `pos`. -/
def positions (n pos : Nat) : List Nat :=
  List.range' (pos + 1) (n - (pos + 1)) ++ List.range (pos + 1)

theorem mem_positions {n pos i : Nat} (hpos : pos < n) : i ∈ positions n pos ↔ i < n := by
  rw [positions, List.mem_append, List.mem_range'_1, List.mem_range]
  omega

/-- The slots but the newest. -/
def older (n pos : Nat) : List Nat := List.range' (pos + 1) (n - (pos + 1)) ++ List.range pos

theorem positions_eq (n pos : Nat) : positions n pos = older n pos ++ [pos] := by
  rw [positions, older, List.range_succ, List.append_assoc]

theorem mem_older {n pos i : Nat} (hpos : pos < n) : i ∈ older n pos ↔ i < n ∧ i ≠ pos := by
  rw [older, List.mem_append, List.mem_range'_1, List.mem_range]
  omega

variable (values : Nat → α) (worst : α)

def keepBest (best : α × Nat) (i : Nat) : α × Nat :=
  if le (values i) best.1 then (values i, i) else best

/-- The last of the best entries and its slot. -/
def scan (slots : List Nat) : α × Nat := slots.foldl (keepBest le values) (worst, 0)

theorem scan_concat (slots : List Nat) (i : Nat) :
    scan le values worst (slots ++ [i]) = keepBest le values (scan le values worst slots) i :=
  List.foldl_concat _ _ _ _

variable {le worst} (htotal : ∀ a b, le a b ∨ le b a)
  (htrans : ∀ a b c, le a b → le b c → le a c)

include htotal htrans

theorem scan_spec (slots : List Nat) (hworst : ∀ i ∈ slots, le (values i) worst)
    (hne : slots ≠ []) :
    (scan le values worst slots).2 ∈ slots ∧
      (scan le values worst slots).1 = values (scan le values worst slots).2 ∧
      ∀ i ∈ slots, le (scan le values worst slots).1 (values i) := by
  induction slots using List.reverseRecOn with
  | nil => exact absurd rfl hne
  | append_singleton slots i ih =>
    have hrefl : le (values i) (values i) := (htotal _ _).elim id id
    rw [scan_concat, keepBest]
    split
    · rename_i hle
      refine ⟨List.mem_append_right _ (List.mem_singleton_self i), rfl, fun j hj => ?_⟩
      rcases List.mem_append.mp hj with hj | hj
      · have hslots : slots ≠ [] := List.ne_nil_of_mem hj
        have hbest := ih (fun k hk => hworst k (List.mem_append_left _ hk)) hslots
        exact htrans _ _ _ hle (hbest.2.2 j hj)
      · rw [List.mem_singleton.mp hj]
        exact hrefl
    · rename_i hle
      have hslots : slots ≠ [] := by
        rintro rfl
        exact hle (hworst i (List.mem_singleton_self i))
      obtain ⟨hmem, hvalue, hbest⟩ :=
        ih (fun k hk => hworst k (List.mem_append_left _ hk)) hslots
      refine ⟨List.mem_append_left _ hmem, hvalue, fun j hj => ?_⟩
      rcases List.mem_append.mp hj with hj | hj
      · exact hbest j hj
      · rw [List.mem_singleton.mp hj]
        exact (htotal _ _).resolve_left hle

/-- A scan that ends at a slot finds it if and only if no other entry is better. -/
theorem scan_eq_last {slots : List Nat} {i : Nat} (hi : i ∉ slots)
    (hworst : ∀ j ∈ slots ++ [i], le (values j) worst) :
    (scan le values worst (slots ++ [i])).2 = i ↔ ∀ j ∈ slots, le (values i) (values j) := by
  have hold : ∀ j ∈ slots, le (values j) worst := fun j hj =>
    hworst j (List.mem_append_left _ hj)
  constructor
  · intro heq j hj
    have hspec := scan_spec values htotal htrans (slots ++ [i]) hworst (by simp)
    have hvalue := hspec.2.1
    rw [heq] at hvalue
    rw [← hvalue]
    exact hspec.2.2 j (List.mem_append_left _ hj)
  · intro hbest
    rw [scan_concat, keepBest]
    split
    · rfl
    · rename_i hle
      have hslots : slots ≠ [] := by
        rintro rfl
        exact hle (hworst i (List.mem_singleton_self i))
      obtain ⟨hmem, hvalue, -⟩ := scan_spec values htotal htrans slots hold hslots
      rw [hvalue] at hle
      exact absurd (hbest _ hmem) hle

end Esp32Firmware.RingBuffer
