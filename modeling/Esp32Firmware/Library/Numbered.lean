import Mathlib

/-!
# Consecutively numbered segments

A log that is cut into segments with consecutive numbers, listed in any order. Segments are
looked up by number, the last one is changed, a next one is added, the first one is dropped.
-/

namespace Esp32Firmware

variable {α : Type*} {first n : Nat} {a b : α} {contents : List α} {listed listed' : List (Nat × α)}

/-- Segments in order, numbered from `first` on. -/
def numbered (first : Nat) : List α → List (Nat × α)
  | [] => []
  | a :: rest => (first, a) :: numbered (first + 1) rest

@[simp] theorem numbered_nil : numbered first ([] : List α) = [] := rfl

@[simp] theorem length_numbered : (numbered first contents).length = contents.length := by
  induction contents generalizing first with
  | nil => rfl
  | cons a rest ih => simp [numbered, ih]

theorem numbered_append {more : List α} :
    numbered first (contents ++ more) =
      numbered first contents ++ numbered (first + contents.length) more := by
  induction contents generalizing first with
  | nil => rfl
  | cons a rest ih =>
    simp only [List.cons_append, numbered, ih, List.length_cons]
    rw [show first + 1 + rest.length = first + (rest.length + 1) by omega]

theorem map_fst_numbered :
    (numbered first contents).map Prod.fst = List.range' first contents.length := by
  induction contents generalizing first with
  | nil => rfl
  | cons a rest ih => simp [numbered, ih, List.range'_succ]

theorem map_snd_numbered : (numbered first contents).map Prod.snd = contents := by
  induction contents generalizing first with
  | nil => rfl
  | cons a rest ih => simp [numbered, ih]

/-- The number of a segment is in range. -/
theorem fst_of_mem_numbered (h : (n, a) ∈ numbered first contents) :
    first ≤ n ∧ n < first + contents.length := by
  have hmem : n ∈ (numbered first contents).map Prod.fst := List.mem_map_of_mem h
  rwa [map_fst_numbered, List.mem_range'_1] at hmem

/-- Every number in range has a segment. -/
theorem exists_mem_numbered (hfirst : first ≤ n) (hlast : n < first + contents.length) :
    ∃ a ∈ contents, (n, a) ∈ numbered first contents := by
  induction contents generalizing first with
  | nil =>
    rw [List.length_nil] at hlast
    omega
  | cons a rest ih =>
    rw [List.length_cons] at hlast
    rcases eq_or_lt_of_le hfirst with rfl | hlt
    · exact ⟨a, List.mem_cons_self, List.mem_cons_self⟩
    · obtain ⟨b, hb, hmem⟩ := ih hlt (by omega)
      exact ⟨b, List.mem_cons_of_mem _ hb, List.mem_cons_of_mem _ hmem⟩

theorem nodup_fst_numbered : ((numbered first contents).map Prod.fst).Nodup := by
  rw [map_fst_numbered]
  exact List.nodup_range'

/-- In a listing without repeated numbers a segment is found by its number. -/
theorem lookup_eq_some_iff_mem (h : (listed.map Prod.fst).Nodup) :
    listed.lookup n = some a ↔ (n, a) ∈ listed := by
  induction listed with
  | nil => simp
  | cons head rest ih =>
    obtain ⟨hhead, hrest⟩ := List.nodup_cons.mp h
    rw [List.lookup_cons, List.mem_cons, Prod.ext_iff]
    by_cases heq : n = head.1
    · have hnot : (n, a) ∉ rest := fun hmem => hhead (heq ▸ List.mem_map_of_mem hmem)
      simp [heq, heq ▸ hnot, eq_comm]
    · rw [beq_false_of_ne heq]
      simp [heq, ih hrest]

/-- The order of the listing does not matter. -/
theorem lookup_perm (h : listed.Perm listed') (hnodup : (listed.map Prod.fst).Nodup) :
    listed.lookup n = listed'.lookup n := by
  have hnodup' : (listed'.map Prod.fst).Nodup := (h.map Prod.fst).nodup_iff.mp hnodup
  apply Option.ext
  intro a
  rw [lookup_eq_some_iff_mem hnodup, lookup_eq_some_iff_mem hnodup', h.mem_iff]

theorem nodup_fst_of_perm (h : listed.Perm (numbered first contents)) :
    (listed.map Prod.fst).Nodup :=
  (h.map Prod.fst).nodup_iff.mpr nodup_fst_numbered

theorem lookup_last (h : listed.Perm (numbered first (contents ++ [a]))) :
    listed.lookup (first + contents.length) = some a := by
  rw [lookup_eq_some_iff_mem (nodup_fst_of_perm h), h.mem_iff, numbered_append]
  exact List.mem_append_right _ List.mem_cons_self

/-- The segment with number `n` is changed in place. -/
def changeAt (n : Nat) (change : α → α) (listed : List (Nat × α)) : List (Nat × α) :=
  listed.map fun segment => if segment.1 = n then (n, change segment.2) else segment

variable {change : α → α} {numbers : List Nat} {count : Nat}

theorem changeAt_of_not_mem (h : n ∉ listed.map Prod.fst) : changeAt n change listed = listed := by
  conv_rhs => rw [← List.map_id listed]
  apply List.map_congr_left
  intro segment hmem
  exact if_neg fun heq : segment.1 = n => h (heq ▸ List.mem_map_of_mem hmem)

theorem changeAt_last (change : α → α) (h : listed.Perm (numbered first (contents ++ [a]))) :
    (changeAt (first + contents.length) change listed).Perm
      (numbered first (contents ++ [change a])) := by
  have hmap := h.map fun segment =>
    if segment.1 = first + contents.length then (first + contents.length, change segment.2)
    else segment
  refine hmap.trans (List.Perm.of_eq ?_)
  rw [numbered_append, numbered_append, List.map_append]
  congr 1
  · apply changeAt_of_not_mem
    rw [map_fst_numbered, List.mem_range'_1]
    omega
  · simp [numbered]

/-- The segment with number `n` is dropped. -/
def dropAt (n : Nat) (listed : List (Nat × α)) : List (Nat × α) :=
  listed.filter fun segment => segment.1 ≠ n

theorem dropAt_of_not_mem (h : n ∉ listed.map Prod.fst) : dropAt n listed = listed := by
  apply List.filter_eq_self.mpr
  intro segment hmem
  exact decide_eq_true fun heq => h (heq ▸ List.mem_map_of_mem hmem)

theorem dropAt_first (h : listed.Perm (numbered first (a :: contents))) :
    (dropAt first listed).Perm (numbered (first + 1) contents) := by
  refine (h.filter _).trans (List.Perm.of_eq ?_)
  rw [numbered, List.filter_cons_of_neg (by simp)]
  apply dropAt_of_not_mem
  rw [map_fst_numbered, List.mem_range'_1]
  omega

/-- A segment is added at any place of the listing. -/
theorem insertIdx_next (position : Nat) (h : listed.Perm (numbered first contents)) :
    (listed.insertIdx (min position listed.length) (first + contents.length, a)).Perm
      (numbered first (contents ++ [a])) := by
  refine (List.perm_insertIdx _ _ (min_le_right _ _)).trans ?_
  rw [numbered_append]
  exact (h.cons _).trans (List.perm_append_singleton _ _).symm

/-- The smallest number of a listing. -/
theorem min?_perm_range' (h : numbers.Perm (List.range' first (count + 1))) :
    numbers.min? = some first := by
  rw [List.min?_eq_some_iff]
  constructor
  · exact h.mem_iff.mpr (List.mem_range'_1.mpr ⟨le_rfl, by omega⟩)
  · intro m hm
    exact (List.mem_range'_1.mp (h.mem_iff.mp hm)).1

/-- The largest number of a listing. -/
theorem max?_perm_range' (h : numbers.Perm (List.range' first (count + 1))) :
    numbers.max? = some (first + count) := by
  rw [List.max?_eq_some_iff]
  constructor
  · exact h.mem_iff.mpr (List.mem_range'_1.mpr ⟨by omega, by omega⟩)
  · intro m hm
    have := (List.mem_range'_1.mp (h.mem_iff.mp hm)).2
    omega

end Esp32Firmware
