import Mathlib.Data.List.DropRight
import Mathlib.Data.List.Sort

/-!
# Merging into a list

The elements of a source are inserted before the first element of a target that they beat. When
the target ends, the rest of the source is lost. A merge that loses nothing gives the same list
up to the last element of the target, also if only the first elements of each list are kept.
-/

namespace Esp32Firmware.LossyMerge

variable {α : Type*} (beats : α → α → Bool)

/-- The elements of the source before those of the target that they beat. -/
def mergeInto : List α → List α → List α
  | [], _ => []
  | target, [] => target
  | t :: target, s :: source =>
    if beats s t then s :: mergeInto (t :: target) source
    else t :: mergeInto target (s :: source)
termination_by target source => target.length + source.length

/-- The merge that appends what is left of the source. -/
def mergeAll (target source : List α) : List α :=
  List.merge target source fun t s => !beats s t

@[simp] theorem mergeInto_nil_left (source : List α) : mergeInto beats [] source = [] := by
  rw [mergeInto]

@[simp] theorem mergeInto_nil_right (target : List α) : mergeInto beats target [] = target := by
  cases target <;> rw [mergeInto]
  simp

@[simp] theorem mergeAll_nil_left (source : List α) : mergeAll beats [] source = source := by
  simp [mergeAll]

@[simp] theorem mergeAll_nil_right (target : List α) : mergeAll beats target [] = target := by
  simp [mergeAll]

theorem mergeInto_cons_cons (t s : α) (target source : List α) :
    mergeInto beats (t :: target) (s :: source) =
      if beats s t then s :: mergeInto beats (t :: target) source
      else t :: mergeInto beats target (s :: source) := by
  rw [mergeInto]

theorem mergeAll_cons_cons (t s : α) (target source : List α) :
    mergeAll beats (t :: target) (s :: source) =
      if beats s t then s :: mergeAll beats (t :: target) source
      else t :: mergeAll beats target (s :: source) := by
  unfold mergeAll
  rw [List.cons_merge_cons]
  cases beats s t <;> simp

theorem mergeAll_perm (target source : List α) :
    (mergeAll beats target source).Perm (target ++ source) := by
  apply List.merge_perm_append

@[simp] theorem mem_mergeAll {a : α} {target source : List α} :
    a ∈ mergeAll beats target source ↔ a ∈ target ∨ a ∈ source := by
  rw [(mergeAll_perm beats target source).mem_iff, List.mem_append]

/-- A merge of two ordered lists is ordered, where an element beats those behind it. -/
theorem mergeAll_pairwise {r : α → α → Prop} (hbeats : ∀ a b, beats b a = false ↔ r a b)
    (htrans : ∀ a b c, r a b → r b c → r a c) (htotal : ∀ a b, r a b ∨ r b a)
    {target source : List α} (htarget : target.Pairwise r) (hsource : source.Pairwise r) :
    (mergeAll beats target source).Pairwise r := by
  have hle : ∀ a b, (!beats b a) = true ↔ r a b := by
    intro a b
    rw [Bool.not_eq_true', hbeats]
  refine (List.pairwise_merge ?_ ?_ target source ?_ ?_).imp fun h => (hle _ _).mp h
  · intro a b c hab hbc
    exact (hle a c).mpr (htrans a b c ((hle a b).mp hab) ((hle b c).mp hbc))
  · intro a b
    rw [Bool.or_eq_true, hle, hle]
    exact htotal a b
  · exact htarget.imp fun h => (hle _ _).mpr h
  · exact hsource.imp fun h => (hle _ _).mpr h

/-- The first elements depend on as many elements of each list. -/
theorem take_mergeInto (n k m : ℕ) (target source : List α) (hk : n ≤ k) (hm : n ≤ m) :
    (mergeInto beats (target.take k) (source.take m)).take n =
      (mergeInto beats target source).take n := by
  fun_induction mergeInto beats target source generalizing n k m with
  | case1 source => simp
  | case2 target => simp [List.take_take, Nat.min_eq_left hk]
  | case3 t target s source hbeats ih =>
    cases n with
    | zero => simp
    | succ n =>
      obtain ⟨k, rfl⟩ : ∃ k', k = k' + 1 := Nat.exists_eq_add_one.mpr (by omega)
      obtain ⟨m, rfl⟩ : ∃ m', m = m' + 1 := Nat.exists_eq_add_one.mpr (by omega)
      have htail := ih n (k + 1) m (by omega) (by omega)
      rw [List.take_succ_cons] at htail
      rw [List.take_succ_cons, List.take_succ_cons, mergeInto_cons_cons, if_pos hbeats,
        List.take_succ_cons, htail, List.take_succ_cons]
  | case4 t target s source hbeats ih =>
    cases n with
    | zero => simp
    | succ n =>
      obtain ⟨k, rfl⟩ : ∃ k', k = k' + 1 := Nat.exists_eq_add_one.mpr (by omega)
      obtain ⟨m, rfl⟩ : ∃ m', m = m' + 1 := Nat.exists_eq_add_one.mpr (by omega)
      have htail := ih n k (m + 1) (by omega) (by omega)
      rw [List.take_succ_cons] at htail
      rw [List.take_succ_cons, List.take_succ_cons, mergeInto_cons_cons, if_neg hbeats,
        List.take_succ_cons, htail, List.take_succ_cons]

/-- Until the target ends, its continuation does not matter. -/
theorem mergeAll_append (target later source : List α) :
    ∃ rest, (∀ a ∈ rest, a ∈ source) ∧ mergeAll beats (target ++ later) source =
        mergeInto beats target source ++ mergeAll beats later rest := by
  fun_induction mergeInto beats target source with
  | case1 source => exact ⟨source, fun a ha => ha, rfl⟩
  | case2 target => exact ⟨[], by simp, by simp⟩
  | case3 t target s source hbeats ih =>
    obtain ⟨rest, hrest, hmerge⟩ := ih
    refine ⟨rest, fun a ha => List.mem_cons_of_mem s (hrest a ha), ?_⟩
    rw [List.cons_append, mergeAll_cons_cons, if_pos hbeats, ← List.cons_append, hmerge,
      List.cons_append]
  | case4 t target s source hbeats ih =>
    obtain ⟨rest, hrest, hmerge⟩ := ih
    refine ⟨rest, hrest, ?_⟩
    rw [List.cons_append, mergeAll_cons_cons, if_neg hbeats, hmerge, List.cons_append]

theorem getLast?_mergeInto (target source : List α) :
    (mergeInto beats target source).getLast? = target.getLast? := by
  fun_induction mergeInto beats target source with
  | case1 source | case2 target => rfl
  | case3 t target s source hbeats ih =>
    rw [List.getLast?_cons, ih]
    simp [List.getLast?_cons]
  | case4 t target s source hbeats ih => rw [List.getLast?_cons, ih, ← List.getLast?_cons]

variable {ι : Type*} [DecidableEq ι] (label : α → ι)

/-- The elements up to the last one with a label. -/
def upTo (i : ι) (elements : List α) : List α := elements.rdropWhile fun a => label a ≠ i

theorem upTo_append {i : ι} {elements later : List α} (hlater : ∀ a ∈ later, label a ≠ i)
    (hlast : ∀ a ∈ elements.getLast?, label a = i) :
    upTo label i (elements ++ later) = elements := by
  have hself : upTo label i elements = elements := by
    rw [upTo, List.rdropWhile_eq_self_iff]
    intro hne
    have hlabel := hlast _ (List.getLast?_eq_some_getLast hne)
    simpa using hlabel
  have hdrop : upTo label i (elements ++ later) = upTo label i elements := by
    unfold upTo List.rdropWhile
    rw [List.reverse_append, List.dropWhile_append_of_pos]
    intro a ha
    simpa using hlater a (List.mem_reverse.mp ha)
  rw [hdrop, hself]

theorem label_getLast?_upTo {i : ι} {elements : List α} :
    ∀ a ∈ (upTo label i elements).getLast?, label a = i := by
  intro a ha
  obtain ⟨hne, rfl⟩ := List.mem_getLast?_eq_getLast ha
  have hlast := List.rdropWhile_last_not (fun a => decide (label a ≠ i)) elements hne
  rw [decide_eq_true_eq, not_not] at hlast
  exact hlast

/-- Merging into the elements up to the last one with a label is merging into all of them, up
to the last one with the label. -/
theorem upTo_mergeAll {i : ι} (target source : List α) (hsource : ∀ a ∈ source, label a ≠ i) :
    upTo label i (mergeAll beats target source) = mergeInto beats (upTo label i target) source := by
  let later := target.rtakeWhile fun a => decide (label a ≠ i)
  have hsplit : upTo label i target ++ later = target := List.rdropWhile_append_rtakeWhile
  obtain ⟨rest, hrest, hmerge⟩ := mergeAll_append beats (upTo label i target) later source
  rw [hsplit] at hmerge
  rw [hmerge]
  apply upTo_append
  · intro a ha
    rw [mem_mergeAll] at ha
    rcases ha with ha | ha
    · simpa using List.mem_rtakeWhile_imp ha
    · exact hsource a (hrest a ha)
  · rw [getLast?_mergeInto]
    exact label_getLast?_upTo label

end Esp32Firmware.LossyMerge
