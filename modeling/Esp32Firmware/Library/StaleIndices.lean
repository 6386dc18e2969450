import Mathlib.Data.List.Nodup

/-!
# Erasing at indices that were found before

The entries with a property are looked up first and erased one after the other, each at the index
it had before the others went. That is right for one entry and leaves one behind of two or more.
-/

namespace Esp32Firmware

variable {α β : Type*} {p : α → Bool} {l : List α}

/-- Erase at each index in turn. -/
def eraseAll (l : List α) (indices : List Nat) : List α := indices.foldl List.eraseIdx l

@[simp] theorem eraseAll_cons (l : List α) (i : Nat) (indices : List Nat) :
    eraseAll l (i :: indices) = eraseAll (l.eraseIdx i) indices := rfl

/-- What is in front of all indices stays. -/
theorem getElem?_eraseAll_of_lt {n : Nat} {indices : List Nat} (h : ∀ i ∈ indices, n < i) :
    (eraseAll l indices)[n]? = l[n]? := by
  induction indices generalizing l with
  | nil => rfl
  | cons i indices ih =>
    rw [eraseAll_cons, ih fun j hj => h j (List.mem_cons_of_mem _ hj)]
    exact List.getElem?_eraseIdx_of_lt (h i List.mem_cons_self)

theorem eraseAll_cons_succ (a : α) (l : List α) (indices : List Nat) :
    eraseAll (a :: l) (indices.map (· + 1)) = a :: eraseAll l indices := by
  induction indices generalizing l with
  | nil => rfl
  | cons i indices ih => exact ih (l.eraseIdx i)

theorem findIdxs_one (p : α → Bool) (l : List α) : l.findIdxs p 1 = (l.findIdxs p).map (· + 1) := by
  rw [List.findIdxs_start]

theorem findIdxs_cons_of_pos {a : α} (h : p a = true) :
    (a :: l).findIdxs p = 0 :: (l.findIdxs p).map (· + 1) := by
  rw [List.findIdxs_cons, if_pos h, Nat.zero_add, findIdxs_one]

theorem findIdxs_cons_of_neg {a : α} (h : ¬ p a = true) :
    (a :: l).findIdxs p = (l.findIdxs p).map (· + 1) := by
  rw [List.findIdxs_cons, if_neg h, Nat.zero_add, findIdxs_one]

/-- An only entry is erased. -/
theorem eraseAll_findIdxs (h : l.countP p ≤ 1) :
    eraseAll l (l.findIdxs p) = l.filter (fun a => !p a) := by
  induction l with
  | nil => rfl
  | cons a l ih =>
    by_cases ha : p a = true
    · rw [List.countP_cons_of_pos ha] at h
      have hnone : ∀ b ∈ l, ¬ p b = true := List.countP_eq_zero.mp (by omega)
      have hempty : l.findIdxs p = [] := by
        rw [List.eq_nil_iff_forall_not_mem]
        intro i hi
        obtain ⟨hlt, hp⟩ := List.mem_findIdxs_iff_exists_getElem_pos.mp hi
        exact hnone _ (List.getElem_mem hlt) hp
      rw [findIdxs_cons_of_pos ha, hempty, List.filter_cons_of_neg (by simp [ha])]
      exact (List.filter_eq_self.mpr fun b hb => by simp [hnone b hb]).symm
    · rw [List.countP_cons_of_neg ha] at h
      rw [findIdxs_cons_of_neg ha, eraseAll_cons_succ, ih h, List.filter_cons_of_pos (by simp [ha])]

/-- Of two or more entries one stays: after the first went, the others are one further ahead. -/
theorem exists_mem_eraseAll_findIdxs (h : 2 ≤ l.countP p) :
    ∃ a ∈ eraseAll l (l.findIdxs p), p a = true := by
  induction l with
  | nil => exact absurd h (by simp)
  | cons a l ih =>
    by_cases ha : p a = true
    · rw [List.countP_cons_of_pos ha] at h
      have hsome : ∃ b ∈ l, p b = true := List.countP_pos_iff.mp (by omega)
      have hlt : l.findIdx p < l.length := List.findIdx_lt_length.mpr hsome
      refine ⟨l[l.findIdx p], ?_, List.findIdx_getElem⟩
      rw [findIdxs_cons_of_pos ha, eraseAll_cons]
      apply List.mem_of_getElem?
      refine (getElem?_eraseAll_of_lt ?_).trans (List.getElem?_eq_getElem hlt)
      intro i hi
      obtain ⟨j, hj, rfl⟩ := List.mem_map.mp hi
      obtain ⟨hjlt, hp⟩ := List.mem_findIdxs_iff_exists_getElem_pos.mp hj
      have hle : l.findIdx p ≤ j := Nat.le_of_not_lt fun hlt =>
        Bool.false_ne_true ((List.not_of_lt_findIdx hlt).symm.trans hp)
      exact Nat.lt_succ_of_le hle
    · rw [List.countP_cons_of_neg ha] at h
      obtain ⟨b, hb, hp⟩ := ih h
      rw [findIdxs_cons_of_neg ha, eraseAll_cons_succ]
      exact ⟨b, List.mem_cons_of_mem _ hb, hp⟩

section

variable [DecidableEq β] (key : α → β)

/-- Erase the entries of each key in turn, at the indices of a lookup made before. -/
def eraseKeys (l : List α) (keys : List β) : List α :=
  keys.foldl (fun l k => eraseAll l (l.findIdxs fun a => key a = k)) l

variable {key} {keys : List β}

theorem eraseKeys_eq_filter (h : ∀ k ∈ keys, l.countP (fun a => key a = k) ≤ 1) :
    eraseKeys key l keys = l.filter fun a => key a ∉ keys := by
  induction keys generalizing l with
  | nil => simp [eraseKeys]
  | cons k keys ih =>
    have hfirst := eraseAll_findIdxs (h k List.mem_cons_self)
    have hrest := @ih (l.filter fun a => !decide (key a = k)) fun k' hk' =>
      Nat.le_trans List.filter_sublist.countP_le (h k' (List.mem_cons_of_mem _ hk'))
    rw [eraseKeys, List.foldl_cons, hfirst]
    refine hrest.trans ?_
    rw [List.filter_filter]
    apply List.filter_congr
    intro a _
    simp [Bool.and_comm]

/-- Where no entry with one of the keys is left, none of the keys had two. -/
theorem countP_le_one_of_eraseKeys (hnodup : keys.Nodup)
    (h : ∀ a ∈ eraseKeys key l keys, key a ∉ keys) :
    ∀ k ∈ keys, l.countP (fun a => key a = k) ≤ 1 := by
  induction keys generalizing l with
  | nil => exact fun k hk => absurd hk List.not_mem_nil
  | cons k keys ih =>
    obtain ⟨hk, hnodup⟩ := List.nodup_cons.mp hnodup
    -- what is left after the first key
    obtain ⟨l', hl'⟩ : ∃ l', l' = eraseAll l (l.findIdxs fun a => key a = k) := ⟨_, rfl⟩
    have hrest : eraseKeys key l (k :: keys) = eraseKeys key l' keys := by rw [hl']; rfl
    rw [hrest] at h
    have hcounts := ih hnodup fun a ha hmem => h a ha (List.mem_cons_of_mem _ hmem)
    have hgone : ∀ a ∈ l', key a ≠ k := by
      intro a ha hak
      refine h a ?_ (hak ▸ List.mem_cons_self)
      rw [eraseKeys_eq_filter hcounts]
      exact List.mem_filter.mpr ⟨ha, by simpa [hak] using hk⟩
    have hone : l.countP (fun a => key a = k) ≤ 1 := by
      by_contra htwo
      obtain ⟨a, ha, hak⟩ := exists_mem_eraseAll_findIdxs (Nat.lt_of_not_le htwo)
      exact hgone a (hl' ▸ ha) (by simpa using hak)
    intro k' hk'
    obtain rfl | hk' := List.mem_cons.mp hk'
    · exact hone
    · have hne : k' ≠ k := fun hkk => hk (hkk ▸ hk')
      have hsame := hcounts k' hk'
      rw [hl', eraseAll_findIdxs hone, List.countP_filter] at hsame
      refine Nat.le_trans (Nat.le_of_eq ?_) hsame
      apply List.countP_congr
      intro a _
      simp only [decide_eq_true_eq, Bool.and_eq_true, Bool.not_eq_true', decide_eq_false_iff_not]
      exact ⟨fun hak => ⟨hak, fun hak' => hne (hak.symm.trans hak')⟩, fun hak => hak.1⟩

end

variable {γ : Type*} {R : α → β → Prop} {keep : α → Bool} {keepAt : Nat → Bool} {f : α × Nat → β}

theorem exists_of_forall₂ {l' : List β} (h : List.Forall₂ R l l') {a : α} (ha : a ∈ l) :
    ∃ b ∈ l', R a b := by
  induction h with
  | nil => exact absurd ha List.not_mem_nil
  | @cons a' b' l l' hhead _ ih =>
    obtain rfl | ha := List.mem_cons.mp ha
    · exact ⟨b', List.mem_cons_self, hhead⟩
    · obtain ⟨b, hb, hR⟩ := ih ha
      exact ⟨b, List.mem_cons_of_mem _ hb, hR⟩

/-- Where the place decides as the entry does, keeping by place is keeping by entry. -/
theorem forall₂_filter_zipIdx (hkeep : ∀ a i, l[i]? = some a → keep a = keepAt i)
    (hR : ∀ a i, l[i]? = some a → keep a = true → R a (f (a, i))) :
    List.Forall₂ R (l.filter keep) ((l.zipIdx.filter fun place => keepAt place.2).map f) := by
  have hplaces : (l.zipIdx.filter fun place => keep place.1) =
      l.zipIdx.filter fun place => keepAt place.2 := by
    apply List.filter_congr
    intro place hplace
    exact hkeep place.1 place.2 (List.mk_mem_zipIdx_iff_getElem?.mp hplace)
  have hentries : l.filter keep = (l.zipIdx.filter fun place => keep place.1).map Prod.fst := by
    conv_lhs => rw [← List.zipIdx_map_fst 0 l]
    rw [List.filter_map]
    rfl
  rw [hentries, ← hplaces, List.forall₂_map_left_iff, List.forall₂_map_right_iff]
  apply List.forall₂_same.mpr
  intro place hplace
  obtain ⟨hmem, hkept⟩ := List.mem_filter.mp hplace
  exact hR place.1 place.2 (List.mk_mem_zipIdx_iff_getElem?.mp hmem) hkept

/-- For entries with keys of their own, only then. -/
theorem keepAt_of_forall₂ {g : α → γ} {g' : β → γ} (hnodup : (l.map g).Nodup)
    (hg : ∀ a b, R a b → g' b = g a) (hf : ∀ a i, g' (f (a, i)) = g a)
    (h : List.Forall₂ R (l.filter keep) ((l.zipIdx.filter fun place => keepAt place.2).map f))
    {a : α} {i : Nat} (ha : l[i]? = some a) :
    keep a = keepAt i ∧ (keep a = true → R a (f (a, i))) := by
  have hunique {a' : α} {j : Nat} (ha' : l[j]? = some a') (hkey : g a' = g a) : j = i := by
    obtain ⟨hlt, -⟩ := List.getElem?_eq_some_iff.mp ha'
    refine (List.getElem?_inj (by simpa using hlt) hnodup).mp ?_
    rw [List.getElem?_map, List.getElem?_map, ha, ha']
    exact congrArg some hkey
  have hplace : keep a = true → keepAt i = true ∧ R a (f (a, i)) := by
    intro hkept
    have hmem : a ∈ l.filter keep := List.mem_filter.mpr ⟨List.mem_of_getElem? ha, hkept⟩
    obtain ⟨b, hb, hR⟩ := exists_of_forall₂ h hmem
    obtain ⟨⟨a', j⟩, hplace, rfl⟩ := List.mem_map.mp hb
    obtain ⟨hj, hkeptAt⟩ := List.mem_filter.mp hplace
    have ha' := List.mk_mem_zipIdx_iff_getElem?.mp hj
    obtain rfl := hunique ha' ((hf a' j).symm.trans (hg a _ hR))
    obtain rfl := Option.some.inj (ha.symm.trans ha')
    exact ⟨hkeptAt, hR⟩
  refine ⟨?_, fun hkept => (hplace hkept).2⟩
  cases hkept : keep a with
  | true => exact (hplace hkept).1.symm
  | false =>
    cases hat : keepAt i with
    | false => rfl
    | true =>
      have hmem : f (a, i) ∈ (l.zipIdx.filter fun place => keepAt place.2).map f :=
        List.mem_map.mpr ⟨(a, i),
          List.mem_filter.mpr ⟨List.mk_mem_zipIdx_iff_getElem?.mpr ha, hat⟩, rfl⟩
      obtain ⟨a', ha', hR⟩ := exists_of_forall₂ h.flip hmem
      obtain ⟨hmem', hkept'⟩ := List.mem_filter.mp ha'
      obtain ⟨j, hlt, rfl⟩ := List.mem_iff_getElem.mp hmem'
      have hj := List.getElem?_eq_getElem hlt
      obtain rfl := hunique hj ((hg _ _ hR).symm.trans (hf a i))
      obtain rfl := Option.some.inj (ha.symm.trans hj)
      exact hkept.symm.trans hkept'

end Esp32Firmware
