import Mathlib.Data.Finset.Card

/-!
# Tables of bounded size

An item replaces the first item of the table with its key. If there is none, it is added as long
as the table has room, and dropped otherwise.
-/

namespace BoundedTable

variable {α κ : Type*} [DecidableEq κ] (key : α → κ) (capacity : ℕ)

/-- Replaces the first item with the key of another one. -/
def replace (a : α) : List α → Option (List α)
  | [] => none
  | x :: rest => if key x = key a then some (a :: rest) else (replace a rest).map (x :: ·)

/-- Puts an item into a table. -/
def put (table : List α) (a : α) : List α :=
  match replace key a table with
  | some table => table
  | none => if table.length < capacity then table ++ [a] else table

/-- Puts items into a table one after the other. -/
def putAll (table items : List α) : List α := items.foldl (put key capacity) table

/-- The item with a key. -/
def find (table : List α) (k : κ) : Option α := table.find? fun x => decide (key x = k)

/-- The keys of some items that a table does not have. -/
def newKeys (table items : List α) : Finset κ :=
  (items.map key).toFinset \ (table.map key).toFinset

variable {key capacity} {table items : List α} {a b : α} {k : κ}

theorem replace_eq_none (h : key a ∉ table.map key) : replace key a table = none := by
  induction table with
  | nil => rfl
  | cons x rest ih =>
    rw [List.map_cons, List.mem_cons, not_or] at h
    rw [replace, if_neg (Ne.symm h.1), ih h.2]
    rfl

/-- Replacing keeps the keys where they are. -/
theorem exists_replace (h : key a ∈ table.map key) :
    ∃ t, replace key a table = some t ∧ t.map key = table.map key ∧
      find key t (key a) = some a ∧ ∀ k ≠ key a, find key t k = find key table k := by
  induction table with
  | nil => cases h
  | cons x rest ih =>
    by_cases hx : key x = key a
    · refine ⟨a :: rest, ?_, ?_, ?_, fun k hk => ?_⟩
      · rw [replace, if_pos hx]
      · rw [List.map_cons, List.map_cons, hx]
      · exact List.find?_cons_of_pos (by simp)
      · unfold find
        rw [List.find?_cons_of_neg (by simpa using Ne.symm hk),
          List.find?_cons_of_neg (by simpa [hx] using Ne.symm hk)]
    · obtain ⟨t, ht, hkeys, hself, hother⟩ := ih ((List.mem_cons.mp h).resolve_left (Ne.symm hx))
      refine ⟨x :: t, ?_, ?_, ?_, fun k hk => ?_⟩
      · rw [replace, if_neg hx, ht]
        rfl
      · rw [List.map_cons, List.map_cons, hkeys]
      · exact (List.find?_cons_of_neg (by simpa using hx)).trans hself
      · unfold find at hother ⊢
        rw [List.find?_cons, List.find?_cons, hother k hk]

/-- Putting an item into a table that has its key. -/
theorem put_known (h : key a ∈ table.map key) :
    (put key capacity table a).map key = table.map key ∧
      find key (put key capacity table a) (key a) = some a ∧
      ∀ k ≠ key a, find key (put key capacity table a) k = find key table k := by
  obtain ⟨t, ht, hkeys⟩ := exists_replace h
  unfold put
  rw [ht]
  exact hkeys

theorem put_new (h : key a ∉ table.map key) :
    put key capacity table a = if table.length < capacity then table ++ [a] else table := by
  unfold put
  rw [replace_eq_none h]

theorem find_eq_none (h : k ∉ table.map key) : find key table k = none := by
  unfold find
  rw [List.find?_eq_none]
  intro x hx hk
  exact h (List.mem_map.mpr ⟨x, hx, of_decide_eq_true hk⟩)

theorem mem_keys_of_find (h : find key table k = some a) : k ∈ table.map key := by
  by_contra hk
  rw [find_eq_none hk] at h
  cases h

theorem find_append_self (h : key a ∉ table.map key) : find key (table ++ [a]) (key a) = some a := by
  have hnone : find key table (key a) = none := find_eq_none h
  unfold find at hnone ⊢
  rw [List.find?_append, hnone]
  simp

theorem find_append_ne (hk : k ≠ key a) : find key (table ++ [a]) k = find key table k := by
  unfold find
  rw [List.find?_append, List.find?_cons_of_neg (by simpa using Ne.symm hk)]
  simp

/-- An item that was put is found until another one with its key is put. -/
theorem find_putAll_of_same (hfind : find key table k = some a)
    (hsame : ∀ b ∈ items, key b = k → b = a) :
    find key (putAll key capacity table items) k = some a := by
  induction items generalizing table with
  | nil => exact hfind
  | cons b rest ih =>
    refine ih ?_ fun c hc => hsame c (List.mem_cons_of_mem _ hc)
    by_cases hb : key b = k
    · obtain rfl := hsame b List.mem_cons_self hb
      subst hb
      exact (put_known (mem_keys_of_find hfind)).2.1
    · by_cases hknown : key b ∈ table.map key
      · exact ((put_known hknown).2.2 k (Ne.symm hb)).trans hfind
      · rw [put_new hknown]
        split
        · exact (find_append_ne (Ne.symm hb)).trans hfind
        · exact hfind

/-- The keys of a table are kept, and what is added fits. -/
theorem keys_putAll (key : α → κ) (capacity : ℕ) (table items : List α) :
    ∃ extra, (putAll key capacity table items).map key = table.map key ++ extra ∧
      extra.length ≤ capacity - table.length := by
  induction items generalizing table with
  | nil => exact ⟨[], (List.append_nil _).symm, Nat.zero_le _⟩
  | cons b rest ih =>
    obtain ⟨extra, hextra, hlength⟩ := ih (put key capacity table b)
    change (putAll key capacity (put key capacity table b) rest).map key = _ at hextra
    by_cases hknown : key b ∈ table.map key
    · have hkeys : (put key capacity table b).map key = table.map key := (put_known hknown).1
      refine ⟨extra, ?_, ?_⟩
      · rw [← hkeys]
        exact hextra
      · rwa [← List.length_map key, hkeys, List.length_map] at hlength
    · rw [put_new hknown] at hextra hlength
      by_cases hroom : table.length < capacity
      · rw [if_pos hroom] at hextra hlength
        refine ⟨key b :: extra, ?_, ?_⟩
        · refine (congrArg (List.map key) ?_).trans (hextra.trans (by simp))
          change putAll key capacity (put key capacity table b) rest = _
          rw [put_new hknown, if_pos hroom]
        · rw [List.length_append, List.length_singleton] at hlength
          rw [List.length_cons]
          omega
      · rw [if_neg hroom] at hextra hlength
        refine ⟨extra, ?_, hlength⟩
        refine (congrArg (List.map key) ?_).trans hextra
        change putAll key capacity (put key capacity table b) rest = _
        rw [put_new hknown, if_neg hroom]

theorem newKeys_cons_known {t : List α} (hkeys : t.map key = table.map key)
    (hb : key b ∈ table.map key) : newKeys key t items = newKeys key table (b :: items) := by
  ext k
  simp only [newKeys, hkeys, List.map_cons, List.toFinset_cons, Finset.mem_sdiff,
    Finset.mem_insert, List.mem_toFinset]
  constructor
  · exact fun h => ⟨.inr h.1, h.2⟩
  · rintro ⟨rfl | h, hk⟩
    · exact absurd hb hk
    · exact ⟨h, hk⟩

theorem card_newKeys_cons_new (hb : key b ∉ table.map key) :
    (newKeys key (table ++ [b]) items).card + 1 = (newKeys key table (b :: items)).card := by
  have hmem : key b ∈ newKeys key table (b :: items) := by
    simp only [newKeys, Finset.mem_sdiff, List.mem_toFinset]
    exact ⟨by simp, hb⟩
  have herase : newKeys key (table ++ [b]) items =
      (newKeys key table (b :: items)).erase (key b) := by
    ext k
    simp only [newKeys, List.map_append, List.map_cons, List.map_nil, Finset.mem_sdiff,
      Finset.mem_erase, List.mem_toFinset, List.mem_append, List.mem_cons, List.not_mem_nil,
      or_false]
    tauto
  rw [herase, Finset.card_erase_add_one hmem]

/-- If the items with one key are all the same and the new keys fit, every item is found. -/
theorem find_putAll (hsame : ∀ a ∈ items, ∀ b ∈ items, key a = key b → a = b)
    (hroom : (newKeys key table items).card ≤ capacity - table.length) :
    ∀ a ∈ items, find key (putAll key capacity table items) (key a) = some a := by
  induction items generalizing table with
  | nil => exact fun _ h => absurd h List.not_mem_nil
  | cons b rest ih =>
    have hrest : ∀ a ∈ rest, ∀ c ∈ rest, key a = key c → a = c := fun a ha c hc =>
      hsame a (List.mem_cons_of_mem _ ha) c (List.mem_cons_of_mem _ hc)
    -- `b` is found right after it was put, and the rest still fits
    obtain ⟨hself, hfits⟩ : find key (put key capacity table b) (key b) = some b ∧
        (newKeys key (put key capacity table b) rest).card ≤
          capacity - (put key capacity table b).length := by
      by_cases hknown : key b ∈ table.map key
      · have hkeys : (put key capacity table b).map key = table.map key := (put_known hknown).1
        refine ⟨(put_known hknown).2.1, ?_⟩
        rw [newKeys_cons_known hkeys hknown, ← List.length_map key, hkeys, List.length_map]
        exact hroom
      · have hcard : (newKeys key (table ++ [b]) rest).card + 1 =
            (newKeys key table (b :: rest)).card := card_newKeys_cons_new hknown
        rw [put_new hknown, if_pos (by omega)]
        refine ⟨find_append_self hknown, ?_⟩
        rw [List.length_append, List.length_singleton]
        omega
    intro a ha
    rcases List.mem_cons.mp ha with rfl | ha
    · have hlater : ∀ c ∈ rest, key c = key a → c = a := fun c hc hkey =>
        hsame c (List.mem_cons_of_mem _ hc) a List.mem_cons_self hkey
      change find key (putAll key capacity (put key capacity table a) rest) (key a) = some a
      exact find_putAll_of_same hself hlater
    · exact ih hrest hfits a ha

/-- Every item is found exactly if the items with one key are all the same and the new keys fit. -/
theorem find_putAll_iff :
    (∀ a ∈ items, find key (putAll key capacity table items) (key a) = some a) ↔
      (∀ a ∈ items, ∀ b ∈ items, key a = key b → a = b) ∧
        (newKeys key table items).card ≤ capacity - table.length := by
  constructor
  · intro hfind
    constructor
    · intro a ha b hb hkey
      have hboth := (hfind a ha).symm.trans (hkey ▸ hfind b hb)
      exact Option.some.inj hboth
    · obtain ⟨extra, hextra, hlength⟩ := keys_putAll key capacity table items
      have hsub : newKeys key table items ⊆ extra.toFinset := by
        intro k hk
        simp only [newKeys, Finset.mem_sdiff, List.mem_toFinset] at hk ⊢
        obtain ⟨a, ha, rfl⟩ := List.mem_map.mp hk.1
        have hmem := mem_keys_of_find (hfind a ha)
        rw [hextra] at hmem
        exact (List.mem_append.mp hmem).resolve_left hk.2
      exact (Finset.card_le_card hsub).trans ((List.toFinset_card_le _).trans hlength)
  · rintro ⟨hsame, hroom⟩
    exact find_putAll hsame hroom

end BoundedTable
