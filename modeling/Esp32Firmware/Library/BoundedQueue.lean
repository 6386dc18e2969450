import Mathlib.Data.List.DropRight
import Mathlib.Data.Nat.ModEq

/-!
# Bounded queues

A list that drops its oldest items when it grows beyond a capacity, and its layout in a ring of
slots with one slot that is not used: the window of a ring.
-/

namespace Esp32Firmware.BoundedQueue

section

variable {α : Type*}

/-- Appends items and keeps the last ones. -/
def pushN (capacity : ℕ) (items block : List α) : List α := (items ++ block).rtake capacity

/-- Drops everything up to the first occurrence of an item. -/
def popUntil [DecidableEq α] (needle : α) : List α → List α
  | [] => []
  | x :: items => if x = needle then items else popUntil needle items

/-- What can be done with a queue item by item. -/
inductive ItemCall (α : Type*) where
  | push (x : α)
  | pop
  | peek
  | peekOffset (offset : ℕ)
  | clear
  | used
  | free

/-- What can be done with a queue. -/
inductive Call (α : Type*) where
  | item (call : ItemCall α)
  | pushN (block : List α)
  | popUntil (needle : α)
  | chunks

/-- What a call returns. -/
inductive Reply (α : Type*) where
  | done
  | item (x : Option α)
  | items (xs : List α)
  | count (n : ℕ)

/-- What a call returns that reports whether there is an item. -/
def Reply.answer (found : Bool) (x : α) : Reply α := .item (if found then some x else none)

def itemStep (capacity : ℕ) (items : List α) : ItemCall α → List α × Reply α
  | .push x => (pushN capacity items [x], .done)
  | .pop => (items.tail, .item items.head?)
  | .peek => (items, .item items.head?)
  | .peekOffset offset => (items, .item items[offset]?)
  | .clear => ([], .done)
  | .used => (items, .count items.length)
  | .free => (items, .count (capacity - items.length))

def step [DecidableEq α] (capacity : ℕ) (items : List α) : Call α → List α × Reply α
  | .item call => itemStep capacity items call
  | .pushN block => (pushN capacity items block, .done)
  | .popUntil needle => (popUntil needle items, .done)
  | .chunks => (items, .items items)

theorem pushN_eq_drop (capacity : ℕ) (items block : List α) :
    pushN capacity items block =
      (items ++ block).drop (items.length + block.length - capacity) := by
  rw [pushN, List.rtake, List.length_append]

theorem length_pushN (capacity : ℕ) (items block : List α) :
    (pushN capacity items block).length = min (items.length + block.length) capacity := by
  rw [pushN_eq_drop, List.length_drop, List.length_append]
  omega

variable {capacity : ℕ} {items : List α}

theorem pushN_of_le {block : List α} (h : items.length + block.length ≤ capacity) :
    pushN capacity items block = items ++ block := by
  rw [pushN_eq_drop, Nat.sub_eq_zero_of_le h, List.drop_zero]

@[simp] theorem pushN_nil (h : items.length ≤ capacity) : pushN capacity items [] = items := by
  rw [pushN_of_le (by simpa using h), List.append_nil]

/-- Pushing item by item is pushing them all. -/
theorem foldl_pushN (block : List α) (h : items.length ≤ capacity) :
    block.foldl (fun items x => pushN capacity items [x]) items = pushN capacity items block := by
  induction block generalizing items with
  | nil => exact (pushN_nil h).symm
  | cons x block ih =>
    have hlength := length_pushN capacity items [x]
    rw [List.foldl_cons, ih (by omega), pushN_eq_drop, pushN_eq_drop, pushN_eq_drop]
    simp only [List.length_drop, List.length_append, List.length_cons, List.length_nil]
    have hdrop : items.length + 1 - capacity ≤ (items ++ [x]).length := by
      rw [List.length_append, List.length_singleton]
      omega
    rw [← List.drop_append_of_le_length hdrop, List.drop_drop, List.append_assoc,
      List.singleton_append]
    congr 1
    omega

theorem popUntil_append_cons [DecidableEq α] {needle : α} {before after : List α}
    (h : needle ∉ before) : popUntil needle (before ++ needle :: after) = after := by
  induction before with
  | nil => exact if_pos rfl
  | cons x before ih =>
    rw [List.cons_append, popUntil, if_neg (fun heq => h (List.mem_cons.mpr (.inl heq.symm))),
      ih (fun hmem => h (List.mem_cons_of_mem _ hmem))]

theorem popUntil_eq_drop [DecidableEq α] (needle : α) (items : List α) :
    popUntil needle items = items.drop (items.idxOf needle + 1) := by
  induction items with
  | nil => rfl
  | cons x items ih =>
    rw [popUntil, List.drop_succ_cons]
    by_cases hx : x = needle
    · rw [if_pos hx, hx, List.idxOf_cons_self, List.drop_zero]
    · rw [if_neg hx, List.idxOf_cons_ne _ hx, ih]

end

section

variable {α : Type*} {size start n m : ℕ} {read read' : ℕ → α}

/-- The items in `n` slots of a ring from `start` on. -/
def window (size : ℕ) (read : ℕ → α) (start n : ℕ) : List α :=
  (List.range n).map fun i => read ((start + i) % size)

@[simp] theorem length_window : (window size read start n).length = n := by
  rw [window, List.length_map, List.length_range]

@[simp] theorem window_zero : window size read start 0 = [] := rfl

theorem getElem?_window {i : ℕ} (h : i < n) :
    (window size read start n)[i]? = some (read ((start + i) % size)) := by
  rw [window, List.getElem?_map, List.getElem?_range h, Option.map_some]

theorem getElem?_window_eq_none {i : ℕ} (h : n ≤ i) : (window size read start n)[i]? = none := by
  rw [List.getElem?_eq_none_iff, length_window]
  exact h

/-- The window depends only on its slots. -/
theorem window_congr (h : ∀ i < n, read ((start + i) % size) = read' ((start + i) % size)) :
    window size read start n = window size read' start n := by
  apply List.map_congr_left
  intro i hi
  exact h i (List.mem_range.mp hi)

/-- Windows of one ring agree exactly if their slots do. -/
theorem window_eq_iff :
    window size read start n = window size read' start n ↔
      ∀ i < n, read ((start + i) % size) = read' ((start + i) % size) := by
  refine ⟨fun h i hi => ?_, window_congr⟩
  have hget := congrArg (fun items => items[i]?) h
  simp only [getElem?_window hi] at hget
  exact Option.some.inj hget

@[simp] theorem window_mod : window size read (start % size) n = window size read start n := by
  rw [window, window]
  simp only [Nat.mod_add_mod]

theorem window_drop (k : ℕ) :
    (window size read start n).drop k = window size read (start + k) (n - k) := by
  apply List.ext_getElem?
  intro i
  rw [List.getElem?_drop]
  rcases Nat.lt_or_ge (k + i) n with hlt | hge
  · rw [getElem?_window hlt, getElem?_window (by omega), Nat.add_assoc]
  · rw [getElem?_window_eq_none hge, getElem?_window_eq_none (by omega)]

theorem window_append :
    window size read start n ++ window size read (start + n) m =
      window size read start (n + m) := by
  apply List.ext_getElem?
  intro i
  rw [List.getElem?_append, length_window]
  split
  · rename_i hi
    rw [getElem?_window hi, getElem?_window (by omega)]
  · rename_i hi
    rcases Nat.lt_or_ge i (n + m) with hlt | hge
    · rw [getElem?_window (by omega), getElem?_window hlt, show start + n + (i - n) = start + i by
        omega]
    · rw [getElem?_window_eq_none (by omega), getElem?_window_eq_none hge]

theorem window_succ :
    window size read start (n + 1) = read (start % size) :: window size read (start + 1) n := by
  rw [Nat.add_comm, ← window_append]
  rfl

/-- Without a wrap the window is a piece of the ring. -/
theorem window_of_le (h : start + n ≤ size) :
    window size read start n = (List.range n).map fun i => read (start + i) := by
  apply List.map_congr_left
  intro i hi
  rw [Nat.mod_eq_of_lt]
  have := List.mem_range.mp hi
  omega

/-- Slots of a ring at a distance below its size differ. -/
theorem slot_ne {i j : ℕ} (hij : i < j) (hj : j < i + size) :
    (start + i) % size ≠ (start + j) % size := by
  intro h
  have hmod : i ≡ j [MOD size] := Nat.ModEq.add_left_cancel' start h
  have hzero : (j - i) % size = 0 := Nat.sub_mod_eq_zero_of_mod_eq hmod.symm
  rw [Nat.mod_eq_of_lt (by omega)] at hzero
  omega

theorem slot_inj {i j : ℕ} (hi : i < size) (hj : j < size)
    (h : (start + i) % size = (start + j) % size) : i = j := by
  rcases Nat.lt_trichotomy i j with hlt | heq | hgt
  · exact absurd h (slot_ne hlt (by omega))
  · exact heq
  · exact absurd h.symm (slot_ne hgt (by omega))

/-- The slots behind the window take the items of a block, the others keep theirs. -/
structure Appends (size start n : ℕ) (read read' : ℕ → α) (block : List α) : Prop where
  written : ∀ i x, block[i]? = some x → read' ((start + n + i) % size) = x
  kept : ∀ p < size, (∀ i < block.length, p ≠ (start + n + i) % size) → read' p = read p

/-- A block behind the window pushes the oldest items out of it. -/
theorem Appends.window_eq {block : List α} (h : Appends size start n read read' block)
    (hn : n < size) :
    window size read' (start + (n + block.length - (size - 1)))
        (n + block.length - (n + block.length - (size - 1))) =
      pushN (size - 1) (window size read start n) block := by
  rw [pushN_eq_drop, length_window]
  apply List.ext_getElem?
  intro i
  generalize hd : n + block.length - (size - 1) = d
  rw [List.getElem?_drop, List.getElem?_append, length_window]
  rcases Nat.lt_or_ge (d + i) (n + block.length) with hlt | hge
  · rw [getElem?_window (by omega), Nat.add_assoc start d i]
    split
    · rename_i hold
      rw [getElem?_window hold]
      refine congrArg some (h.kept _ (Nat.mod_lt _ (by omega)) ?_)
      intro k hk
      rw [Nat.add_assoc start n k]
      exact slot_ne (by omega) (by omega)
    · rename_i hnew
      have hbound : d + i - n < block.length := by omega
      have hget : block[d + i - n]? = some block[d + i - n] :=
        List.getElem?_eq_getElem _
      rw [hget, ← h.written _ _ hget, show start + n + (d + i - n) = start + (d + i) by omega]
  · rw [getElem?_window_eq_none (by omega), if_neg (by omega), List.getElem?_eq_none (by omega)]

end

variable {α : Type*} {size start stop : ℕ} {read : ℕ → α}

/-- How many slots are used between two positions of a ring. -/
def used (size start stop : ℕ) : ℕ := if stop < start then size + stop - start else stop - start

/-- The items between two positions of a ring. -/
def contents (size : ℕ) (read : ℕ → α) (start stop : ℕ) : List α :=
  window size read start (used size start stop)

@[simp] theorem length_contents :
    (contents size read start stop).length = used size start stop := length_window

theorem used_lt (hstart : start < size) (hstop : stop < size) : used size start stop < size := by
  rw [used]
  split <;> omega

@[simp] theorem used_self : used size start start = 0 := by
  rw [used, if_neg (Nat.lt_irrefl _), Nat.sub_self]

theorem used_eq_zero (hstart : start < size) : used size start stop = 0 ↔ start = stop := by
  rw [used]
  split <;> omega

theorem start_add_used (hstart : start < size) (hstop : stop < size) :
    (start + used size start stop) % size = stop := by
  rw [used]
  split
  · rw [show start + (size + stop - start) = stop + size by omega, Nat.add_mod_right,
      Nat.mod_eq_of_lt hstop]
  · rw [show start + (stop - start) = stop by omega, Nat.mod_eq_of_lt hstop]

/-- A number of used slots below the size is the distance of the positions. -/
theorem used_eq {n : ℕ} (hstart : start < size) (hn : n < size) :
    used size start ((start + n) % size) = n := by
  have hstop := Nat.mod_lt (start + n) (Nat.zero_lt_of_lt hn)
  exact slot_inj (used_lt hstart hstop) hn (start_add_used hstart hstop)

theorem used_mod_eq {n : ℕ} (hn : n < size) :
    used size (start % size) ((start + n) % size) = n := by
  rw [← Nat.mod_add_mod]
  exact used_eq (Nat.mod_lt _ (Nat.zero_lt_of_lt hn)) hn

theorem contents_mod {n : ℕ} (hn : n < size) :
    contents size read (start % size) ((start + n) % size) = window size read start n := by
  rw [contents, used_mod_eq hn, window_mod]

/-- The end and the number of used slots determine the start. -/
theorem start_eq_of_used_eq {start' : ℕ} (hstart : start < size) (hstart' : start' < size)
    (hstop : stop < size) (h : used size start stop = used size start' stop) : start = start' := by
  have hend := start_add_used hstart hstop
  have hend' := start_add_used hstart' hstop
  rw [← h] at hend'
  have hmod : start ≡ start' [MOD size] :=
    Nat.ModEq.add_right_cancel' (used size start stop) (hend.trans hend'.symm)
  rwa [Nat.ModEq, Nat.mod_eq_of_lt hstart, Nat.mod_eq_of_lt hstart'] at hmod

/-- Advancing the start drops the oldest items. -/
theorem contents_drop (hstart : start < size) (hstop : stop < size) {n : ℕ}
    (hn : n ≤ used size start stop) :
    contents size read ((start + n) % size) stop = (contents size read start stop).drop n := by
  have hused := used_lt hstart hstop
  have hend := start_add_used hstart hstop
  rw [contents, contents, window_drop]
  nth_rewrite 1 [← hend]
  rw [show start + used size start stop = start + n + (used size start stop - n) by omega,
    used_mod_eq (by omega), window_mod]

theorem contents_self : contents size read start start = [] := by
  rw [contents, used_self, window_zero]

/-- The first item is in the first slot. -/
theorem contents_cons (hstart : start < size) (hstop : stop < size) (hne : start ≠ stop) :
    contents size read start stop = read start :: contents size read ((start + 1) % size) stop := by
  obtain ⟨n, hn⟩ : ∃ n, used size start stop = n + 1 :=
    Nat.exists_eq_succ_of_ne_zero (mt (used_eq_zero hstart).mp hne)
  have hstopEq := start_add_used hstart hstop
  have hlt := used_lt hstart hstop
  rw [hn] at hstopEq hlt
  rw [contents, hn, window_succ, Nat.mod_eq_of_lt hstart, ← hstopEq,
    show start + (n + 1) = start + 1 + n by omega, contents_mod (by omega)]

theorem getElem?_contents {i : ℕ} (h : i < used size start stop) :
    (contents size read start stop)[i]? = some (read ((start + i) % size)) := getElem?_window h

/-- The items lie in the ring in at most two pieces. -/
theorem contents_eq_pieces (hstart : start < size) (hstop : stop < size) :
    contents size read start stop =
      if stop < start then
        (List.range (size - start)).map (fun i => read (start + i)) ++
          (List.range stop).map (fun i => read i)
      else (List.range (stop - start)).map fun i => read (start + i) := by
  rw [contents, used]
  split
  · rw [show size + stop - start = size - start + stop by omega, ← window_append,
      show start + (size - start) = size by omega, ← @window_mod _ _ size, Nat.mod_self,
      window_of_le (by omega), window_of_le (by omega)]
    simp only [Nat.zero_add]
  · exact window_of_le (by omega)

/-- After a block of items the window ends behind them, and it starts behind its unused slot if
they did not fit. -/
theorem contents_after (hstart : start < size) (hstop : stop < size) (m : ℕ)
    (read' : ℕ → α) :
    contents size read'
        (if used size start stop + m ≤ size - 1 then start else ((stop + m) % size + 1) % size)
        ((stop + m) % size) =
      window size read' (start + (used size start stop + m - (size - 1)))
        (used size start stop + m - (used size start stop + m - (size - 1))) := by
  have hused := used_lt hstart hstop
  have hend : (stop + m) % size = (start + (used size start stop + m)) % size := by
    rw [← Nat.add_assoc, ← Nat.mod_add_mod (start + used size start stop),
      start_add_used hstart hstop]
  rw [hend]
  generalize used size start stop = n at hused
  split
  · rename_i hfits
    rw [Nat.sub_eq_zero_of_le hfits, Nat.add_zero, Nat.sub_zero]
    nth_rewrite 1 [← Nat.mod_eq_of_lt hstart]
    exact contents_mod (by omega)
  · rename_i hfits
    generalize hd : n + m - (size - 1) = d
    have hnext : ((start + (n + m)) % size + 1) % size = (start + d) % size := by
      rw [Nat.mod_add_mod, show start + (n + m) + 1 = start + d + size by omega,
        Nat.add_mod_right]
    rw [hnext, show start + (n + m) = start + d + (size - 1) by omega, contents_mod (by omega),
      show n + m - d = size - 1 by omega]

theorem Appends.contents_eq {read' : ℕ → α} {block : List α} (hstart : start < size)
    (hstop : stop < size)
    (h : Appends size start (used size start stop) read read' block) :
    contents size read'
        (if used size start stop + block.length ≤ size - 1 then start
          else ((stop + block.length) % size + 1) % size)
        ((stop + block.length) % size) =
      pushN (size - 1) (contents size read start stop) block := by
  rw [contents_after hstart hstop]
  exact h.window_eq (used_lt hstart hstop)

/-- A block that is written up to the end of the ring and then from its first slot on. -/
theorem Appends.of_pieces {read' : ℕ → α} {block : List α} {d : α} (hstart : start < size)
    (hstop : stop < size) (hblock : block.length < size)
    (hread : ∀ j < size, read' j =
      if stop ≤ j ∧ j < stop + block.length then block.getD (j - stop) d
      else if j + size < stop + block.length then block.getD (j + size - stop) d else read j) :
    Appends size start (used size start stop) read read' block := by
  have hslot : ∀ i < block.length, (start + used size start stop + i) % size =
      if stop + i < size then stop + i else stop + i - size := by
    intro i hi
    rw [← Nat.mod_add_mod, start_add_used hstart hstop]
    split
    · rename_i hlt
      exact Nat.mod_eq_of_lt hlt
    · rename_i hge
      rw [Nat.mod_eq_sub_mod (Nat.le_of_not_lt hge), Nat.mod_eq_of_lt (by omega)]
  constructor
  · intro i x hget
    have hi : i < block.length := (List.getElem?_eq_some_iff.mp hget).1
    have hvalue : block.getD i d = x := by
      rw [List.getD_eq_getElem?_getD, hget, Option.getD_some]
    rw [hread _ (Nat.mod_lt _ (Nat.zero_lt_of_lt hstop)), hslot i hi]
    split
    · rw [if_pos (by omega), Nat.add_sub_cancel_left, hvalue]
    · rename_i hwrap
      rw [if_neg (by omega), if_pos (by omega),
        show stop + i - size + size - stop = i by omega, hvalue]
  · intro p hp hne
    rw [hread p hp, if_neg, if_neg]
    · intro hsecond
      refine hne (p + size - stop) (by omega) ?_
      rw [hslot _ (by omega), if_neg (by omega)]
      omega
    · rintro ⟨hle, hlt⟩
      refine hne (p - stop) (by omega) ?_
      rw [hslot _ (by omega), if_pos (by omega)]
      omega

/-- The end of the window reaches its start exactly if the ring was full. -/
theorem next_eq_start_iff (hstart : start < size) (hstop : stop < size) :
    (stop + 1) % size = start ↔ used size start stop = size - 1 := by
  have hused := used_lt hstart hstop
  have hend := start_add_used hstart hstop
  have hmod : (stop + 1) % size = (start + (used size start stop + 1)) % size := by
    rw [← hend, Nat.mod_add_mod, used_eq hstart hused, Nat.add_assoc]
  rw [hmod]
  constructor
  · intro h
    by_contra hne
    have hback : (start + (used size start stop + 1)) % size = (start + 0) % size := by
      rw [h, Nat.add_zero, Nat.mod_eq_of_lt hstart]
    exact absurd (slot_inj (by omega) (by omega) hback) (by omega)
  · intro h
    rw [h, show start + (size - 1 + 1) = start + size by omega, Nat.add_mod_right,
      Nat.mod_eq_of_lt hstart]

/-- Advancing the start when the end has reached it makes room for one item. -/
theorem next_start (hstart : start < size) (hstop : stop < size) :
    (if (stop + 1) % size = start then (start + 1) % size else start) =
      if used size start stop + 1 ≤ size - 1 then start
      else ((stop + 1) % size + 1) % size := by
  have hused := used_lt hstart hstop
  by_cases hfull : (stop + 1) % size = start
  · have h := (next_eq_start_iff hstart hstop).mp hfull
    rw [if_pos hfull, if_neg (by omega), hfull]
  · have h := mt (next_eq_start_iff hstart hstop).mpr hfull
    rw [if_neg hfull, if_pos (by omega)]

end Esp32Firmware.BoundedQueue
