import Mathlib

/-!
# Filtering a list in place

Elements that satisfy a predicate are swapped to the front, one after the other.
The front ends up as the filtered list in its old order; the elements that were
skipped keep no order.
-/

namespace Esp32Firmware.SwapFilter

variable {α : Type*}

/-- Exchanges two positions. -/
def swap (xs : List α) (i j : Nat) : List α :=
  match xs[i]?, xs[j]? with
  | some a, some b => (xs.set i b).set j a
  | _, _ => xs

/-- One iteration at position `i`, on the list and the number of matches. -/
def step (p : α → Bool) (st : List α × Nat) (i : Nat) : List α × Nat :=
  match st.1[i]? with
  | some x => if p x then (swap st.1 st.2 i, st.2 + 1) else st
  | none => st

/-- Runs over the first `limit` positions. -/
def run (p : α → Bool) (xs : List α) (limit : Nat) : List α × Nat :=
  (List.range limit).foldl (step p) (xs, 0)

variable (p : α → Bool)

theorem run_succ (xs : List α) (limit : Nat) :
    run p xs (limit + 1) = step p (run p xs limit) limit := by
  simp [run, List.range_succ]

theorem getElem?_length_append (xs : List α) (x : α) (ys : List α) :
    (xs ++ x :: ys)[xs.length]? = some x := by
  simp

theorem set_length_append (xs : List α) (x y : α) (ys : List α) :
    (xs ++ x :: ys).set xs.length y = xs ++ y :: ys := by
  simp

/-- Swapping moves the first skipped element behind the others. -/
theorem swap_append (front : List α) (s : α) (skipped : List α) (x : α) (rest : List α) :
    swap (front ++ s :: skipped ++ x :: rest) front.length (front ++ s :: skipped).length =
      front ++ x :: skipped ++ s :: rest := by
  have hfirst : (front ++ s :: skipped ++ x :: rest)[front.length]? = some s := by
    rw [List.append_assoc, List.cons_append, getElem?_length_append]
  have hsecond : (front ++ s :: skipped ++ x :: rest).set front.length x =
      front ++ x :: skipped ++ x :: rest := by
    rw [List.append_assoc, List.cons_append, set_length_append]
    simp
  have hlen : (front ++ s :: skipped).length = (front ++ x :: skipped).length := by simp
  unfold swap
  rw [hfirst, getElem?_length_append]
  simp only
  rw [hsecond, hlen, set_length_append]

theorem swap_self (front : List α) (x : α) (rest : List α) :
    swap (front ++ x :: rest) front.length front.length = front ++ x :: rest := by
  simp [swap]

/-- After the iterations over `done` the list consists of the filtered part, the
skipped elements and the part not yet visited. -/
theorem run_append (done todo : List α) :
    ∃ skipped, run p (done ++ todo) done.length =
        (done.filter p ++ skipped ++ todo, (done.filter p).length) ∧
      (done.filter p ++ skipped).Perm done := by
  induction done using List.reverseRecOn generalizing todo with
  | nil => exact ⟨[], by simp [run], by simp⟩
  | append_singleton done x ih =>
    obtain ⟨skipped, hrun, hperm⟩ := ih (x :: todo)
    generalize hfront : done.filter p = front at hrun hperm
    have hlen : done.length = (front ++ skipped).length := hperm.length_eq.symm
    have hstep : run p (done ++ [x] ++ todo) (done ++ [x]).length =
        step p (front ++ skipped ++ x :: todo, front.length) (front ++ skipped).length := by
      rw [List.append_assoc, List.singleton_append, List.length_append, List.length_singleton,
        run_succ, hrun, hlen]
    rw [hstep]
    unfold step
    simp only [getElem?_length_append]
    by_cases hp : p x = true
    · have hfilter : (done ++ [x]).filter p = front ++ [x] := by simp [hfront, hp]
      rw [if_pos hp, hfilter]
      cases skipped with
      | nil =>
        refine ⟨[], ?_, by simpa using hperm.append_right [x]⟩
        simp [swap_self]
      | cons s rest =>
        refine ⟨rest ++ [s], by rw [swap_append]; simp, ?_⟩
        have hmove : (front ++ [x] ++ (rest ++ [s])).Perm (front ++ s :: rest ++ [x]) := by
          rw [List.append_assoc, List.append_assoc]
          refine List.Perm.append_left front ?_
          have hlast : (x :: (rest ++ [s])).Perm (rest ++ [s] ++ [x]) :=
            (List.perm_append_singleton x (rest ++ [s])).symm
          exact hlast.trans ((List.perm_append_singleton s rest).append_right [x])
        exact hmove.trans (hperm.append_right [x])
    · have hfilter : (done ++ [x]).filter p = front := by simp [hfront, hp]
      rw [if_neg hp, hfilter]
      refine ⟨skipped ++ [x], by simp, ?_⟩
      rw [← List.append_assoc]
      exact hperm.append_right [x]

variable {xs : List α} {limit : Nat}

section

variable (h : limit ≤ xs.length)
include h

/-- After all iterations the filtered part is in front, and behind it is what was skipped and
what is not visited. -/
theorem run_eq :
    ∃ front, run p xs limit = (front ++ xs.drop limit, ((xs.take limit).filter p).length) ∧
      front.Perm (xs.take limit) ∧ front.length = limit ∧
      front.take ((xs.take limit).filter p).length = (xs.take limit).filter p := by
  obtain ⟨skipped, hrun, hperm⟩ := run_append p (xs.take limit) (xs.drop limit)
  have hlen := hperm.length_eq
  rw [List.take_append_drop, List.length_take_of_le h] at hrun
  rw [List.length_take_of_le h] at hlen
  exact ⟨_, hrun, hperm, hlen, List.take_left' rfl⟩

theorem run_count : (run p xs limit).2 = ((xs.take limit).filter p).length := by
  obtain ⟨_, hrun, -⟩ := run_eq p h
  rw [hrun]

/-- The front is the filtered list. -/
theorem take_run : (run p xs limit).1.take (run p xs limit).2 = (xs.take limit).filter p := by
  obtain ⟨front, hrun, hperm, -, hfront⟩ := run_eq p h
  rw [hrun, List.take_append_of_le_length, hfront]
  rw [hperm.length_eq]
  exact List.length_filter_le _ _

/-- The visited positions hold the same elements as before. -/
theorem take_run_perm : ((run p xs limit).1.take limit).Perm (xs.take limit) := by
  obtain ⟨_, hrun, hperm, hlen, -⟩ := run_eq p h
  rw [hrun, List.take_left' hlen]
  exact hperm

theorem drop_run : (run p xs limit).1.drop limit = xs.drop limit := by
  obtain ⟨_, hrun, -, hlen, -⟩ := run_eq p h
  rw [hrun, List.drop_left' hlen]

end

end Esp32Firmware.SwapFilter
