import Esp32Firmware.PowerManager.MinMaxFilter

/-!
# The time stamps of the minimum and maximum filter

With an update every 500 ms, the time stamp of an extremum should be the time of the update after
which its sample has left the window. The rescan misses it where it finds the sample that was
just written.

## Implementation notes

A log beside the filter counts the updates and notes for each slot by which of them it was
written. A sample leaves the window of `n` samples `n` updates after its own.
-/

namespace Esp32Firmware.PowerManager

open RingBuffer

inductive Side where
  | minimum
  | maximum
deriving DecidableEq

namespace Side

def le : Side → Int32 → Int32 → Prop
  | minimum => (· ≤ ·)
  | maximum => (· ≥ ·)

instance (side : Side) : DecidableRel side.le :=
  match side with
  | minimum => fun a b => inferInstanceAs (Decidable (a ≤ b))
  | maximum => fun a b => inferInstanceAs (Decidable (b ≤ a))

def worst : Side → Int32
  | minimum => Int32.maxValue
  | maximum => Int32.minValue

theorem total (side : Side) (a b : Int32) : side.le a b ∨ side.le b a := by
  cases side with
  | minimum => exact MinMaxFilter.le_total a b
  | maximum => exact MinMaxFilter.le_total b a

theorem trans (side : Side) (a b c : Int32) (hab : side.le a b) (hbc : side.le b c) :
    side.le a c := by
  cases side with
  | minimum => exact Int32.le_trans hab hbc
  | maximum => exact Int32.le_trans hbc hab

theorem le_worst (side : Side) (a : Int32) : side.le a side.worst := by
  cases side with
  | minimum => exact Int32.le_maxValue a
  | maximum => exact Int32.minValue_le a

end Side

namespace MinMaxFilter

def extremum (f : MinMaxFilter) : Side → Extremum
  | .minimum => f.minimum
  | .maximum => f.maximum

def maintains (f : MinMaxFilter) : Side → Bool
  | .minimum => f.maintainsMin
  | .maximum => f.maintainsMax

/-- Where the next update stores its value. -/
def writtenSlot (f : MinMaxFilter) : Nat :=
  if f.minimum.value = Int32.maxValue then 0 else f.historyPos

/-- The update starts the history again, does not overwrite the extremum, or finds another
sample than the new one in its place, or a new extremum without a scan. -/
def KeepsTime (side : Side) (f : MinMaxFilter) (newValue : Int32) : Prop :=
  f.minimum.value = Int32.maxValue ∨ (f.extremum side).historyPos ≠ f.historyPos ∨
    f.maintains side ∧ (side.le newValue (f.extremum side).value ∨
      ∃ i < f.historyLength, i ≠ f.historyPos ∧ ¬ side.le newValue (f.historyValues i))

variable {f : MinMaxFilter} {side : Side} {now : Int} {newValue : Int32} {history : List Int32}

theorem extremum_restart (f : MinMaxFilter) (side : Side) (now : Int) (newValue : Int32) :
    ((f.restart now newValue).extremum side).historyPos = 0 ∧
      ((f.restart now newValue).extremum side).expirationTs =
        timestampAfter now f.historyLength := by
  cases side <;> exact ⟨rfl, rfl⟩

theorem extremum_slide :
    (f.slide now newValue).extremum side =
      if f.maintains side then
        (f.extremum side).update side.le side.worst
          (Function.update f.historyValues f.historyPos newValue) f.historyLength f.historyPos now
          newValue
      else f.extremum side := by
  cases side <;> rfl

theorem Follows.tracks (h : f.Follows history) (hmaintained : f.maintains side) :
    ∃ j, (f.extremum side).Tracks side.le f.historyLength history j := by
  cases side with
  | minimum => exact h.minimum hmaintained
  | maximum => exact h.maximum hmaintained

end MinMaxFilter

/-- A filter with a count of its updates, and for each slot the number of the update that wrote
it. -/
structure Logged where
  filter : MinMaxFilter
  updates : Nat := 0
  writtenBy : Nat → Nat := fun _ => 0

/-- The time of an update. -/
def timeOf (start : Int) (number : Int) : Int := start + number * (pmTaskDelayMs * 1000)

namespace Logged

def update (start : Int) (l : Logged) (newValue : Int32) : Logged where
  filter := l.filter.update (timeOf start l.updates) newValue
  updates := l.updates + 1
  writtenBy := Function.update l.writtenBy l.filter.writtenSlot l.updates

/-- After how many updates from the last one on the sample in a slot has left the window. -/
def updatesLeft (l : Logged) (slot : Nat) : Int :=
  l.filter.historyLength - (l.updates - 1 - l.writtenBy slot)

/-- The time stamp is that of the update after which the sample has left the window. -/
def Right (start : Int) (side : Side) (l : Logged) : Prop :=
  (l.filter.extremum side).expirationTs = timeOf start (l.updates - 1) +
    l.updatesLeft (l.filter.extremum side).historyPos * (pmTaskDelayMs * 1000)

/-- What the log knows after the updates since the last restart. -/
structure Invariant (n : Nat) (l : Logged) : Prop where
  length : l.filter.historyLength = n
  written_lt : ∀ slot, l.writtenBy slot < l.updates
  follows : ∃ first history, l.filter.Follows history ∧ l.updates = first + history.length ∧
    Holds n l.writtenBy (List.range' first history.length)

section

variable {l : Logged} {n : Nat} {start : Int} {side : Side} {newValue : Int32}

theorem right_iff : l.Right start side ↔ (l.filter.extremum side).expirationTs =
      timeOf start (l.writtenBy (l.filter.extremum side).historyPos + l.filter.historyLength) := by
  rw [Right, updatesLeft, timeOf, timeOf]
  constructor
  · intro h
    rw [h]
    ring
  · intro h
    rw [h]
    ring

theorem timestampAfter_eq_iff (samples : Nat) (number : Int) :
    timestampAfter (timeOf start number) samples = timeOf start (number + samples) ↔
      samples * 500 < 2 ^ 31 := by
  have hlt : ((samples : Int) * 500).bmod (2 ^ 32) < 2 ^ 31 :=
    Int.bmod_lt (by norm_num)
  rw [timestampAfter, timeOf, timeOf, pmTaskDelayMs]
  constructor
  · intro h
    omega
  · intro h
    rw [Int.bmod_eq_of_le (by omega) (by omega)]
    ring

/-- A sample later in the window has a part of its length left. -/
theorem timestampAfter_part {samples : Int} (hlow : 0 ≤ samples) (hhigh : samples < n)
    (hbound : n * 500 < 2 ^ 31) (number : Int) :
    timestampAfter (timeOf start number) samples = timeOf start (number + samples) := by
  obtain ⟨part, rfl⟩ := Int.eq_ofNat_of_zero_le hlow
  have hpart : part * 500 ≤ n * 500 := Nat.mul_le_mul_right _ (Int.ofNat_lt.mp hhigh).le
  exact (timestampAfter_eq_iff part number).mpr (hpart.trans_lt hbound)

theorem writtenBy_update (slot : Nat) :
    (l.update start newValue).writtenBy slot =
      if slot = l.filter.writtenSlot then l.updates else l.writtenBy slot :=
  Function.update_apply _ _ _ _

theorem update_blank (hblank : l.filter.minimum.value = Int32.maxValue) :
    (l.update start newValue).filter = l.filter.restart (timeOf start l.updates) newValue :=
  MinMaxFilter.update_blank hblank _ _

theorem right_update_blank (hblank : l.filter.minimum.value = Int32.maxValue) :
    (l.update start newValue).Right start side ↔ l.filter.historyLength * 500 < 2 ^ 31 := by
  have hlength : (l.filter.restart (timeOf start l.updates) newValue).historyLength =
      l.filter.historyLength := rfl
  have hslot : l.filter.writtenSlot = 0 := if_pos hblank
  obtain ⟨hpos, hexpiration⟩ :=
    MinMaxFilter.extremum_restart l.filter side (timeOf start l.updates) newValue
  rw [right_iff, update_blank hblank, hpos, hexpiration, writtenBy_update, hslot, if_pos rfl,
    hlength]
  exact timestampAfter_eq_iff _ _

theorem written_lt_update (h : ∀ slot, l.writtenBy slot ≤ l.updates) (slot : Nat) :
    (l.update start newValue).writtenBy slot < (l.update start newValue).updates := by
  have hslot := h slot
  rw [writtenBy_update]
  show _ < l.updates + 1
  split <;> omega

theorem invariant_update_blank (hn : 0 < n) (hlength : l.filter.historyLength = n)
    (hwritten : ∀ slot, l.writtenBy slot ≤ l.updates)
    (hblank : l.filter.minimum.value = Int32.maxValue) :
    (l.update start newValue).Invariant n where
  length := by
    rw [update_blank hblank]
    exact hlength
  written_lt := written_lt_update hwritten
  follows := by
    refine ⟨l.updates, [newValue], ?_, rfl, ?_⟩
    · rw [update_blank hblank]
      exact MinMaxFilter.follows_restart (by omega) _ _
    · have hslot : l.filter.writtenSlot = 0 := if_pos hblank
      show Holds n (Function.update l.writtenBy l.filter.writtenSlot l.updates) [l.updates]
      rw [hslot]
      exact Holds.single _ _

theorem update_samples (hsamples : l.filter.minimum.value ≠ Int32.maxValue) :
    (l.update start newValue).filter = l.filter.slide (timeOf start l.updates) newValue :=
  MinMaxFilter.update_samples hsamples _ _

theorem Invariant.update (hn : 0 < n) (h : l.Invariant n) :
    (l.update start newValue).Invariant n := by
  by_cases hblank : l.filter.minimum.value = Int32.maxValue
  · exact invariant_update_blank hn h.length (fun slot => (h.written_lt slot).le) hblank
  · obtain ⟨first, history, hfollows, hupdates, hholds⟩ := h.follows
    refine ⟨?_, written_lt_update fun slot => (h.written_lt slot).le, first,
      history ++ [newValue], ?_, ?_, ?_⟩
    · rw [update_samples hblank]
      exact h.length
    · rw [update_samples hblank]
      exact hfollows.slide _ _
    · show l.updates + 1 = _
      rw [hupdates, List.length_append, List.length_singleton, Nat.add_assoc]
    · have hslot : l.filter.writtenSlot = history.length % n :=
        (if_neg hblank).trans (hfollows.pos.trans (congrArg _ h.length))
      have hpush := hholds.push l.updates
      rw [List.length_range', hupdates] at hpush
      show Holds n (Function.update l.writtenBy l.filter.writtenSlot l.updates) _
      rw [hslot, hupdates, List.length_append, List.length_singleton, List.range'_concat, Nat.one_mul]
      exact hpush

/-- The slots of two entries of the window are as far apart as their numbers, around the ring. -/
theorem slot_distance {len j : Nat} (hle : j < len) (hwindow : len < j + n) :
    (j % n < len % n ∧ len % n = j % n + (len - j)) ∨
      (len % n < j % n ∧ len % n + n = j % n + (len - j)) := by
  have hj := Nat.mod_lt j (show 0 < n by omega)
  have hsum : (j % n + (len - j)) % n = len % n := by
    rw [Nat.mod_add_mod, Nat.add_sub_cancel' hle.le]
  by_cases hwrap : j % n + (len - j) < n
  · rw [Nat.mod_eq_of_lt hwrap] at hsum
    omega
  · rw [Nat.mod_eq_sub_mod (by omega), Nat.mod_eq_of_lt (by omega)] at hsum
    omega

/-- A rescan finds the new sample if and only if no other is better. -/
theorem scan_finds_new (side : Side) (slots : Nat → Int32) {pos : Nat} (hpos : pos < n)
    (newValue : Int32) :
    (scan side.le (Function.update slots pos newValue) side.worst (positions n pos)).2 = pos ↔
      ∀ i < n, i ≠ pos → side.le newValue (slots i) := by
  have hnot : pos ∉ older n pos := fun hmem => ((mem_older hpos).mp hmem).2 rfl
  rw [positions_eq, scan_eq_last _ side.total side.trans hnot fun _ _ => side.le_worst _,
    Function.update_self]
  constructor
  · intro h i hi hne
    have hle := h i ((mem_older hpos).mpr ⟨hi, hne⟩)
    rwa [Function.update_of_ne hne] at hle
  · intro h i hmem
    obtain ⟨hi, hne⟩ := (mem_older hpos).mp hmem
    rw [Function.update_of_ne hne]
    exact h i hi hne

/-- The time stamp of a rescan, for a sample found in another slot than the new one. -/
theorem expirationTimestamp_older {len j : Nat} (hbound : n * 500 < 2 ^ 31) (hle : j < len)
    (hwindow : len < j + n) (number : Int) :
    calculateMinmaxFilterExpirationTimestamp (timeOf start (number + len)) (j % n) (len % n) n =
      timeOf start (number + j + n) := by
  have hlow : (0 : Int) ≤ n - (len - j : Int) := by omega
  have hsamples : (if ((j % n : Nat) : Int) - (len % n : Nat) < 0
      then ((j % n : Nat) : Int) - (len % n : Nat) + n
      else ((j % n : Nat) : Int) - (len % n : Nat)) = n - (len - j : Int) := by
    rcases slot_distance hle hwindow with ⟨hlt, heq⟩ | ⟨hlt, heq⟩
    · rw [if_pos (by omega)]
      omega
    · rw [if_neg (by omega)]
      omega
  rw [calculateMinmaxFilterExpirationTimestamp, hsamples,
    timestampAfter_part hlow (by omega) hbound]
  congr 1
  ring

/-- The time stamp of a rescan that finds the new sample is the time of the update. -/
theorem expirationTimestamp_new (now : Int) (pos : Nat) :
    calculateMinmaxFilterExpirationTimestamp now pos pos n = now := by
  rw [calculateMinmaxFilterExpirationTimestamp, Int.sub_self]
  exact Int.add_zero now

/-- A rescan gives the right time stamp if and only if it finds another sample than the new
one. -/
theorem rescan_right_iff (hn : 0 < n) (hbound : n * 500 < 2 ^ 31) {first len slot : Nat}
    {writtenBy : Nat → Nat} (hslot : slot < n) (hfull : n ≤ len)
    (hholds : Holds n writtenBy (List.range' first len)) :
    calculateMinmaxFilterExpirationTimestamp (timeOf start ((first + len : Nat) : Int)) slot
        (len % n) n =
      timeOf start (((if slot = len % n then first + len else writtenBy slot : Nat) : Int) + n) ↔
      slot ≠ len % n := by
  by_cases hsame : slot = len % n
  · rw [if_pos hsame, hsame, expirationTimestamp_new, timeOf, timeOf, pmTaskDelayMs]
    constructor
    · intro h
      omega
    · intro h
      exact absurd rfl h
  · obtain ⟨j, hle, hwindow, hj⟩ := exists_entry hslot hfull
    have hne : j ≠ len := by
      rintro rfl
      exact hsame hj.symm
    have hwritten : writtenBy slot = first + j := by
      rw [← hj]
      refine hholds j _ ?_ (by rw [List.length_range']; omega)
      rw [List.getElem?_range' (by omega), Nat.one_mul]
    rw [if_neg hsame, hwritten, ← hj, Nat.cast_add, Nat.cast_add,
      expirationTimestamp_older hbound (by omega) hwindow]
    exact iff_of_true rfl (hj ▸ hsame)

theorem right_update (hn : 0 < n) (hbound : n * 500 < 2 ^ 31) (h : l.Invariant n)
    (hright : l.Right start side) :
    (l.update start newValue).Right start side ↔ l.filter.KeepsTime side newValue := by
  by_cases hblank : l.filter.minimum.value = Int32.maxValue
  · rw [right_update_blank hblank, h.length]
    exact iff_of_true hbound (.inl hblank)
  · obtain ⟨first, history, hfollows, hupdates, hholds⟩ := h.follows
    have hlength := h.length
    have hslot : l.filter.writtenSlot = l.filter.historyPos := if_neg hblank
    have hnewLength : (l.update start newValue).filter.historyLength = n := (h.update hn).length
    have hpos : l.filter.historyPos = history.length % n := hlength ▸ hfollows.pos
    have hkeeps : l.filter.KeepsTime side newValue ↔
        (l.filter.extremum side).historyPos ≠ l.filter.historyPos ∨ l.filter.maintains side ∧
          (side.le newValue (l.filter.extremum side).value ∨
            ∃ i < n, i ≠ l.filter.historyPos ∧ ¬ side.le newValue (l.filter.historyValues i)) := by
      rw [MinMaxFilter.KeepsTime, hlength]
      exact or_iff_right hblank
    rw [right_iff, hlength] at hright
    rw [hkeeps, right_iff, hnewLength, writtenBy_update, hslot, update_samples hblank,
      MinMaxFilter.extremum_slide, hlength]
    have htracks : l.filter.maintains side →
        ∃ j, (l.filter.extremum side).Tracks side.le n history j := fun hmaintained =>
      hlength ▸ hfollows.tracks hmaintained
    generalize l.filter.extremum side = e at hright htracks ⊢
    by_cases hmaintained : l.filter.maintains side
    · rw [if_pos hmaintained, Extremum.update]
      split
      · rename_i hle
        rw [if_pos rfl, timestampAfter_eq_iff]
        exact iff_of_true hbound (.inr ⟨hmaintained, .inl hle⟩)
      · rename_i hle
        split
        · rename_i hsame
          obtain ⟨j, hj⟩ := htracks hmaintained
          have hfull : history.length = j + n :=
            eq_leaving (lt_of_getElem? hj.value) hj.window (hj.slot.symm.trans (hsame.trans hpos))
          rw [hpos] at hsame ⊢
          have hpos_lt := Nat.mod_lt history.length hn
          have hfound := scan_spec
            (Function.update l.filter.historyValues (history.length % n) newValue) side.total
            side.trans (positions n (history.length % n)) (fun _ _ => side.le_worst _)
            (by rw [positions_eq]; simp)
          have hmem := (mem_positions hpos_lt).mp hfound.1
          rw [hupdates]
          refine (rescan_right_iff hn hbound hmem (by omega) hholds).trans ?_
          rw [Ne, scan_finds_new side l.filter.historyValues hpos_lt newValue]
          constructor
          · intro hother
            push Not at hother
            exact .inr ⟨hmaintained, .inr hother⟩
          · rintro (hne | ⟨-, hbetter | ⟨i, hi, hne, hbetter⟩⟩) hall
            · exact hne hsame
            · exact hle hbetter
            · exact hbetter (hall i hi hne)
        · rename_i hother
          exact iff_of_true hright (.inl hother)
    · rw [if_neg hmaintained]
      split
      · rename_i hsame
        have hwritten := h.written_lt e.historyPos
        rw [hright, timeOf, timeOf, pmTaskDelayMs]
        constructor
        · intro heq
          omega
        · rintro (hne | ⟨hmaintains, -⟩)
          · exact absurd hsame hne
          · exact absurd hmaintains hmaintained
      · rename_i hother
        exact iff_of_true hright (.inl hother)

end

/-- A filter without samples, whatever memory it got. -/
def init (memory : Nat → Int32) (valuesCount : Nat) (type : FilterType) : Logged where
  filter := .init memory valuesCount type

instance (start : Int) (side : Side) (l : Logged) : Decidable (l.Right start side) :=
  inferInstanceAs (Decidable (_ = _))

end Logged

instance MinMaxFilter.decidableKeepsTime (side : Side) (f : MinMaxFilter) (newValue : Int32) :
    Decidable (f.KeepsTime side newValue) :=
  inferInstanceAs (Decidable (_ ∨ _))

/-- The time stamp of an extremum is right after every update if and only if the window in
milliseconds is an `int32_t` and no update overwrites the extremum and finds its own sample in
the rescan, or does without a rescan since the filter does not maintain this extremum. -/
theorem expirationTs_right_iff (memory : Nat → Int32) (n : Nat) (hn : 1 ≤ n) (type : FilterType)
    (start : Int) (side : Side) (inputs : List Int32) :
    Meets (Logged.update start) (fun l x => (l.update start x).Right start side)
        (.init memory n type) inputs ↔
      inputs = [] ∨ n * 500 < 2 ^ 31 ∧
        Meets (Logged.update start) (fun l x => l.filter.KeepsTime side x) (.init memory n type)
          inputs := by
  have hblank := MinMaxFilter.blank_init memory n type
  have hlength : (Logged.init memory n type).filter.historyLength = n := if_neg (by omega)
  cases inputs with
  | nil => exact iff_of_true trivial (.inl rfl)
  | cons first rest =>
    have hfirst : ((Logged.init memory n type).update start first).Right start side ↔
        n * 500 < 2 ^ 31 := by
      rw [Logged.right_update_blank hblank.minimum, hlength]
    have hinvariant : ((Logged.init memory n type).update start first).Invariant n :=
      Logged.invariant_update_blank hn hlength (fun _ => Nat.le_refl _) hblank.minimum
    have hrest (hbound : n * 500 < 2 ^ 31)
        (hright : ((Logged.init memory n type).update start first).Right start side) :
        Meets (Logged.update start) (fun l x => (l.update start x).Right start side)
            ((Logged.init memory n type).update start first) rest ↔
          Meets (Logged.update start) (fun l x => l.filter.KeepsTime side x)
            ((Logged.init memory n type).update start first) rest := by
      refine Meets.congr_of_invariant (I := fun l => l.Invariant n ∧ l.Right start side)
        ?_ ?_ ⟨hinvariant, hright⟩
      · rintro l x ⟨hl, hlright⟩
        exact Logged.right_update hn hbound hl hlright
      · rintro l x ⟨hl, -⟩ hnext
        exact ⟨hl.update hn, hnext⟩
    constructor
    · rintro ⟨hright, hmeets⟩
      have hbound := hfirst.mp hright
      exact .inr ⟨hbound, .inl hblank.minimum, (hrest hbound hright).mp hmeets⟩
    · rintro (hempty | ⟨hbound, -, hmeets⟩)
      · exact absurd hempty (List.cons_ne_nil _ _)
      · have hright := hfirst.mpr hbound
        exact ⟨hright, (hrest hbound hright).mpr hmeets⟩

theorem expirationTs_right_two :
    Meets (Logged.update 0) (fun l x => (l.update 0 x).Right 0 .minimum)
      (.init (fun _ => 0) 2 .minMax) [1, 3, 5, 2] :=
  (expirationTs_right_iff (fun _ => 0) 2 (by decide) .minMax 0 .minimum [1, 3, 5, 2]).mpr
    (.inr ⟨by decide, by decide⟩)

/-- The minimum 1 leaves the window, and the second 5 takes its slot and its place. -/
theorem expirationTs_wrong_two :
    ¬ Meets (Logged.update 0) (fun l x => (l.update 0 x).Right 0 .minimum)
      (.init (fun _ => 0) 2 .minMax) [1, 5, 5] := by
  decide

end Esp32Firmware.PowerManager
