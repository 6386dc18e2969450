import Esp32Firmware.Library.RingBuffer
import Esp32Firmware.Library.Run

/-!
# The minimum and maximum filter

The power manager keeps the minimum and the maximum of the last samples, and with each of them
the time at which its sample leaves the window.

## Implementation notes

Times are in microseconds, an update reads the clock once. The memory of the history is not
initialised. Slots are numbered below the length, a positive `int32_t`; where the length is
multiplied, the product is one of 32 bits.
-/

namespace Esp32Firmware.PowerManager

open RingBuffer

inductive FilterType where
  | minOnly
  | maxOnly
  | minMax
deriving DecidableEq

/-- `PM_TASK_DELAY_MS` -/
def pmTaskDelayMs : Int := 500

/-- The time after a number of samples, in `int32_t` milliseconds. -/
def timestampAfter (now samples : Int) : Int := now + (samples * pmTaskDelayMs).bmod (2 ^ 32) * 1000

def calculateMinmaxFilterExpirationTimestamp (now : Int) (valuePos currentPos historyLength : Nat) :
    Int :=
  let expirationInSamples : Int := valuePos - currentPos
  timestampAfter now
    (if expirationInSamples < 0 then expirationInSamples + historyLength else expirationInSamples)

/-- `min`, `history_min_pos` and `min_expiration_ts`, or those of the maximum. -/
structure Extremum where
  value : Int32
  historyPos : Nat
  expirationTs : Int

/-- The part of `update` for one extremum, after the new value was stored at `pos`. -/
def Extremum.update (le : Int32 → Int32 → Prop) [DecidableRel le] (worst : Int32) (e : Extremum)
    (values : Nat → Int32) (historyLength pos : Nat) (now : Int) (newValue : Int32) : Extremum :=
  if le newValue e.value then ⟨newValue, pos, timestampAfter now historyLength⟩
  else if e.historyPos = pos then
    let (value, valuePos) := scan le values worst (positions historyLength pos)
    ⟨value, valuePos, calculateMinmaxFilterExpirationTimestamp now valuePos pos historyLength⟩
  else e

structure MinMaxFilter where
  minimum : Extremum := ⟨Int32.maxValue, 0, 0⟩
  maximum : Extremum := ⟨Int32.maxValue, 0, 0⟩
  historyValues : Nat → Int32
  historyLength : Nat
  historyPos : Nat := 0
  type : FilterType

namespace MinMaxFilter

def init (memory : Nat → Int32) (valuesCount : Nat) (type : FilterType) : MinMaxFilter where
  historyValues := memory
  historyLength := if valuesCount = 0 then 1 else valuesCount
  type := type

def getMin (f : MinMaxFilter) : Int32 := f.minimum.value

def getMax (f : MinMaxFilter) : Int32 := f.maximum.value

def maintainsMin (f : MinMaxFilter) : Bool := f.type ≠ .maxOnly

def maintainsMax (f : MinMaxFilter) : Bool := f.type ≠ .minOnly

/-- The history is filled from its start. -/
def restart (f : MinMaxFilter) (now : Int) (newValue : Int32) : MinMaxFilter :=
  let expiration := timestampAfter now f.historyLength
  { f with
    minimum := ⟨newValue, 0, expiration⟩
    maximum := ⟨if f.type = .minOnly then -1 else newValue, 0, expiration⟩
    historyPos := if f.historyLength = 1 then 0 else 1
    historyValues := Function.update f.historyValues 0 newValue }

/-- The new value replaces the oldest one. -/
def slide (f : MinMaxFilter) (now : Int) (newValue : Int32) : MinMaxFilter :=
  let values := Function.update f.historyValues f.historyPos newValue
  { f with
    historyValues := values
    minimum :=
      if f.maintainsMin then
        f.minimum.update (· ≤ ·) Int32.maxValue values f.historyLength f.historyPos now newValue
      else f.minimum
    maximum :=
      if f.maintainsMax then
        f.maximum.update (· ≥ ·) Int32.minValue values f.historyLength f.historyPos now newValue
      else f.maximum
    historyPos := if f.historyLength ≤ f.historyPos + 1 then 0 else f.historyPos + 1 }

/-- A minimum of `INT32_MAX` stands for a filter without samples. -/
def update (f : MinMaxFilter) (now : Int) (newValue : Int32) : MinMaxFilter :=
  if f.minimum.value = Int32.maxValue then f.restart now newValue else f.slide now newValue

end MinMaxFilter

/-- A sample among the last `n` is an extremum of them, and the filter knows it. -/
structure Extremum.Tracks (le : Int32 → Int32 → Prop) (n : Nat) (history : List Int32)
    (e : Extremum) (j : Nat) : Prop where
  window : history.length ≤ j + n
  slot : e.historyPos = j % n
  value : history[j]? = some e.value
  best : ∀ i x, history[i]? = some x → history.length ≤ i + n → le e.value x

section

variable {le : Int32 → Int32 → Prop} [DecidableRel le] {n : Nat} {history : List Int32}
  {e : Extremum} {slots : Nat → Int32} {j : Nat} {worst : Int32}

theorem getElem?_append_new {newValue x : Int32} {i : Nat}
    (h : (history ++ [newValue])[i]? = some x) :
    i < history.length ∧ history[i]? = some x ∨ i = history.length ∧ x = newValue := by
  have hlt : i < history.length + 1 := by simpa using lt_of_getElem? h
  by_cases hi : i = history.length
  · subst hi
    rw [List.getElem?_concat_length] at h
    exact .inr ⟨rfl, (Option.some.inj h).symm⟩
  · rw [List.getElem?_append_left (by omega)] at h
    exact .inl ⟨by omega, h⟩

/-- An update keeps track of the extremum. -/
theorem Extremum.Tracks.update (hn : 0 < n) (htotal : ∀ a b, le a b ∨ le b a)
    (htrans : ∀ a b c, le a b → le b c → le a c) (hworst : ∀ a, le a worst)
    (hslots : Holds n slots history) (h : e.Tracks le n history j) (now : Int) (newValue : Int32) :
    ∃ k, (e.update le worst (Function.update slots (history.length % n) newValue) n
      (history.length % n) now newValue).Tracks le n (history ++ [newValue]) k := by
  have hpos : history.length % n < n := Nat.mod_lt _ hn
  have hpush := hslots.push newValue
  generalize hvalues : Function.update slots (history.length % n) newValue = values at hpush ⊢
  have hlt := lt_of_getElem? h.value
  have hlength : (history ++ [newValue]).length = history.length + 1 := by simp
  unfold Extremum.update
  split
  · rename_i hle
    refine ⟨history.length, by rw [hlength]; omega, rfl, List.getElem?_concat_length, ?_⟩
    intro i x hx hwindow
    rw [hlength] at hwindow
    rcases getElem?_append_new hx with ⟨-, hold⟩ | ⟨-, rfl⟩
    · exact htrans _ _ _ hle (h.best i x hold (by omega))
    · exact (htotal _ _).elim id id
  · rename_i hle
    split
    · rename_i hsame
      -- The ring is full, so every slot holds one of the last entries.
      have hfull : history.length = j + n :=
        eq_leaving hlt h.window (h.slot.symm.trans hsame)
      obtain ⟨hmem, hvalue, hbest⟩ := scan_spec values htotal htrans
        (positions n (history.length % n)) (fun _ _ => hworst _) (by rw [positions_eq]; simp)
      generalize scan le values worst (positions n (history.length % n)) = found at hmem hvalue hbest
      obtain ⟨value, valuePos⟩ := found
      dsimp only at hmem hvalue hbest ⊢
      have hlen : n ≤ history.length := hfull ▸ Nat.le_add_left n j
      obtain ⟨k, hk, hkn, hslot⟩ := exists_entry ((mem_positions hpos).mp hmem) hlen
      refine ⟨k, by rw [hlength]; omega, hslot.symm, ?_, ?_⟩
      · have hkl : k < (history ++ [newValue]).length := by rw [hlength]; omega
        rw [List.getElem?_eq_getElem hkl, hvalue, ← hslot]
        exact congrArg some
          (hpush k _ (List.getElem?_eq_getElem hkl) (by rw [hlength]; omega)).symm
      · intro i x hx hwindow
        rw [← hpush i x hx hwindow]
        exact hbest _ ((mem_positions hpos).mpr (Nat.mod_lt _ hn))
    · rename_i hother
      have hstays : history.length ≠ j + n := by
        intro hfull
        rw [h.slot, hfull, Nat.add_mod_right] at hother
        exact hother rfl
      have hwindow' := h.window
      refine ⟨j, by rw [hlength]; omega, h.slot, ?_, ?_⟩
      · rw [List.getElem?_append_left hlt]
        exact h.value
      · intro i x hx hwindow
        rw [hlength] at hwindow
        rcases getElem?_append_new hx with ⟨-, hold⟩ | ⟨-, rfl⟩
        · exact h.best i x hold (by omega)
        · exact (htotal _ _).resolve_left hle

end

namespace MinMaxFilter

/-- What the filter has of the samples since its last restart. -/
structure Follows (f : MinMaxFilter) (history : List Int32) : Prop where
  length_pos : 0 < f.historyLength
  slots : Holds f.historyLength f.historyValues history
  pos : f.historyPos = history.length % f.historyLength
  mem : f.minimum.value ∈ history
  minimum : f.maintainsMin → ∃ j, f.minimum.Tracks (· ≤ ·) f.historyLength history j
  maximum : f.maintainsMax → ∃ j, f.maximum.Tracks (· ≥ ·) f.historyLength history j

theorem le_total (a b : Int32) : a ≤ b ∨ b ≤ a := by
  rw [Int32.le_iff_toInt_le, Int32.le_iff_toInt_le]
  exact Int.le_total _ _

section

variable {f : MinMaxFilter} {history : List Int32}

theorem follows_restart (hlength : 0 < f.historyLength) (now : Int) (newValue : Int32) :
    (f.restart now newValue).Follows [newValue] where
  length_pos := hlength
  slots := Holds.single _ _
  pos := by
    show (if f.historyLength = 1 then 0 else 1) = 1 % f.historyLength
    split
    · rename_i hone
      rw [hone]
    · exact (Nat.mod_eq_of_lt (by omega)).symm
  mem := List.mem_singleton_self _
  minimum _ := by
    refine ⟨0, ?_, (Nat.zero_mod _).symm, rfl, fun i x hx _ => ?_⟩
    · rw [Nat.zero_add]
      exact hlength
    · rw [List.mem_singleton.mp (List.mem_of_getElem? hx)]
      exact Int32.le_refl _
  maximum hmax := by
    have hvalue : (f.restart now newValue).maximum.value = newValue :=
      if_neg (of_decide_eq_true hmax)
    refine ⟨0, ?_, (Nat.zero_mod _).symm, ?_, fun i x hx _ => ?_⟩
    · rw [Nat.zero_add]
      exact hlength
    · rw [hvalue]
      rfl
    · rw [hvalue, List.mem_singleton.mp (List.mem_of_getElem? hx)]
      exact Int32.le_refl _

section

variable (now : Int) (newValue : Int32)

theorem minimum_slide : (f.slide now newValue).minimum =
      if f.maintainsMin then
        f.minimum.update (· ≤ ·) Int32.maxValue
          (Function.update f.historyValues f.historyPos newValue) f.historyLength f.historyPos now
          newValue
      else f.minimum := rfl

theorem maximum_slide : (f.slide now newValue).maximum =
      if f.maintainsMax then
        f.maximum.update (· ≥ ·) Int32.minValue
          (Function.update f.historyValues f.historyPos newValue) f.historyLength f.historyPos now
          newValue
      else f.maximum := rfl

theorem historyPos_slide : (f.slide now newValue).historyPos =
      if f.historyLength ≤ f.historyPos + 1 then 0 else f.historyPos + 1 := rfl

end

section

variable (h : f.Follows history) (now : Int) (newValue : Int32)
include h

theorem Follows.tracks_minimum (hmaintained : f.maintainsMin) :
    ∃ j, (f.slide now newValue).minimum.Tracks (· ≤ ·) f.historyLength (history ++ [newValue]) j := by
  obtain ⟨j, hj⟩ := h.minimum hmaintained
  rw [minimum_slide, if_pos hmaintained, h.pos]
  exact hj.update h.length_pos le_total (fun _ _ _ => Int32.le_trans) Int32.le_maxValue h.slots now
    newValue

theorem Follows.tracks_maximum (hmaintained : f.maintainsMax) :
    ∃ j, (f.slide now newValue).maximum.Tracks (· ≥ ·) f.historyLength (history ++ [newValue]) j := by
  obtain ⟨j, hj⟩ := h.maximum hmaintained
  rw [maximum_slide, if_pos hmaintained, h.pos]
  exact hj.update h.length_pos (fun a b => le_total b a)
    (fun _ _ _ hab hbc => Int32.le_trans hbc hab) Int32.minValue_le h.slots now newValue

/-- A filter with samples gets one more. -/
theorem Follows.slide : (f.slide now newValue).Follows (history ++ [newValue]) where
  length_pos := h.length_pos
  slots := by
    have hpush := h.slots.push newValue
    rwa [← h.pos] at hpush
  pos := by
    rw [historyPos_slide, h.pos, next_slot h.length_pos, List.length_append, List.length_singleton]
    rfl
  mem := by
    by_cases hmaintained : f.maintainsMin
    · obtain ⟨j, hj⟩ := h.tracks_minimum now newValue hmaintained
      exact List.mem_of_getElem? hj.value
    · rw [minimum_slide, if_neg hmaintained]
      exact List.mem_append_left _ h.mem
  minimum := h.tracks_minimum now newValue
  maximum := h.tracks_maximum now newValue

end

/-- What a filter without samples has, whatever memory it got. -/
structure Blank (f : MinMaxFilter) : Prop where
  length_pos : 0 < f.historyLength
  minimum : f.minimum.value = Int32.maxValue

theorem blank_init (memory : Nat → Int32) (valuesCount : Nat) (type : FilterType) :
    (init memory valuesCount type).Blank where
  length_pos := by
    show 0 < (if valuesCount = 0 then 1 else valuesCount)
    split <;> omega
  minimum := rfl

theorem update_blank (h : f.minimum.value = Int32.maxValue) (now : Int) (newValue : Int32) :
    f.update now newValue = f.restart now newValue := if_pos h

theorem update_samples (h : f.minimum.value ≠ Int32.maxValue) (now : Int) (newValue : Int32) :
    f.update now newValue = f.slide now newValue := if_neg h

end

def updateTimed (f : MinMaxFilter) (sample : Int × Int32) : MinMaxFilter :=
  f.update sample.1 sample.2

/-- A filter that follows samples without `INT32_MAX` goes on with them. -/
theorem Follows.run {f : MinMaxFilter} {history : List Int32} (h : f.Follows history)
    (hhistory : Int32.maxValue ∉ history) {samples : List (Int × Int32)}
    (hsamples : Int32.maxValue ∉ samples.map Prod.snd) :
    (run updateTimed f samples).Follows (history ++ samples.map Prod.snd) ∧
      (run updateTimed f samples).type = f.type ∧
      (run updateTimed f samples).historyLength = f.historyLength := by
  induction samples generalizing f history with
  | nil =>
    rw [List.map_nil, List.append_nil]
    exact ⟨h, rfl, rfl⟩
  | cons sample samples ih =>
    rw [List.map_cons, List.mem_cons, not_or] at hsamples
    have hne : f.minimum.value ≠ Int32.maxValue := fun heq => hhistory (heq ▸ h.mem)
    have hnext : f.updateTimed sample = f.slide sample.1 sample.2 := update_samples hne _ _
    have hfollows : (f.updateTimed sample).Follows (history ++ [sample.2]) := by
      rw [hnext]
      exact h.slide sample.1 sample.2
    have hnot : Int32.maxValue ∉ history ++ [sample.2] := by
      rw [List.mem_append, List.mem_singleton, not_or]
      exact ⟨hhistory, hsamples.1⟩
    obtain ⟨hrun, htype, hlength⟩ := ih hfollows hnot hsamples.2
    rw [List.append_assoc, List.singleton_append] at hrun
    refine ⟨hrun, htype.trans ?_, hlength.trans ?_⟩
    · rw [hnext]
      rfl
    · rw [hnext]
      rfl

end MinMaxFilter

/-- The last `n` values. -/
def lastValues (n : Nat) (values : List Int32) : List Int32 := values.drop (values.length - n)

theorem mem_lastValues {n : Nat} {values : List Int32} {x : Int32} :
    x ∈ lastValues n values ↔ ∃ i, values[i]? = some x ∧ values.length ≤ i + n := by
  rw [lastValues, List.mem_iff_getElem?]
  constructor
  · rintro ⟨i, hi⟩
    rw [List.getElem?_drop] at hi
    exact ⟨_, hi, by omega⟩
  · rintro ⟨i, hi, hle⟩
    refine ⟨i - (values.length - n), ?_⟩
    rw [List.getElem?_drop]
    have hlt := lt_of_getElem? hi
    rwa [show values.length - n + (i - (values.length - n)) = i by omega]

theorem Extremum.Tracks.mem_and_best {le : Int32 → Int32 → Prop} {n j : Nat}
    {history : List Int32} {e : Extremum} (h : e.Tracks le n history j) :
    e.value ∈ lastValues n history ∧ ∀ x ∈ lastValues n history, le e.value x := by
  refine ⟨mem_lastValues.mpr ⟨j, h.value, h.window⟩, fun x hx => ?_⟩
  obtain ⟨i, hi, hle⟩ := mem_lastValues.mp hx
  exact h.best i x hi hle

/-- After updates with values other than `INT32_MAX`, the extrema that the filter maintains are
those of the window. -/
theorem extrema_of_window (memory : Nat → Int32) (n : Nat) (hn : 1 ≤ n) (type : FilterType)
    (samples : List (Int × Int32)) (hne : samples ≠ [])
    (hvalues : ∀ sample ∈ samples, sample.2 ≠ Int32.maxValue) :
    let f := run MinMaxFilter.updateTimed (.init memory n type) samples
    let values := lastValues n (samples.map Prod.snd)
    (type ≠ .maxOnly → f.getMin ∈ values ∧ ∀ x ∈ values, f.getMin ≤ x) ∧
      (type ≠ .minOnly → f.getMax ∈ values ∧ ∀ x ∈ values, x ≤ f.getMax) := by
  intro f values
  obtain ⟨first, rest, rfl⟩ := List.exists_cons_of_ne_nil hne
  have hblank := MinMaxFilter.blank_init memory n type
  have hstart : (MinMaxFilter.init memory n type).updateTimed first =
      (MinMaxFilter.init memory n type).restart first.1 first.2 :=
    MinMaxFilter.update_blank hblank.minimum _ _
  have hmap : ∀ samples : List (Int × Int32), (∀ sample ∈ samples, sample.2 ≠ Int32.maxValue) →
      Int32.maxValue ∉ samples.map Prod.snd := by
    intro samples h hmem
    obtain ⟨sample, hsample, heq⟩ := List.mem_map.mp hmem
    exact h sample hsample heq
  have hlength : (MinMaxFilter.init memory n type).historyLength = n := if_neg (by omega)
  obtain ⟨hfollows, htype, hlen⟩ :=
    (MinMaxFilter.follows_restart hblank.length_pos first.1 first.2).run
      (hmap [first] (fun sample hsample => hvalues sample (by simp_all)))
      (hmap rest fun sample hsample => hvalues sample (List.mem_cons_of_mem _ hsample))
  have hf : f = run MinMaxFilter.updateTimed
      ((MinMaxFilter.init memory n type).restart first.1 first.2) rest := by
    rw [← hstart]
    rfl
  rw [← hf] at hfollows htype hlen
  have hvaluesEq : values = lastValues f.historyLength ([first.2] ++ rest.map Prod.snd) := by
    rw [hlen]
    exact congrArg (lastValues · _) hlength.symm
  rw [hvaluesEq]
  constructor
  · intro hmin
    have hmaintained : f.maintainsMin = true := by
      rw [MinMaxFilter.maintainsMin, htype]
      exact decide_eq_true hmin
    obtain ⟨j, hj⟩ := hfollows.minimum hmaintained
    exact hj.mem_and_best
  · intro hmax
    have hmaintained : f.maintainsMax = true := by
      rw [MinMaxFilter.maintainsMax, htype]
      exact decide_eq_true hmax
    obtain ⟨j, hj⟩ := hfollows.maximum hmaintained
    exact hj.mem_and_best

/-- A window of two values: the first minimum leaves it and the scan finds the next one. -/
theorem extrema_of_window_two :
    let f := run MinMaxFilter.updateTimed (.init (fun _ => 0) 2 .minMax)
      [(0, 3), (500000, 7), (1000000, 5)]
    (FilterType.minMax ≠ .maxOnly → f.getMin ∈ lastValues 2 [3, 7, 5] ∧
        ∀ x ∈ lastValues 2 [3, 7, 5], f.getMin ≤ x) ∧
      (FilterType.minMax ≠ .minOnly → f.getMax ∈ lastValues 2 [3, 7, 5] ∧
        ∀ x ∈ lastValues 2 [3, 7, 5], x ≤ f.getMax) :=
  extrema_of_window (fun _ => 0) 2 (by decide) .minMax
    [(0, 3), (500000, 7), (1000000, 5)] (by decide) (by decide)

end Esp32Firmware.PowerManager
