import Esp32Firmware.Heating.Plan

/-!
# The plan shows what the controller decides

The control periods of the plan are counted from the start of the price list, that of the
controller from midnight. As long as the local clock has not been changed in between, they are the
same ones, and both computations ask for the same hours of the same control period.
-/

namespace Esp32Firmware.Heating

open DayAheadPrices (PriceModule)

variable {list : PriceList} {query : PriceQuery} {active : Bool}
  {duration hours minBlock15m : ℕ}

theorem PriceList.minutes_mul_slots (list : PriceList) :
    list.resolutionMinutes * list.slotsPerHour = 60 := by
  unfold resolutionMinutes slotsPerHour
  cases list.resolution <;> rfl

theorem PriceList.minutes_pos (list : PriceList) : 0 < list.resolutionMinutes := by
  unfold resolutionMinutes
  cases list.resolution <;> decide

/-- The control periods in terms of entries: the price list starts `offset` entries after the start
of the first one. -/
structure Grid (list : PriceList) (duration offset : ℕ) (firstBlockStart : ℤ) : Prop where
  start : firstBlockStart = list.firstDate - list.resolutionMinutes * offset
  lt : offset < duration * list.slotsPerHour

namespace Grid

variable {offset : ℕ} {firstBlockStart : ℤ}

/-- The start of a control period. -/
def periodStart (duration : ℕ) (firstBlockStart : ℤ) (j : ℕ) : ℤ :=
  firstBlockStart + (duration * 60 : ℕ) * j

/-- The control period is completely in the price list. -/
def Full (list : PriceList) (duration offset j : ℕ) : Prop :=
  offset ≤ duration * list.slotsPerHour * j ∧
    duration * list.slotsPerHour * (j + 1) ≤ list.numPrices + offset

instance (j : ℕ) : Decidable (Full list duration offset j) :=
  inferInstanceAs (Decidable (_ ∧ _))

variable (h : Grid list duration offset firstBlockStart)
include h

/-- A control period starts whole entries after the price list does. -/
theorem periodStart_sub (j : ℕ) :
    periodStart duration firstBlockStart j - list.firstDate =
      list.resolutionMinutes * ((duration * list.slotsPerHour * j : ℕ) - (offset : ℤ)) := by
  rw [periodStart, h.start, ← list.minutes_mul_slots]
  push_cast
  ring

theorem startIndex (j : ℕ) :
    (periodStart duration firstBlockStart j - list.firstDate).tdiv list.resolutionMinutes =
      (duration * list.slotsPerHour * j : ℕ) - (offset : ℤ) := by
  have hpos : (list.resolutionMinutes : ℤ) ≠ 0 := by exact_mod_cast list.minutes_pos.ne'
  rw [h.periodStart_sub, Int.mul_tdiv_cancel_left _ hpos]

/-- What a control period writes to the entry `k`. -/
theorem fillBlock_apply (entries : Slots) (j k : ℕ) :
    fillBlock list query active duration hours minBlock15m entries
        (periodStart duration firstBlockStart j) k =
      if Full list duration offset j ∧ active = true ∧
          (k + offset) / (duration * list.slotsPerHour) = j then
        match query (periodStart duration firstBlockStart j) duration hours minBlock15m with
        | none => entries k
        | some data =>
          planValue list.resolution data ((k + offset) % (duration * list.slotsPerHour))
      else entries k := by
  have hindex := h.startIndex j
  have hslots : 0 < duration * list.slotsPerHour := Nat.zero_lt_of_lt h.lt
  unfold fillBlock
  rw [hindex]
  by_cases hfull : Full list duration offset j
  · obtain ⟨hstart, hend⟩ := id hfull
    rw [Nat.mul_succ] at hend
    set slots := duration * list.slotsPerHour
    have hinside : ¬(((slots * j : ℕ) - (offset : ℤ) < 0) ∨
        ((slots * j : ℕ) - (offset : ℤ) + slots > list.numPrices)) := by omega
    rw [if_neg hinside]
    cases active with
    | false => simp
    | true =>
      cases query (periodStart duration firstBlockStart j) duration hours minBlock15m with
      | none => simp
      | some data =>
        have hdiv := Nat.div_add_mod (k + offset) slots
        have hperiod : ((slots * j : ℕ) - (offset : ℤ) ≤ k ∧
            (k : ℤ) < (slots * j : ℕ) - (offset : ℤ) + slots) ↔ (k + offset) / slots = j := by
          rw [Nat.div_eq_iff hslots, Nat.mul_comm j slots]
          omega
        simp only [hperiod, hfull, true_and, if_true]
        split
        next heq =>
          rw [heq] at hdiv
          congr 1
          omega
        next => rfl
  · have hoff := id hfull
    rw [Full, Nat.mul_succ] at hoff
    set slots := duration * list.slotsPerHour
    have houtside : (((slots * j : ℕ) - (offset : ℤ) < 0) ∨
        ((slots * j : ℕ) - (offset : ℤ) + slots > list.numPrices)) := by omega
    rw [if_pos houtside, if_neg fun h => hfull h.1]

/-- The entries after all the control periods. -/
theorem foldl_apply (n k : ℕ) :
    ((List.range n).map (periodStart duration firstBlockStart)).foldl
        (fillBlock list query active duration hours minBlock15m) Slots.empty k =
      let j := (k + offset) / (duration * list.slotsPerHour)
      (decide (j < n) && decide (Full list duration offset j) && active &&
        match query (periodStart duration firstBlockStart j) duration hours minBlock15m with
        | none => false
        | some data =>
          planValue list.resolution data ((k + offset) % (duration * list.slotsPerHour))) := by
  induction n with
  | zero => rfl
  | succ n ih =>
    rw [List.range_succ, List.map_append, List.foldl_append, List.map_singleton,
      List.foldl_cons, List.foldl_nil, h.fillBlock_apply, ih]
    generalize hj : (k + offset) / (duration * list.slotsPerHour) = j
    by_cases hjn : j = n
    · subst hjn
      by_cases hfull : Full list duration offset j
      · cases active with
        | false => simp
        | true => simp [hfull]
      · simp [hfull]
    · have hlt : j < n ↔ j < n + 1 := by omega
      simp [hjn, hlt]

/-- There are enough control periods for all entries. -/
theorem lt_blocks {k : ℕ} (hk : k < list.numPrices) :
    (k + offset) / (duration * list.slotsPerHour) <
      ((list.priceEnd - firstBlockStart + (duration * 60 : ℕ) - 1) /
        (duration * 60 : ℕ)).toNat := by
  have hslots : 0 < duration * list.slotsPerHour := Nat.zero_lt_of_lt h.lt
  have hduration : 0 < duration := Nat.pos_of_mul_pos_right hslots
  have hminutes := list.minutes_mul_slots
  have hmul := Nat.div_mul_le_self (k + offset) (duration * list.slotsPerHour)
  set j := (k + offset) / (duration * list.slotsPerHour)
  have hlength : list.priceEnd - firstBlockStart =
      (list.resolutionMinutes * (list.numPrices + offset) : ℕ) := by
    rw [PriceList.priceEnd, h.start]
    push_cast
    ring
  have hbefore : j * (duration * 60) < list.resolutionMinutes * (list.numPrices + offset) := by
    calc j * (duration * 60) = list.resolutionMinutes * (j * (duration * list.slotsPerHour)) := by
          rw [← hminutes]
          ring
      _ < list.resolutionMinutes * (list.numPrices + offset) :=
          Nat.mul_lt_mul_of_pos_left (by omega) list.minutes_pos
  rw [hlength, Int.lt_toNat, ← Int.add_one_le_iff, Int.le_ediv_iff_mul_le (by omega)]
  have hcast : ((j : ℤ) + 1) * (duration * 60 : ℕ) =
      (j * (duration * 60) : ℕ) + (duration * 60 : ℕ) := by
    push_cast
    ring
  omega

end Grid

section

/-- The quarter hours of an hourly price are selected alike. -/
def SelectsWholeHours (list : PriceList) (query : PriceQuery) : Prop :=
  list.resolution = .min60 → ∀ startTime duration amount minBlock15m data,
    (60 : ℤ) ∣ startTime - list.firstDate → duration ≤ 24 →
      query startTime duration amount minBlock15m = some data →
        ∀ k l, k < 4 * duration → l < 4 * duration → k / 4 = l / 4 → data k = data l

theorem selectsWholeHours {m : PriceModule} (h : DayAheadPrices.PriceModule.Consistent m)
    (hprices : m.prices.prices ≠ []) (findExpensive : Bool) :
    SelectsWholeHours (priceList m) (m.blockedQuery findExpensive) := by
  intro hhourly startTime duration amount minBlock15m data hstart hduration hdata k l hk hl hkl
  have hlength : (UInt8.ofNat (duration * 4)).toNat = 4 * duration := by
    rw [UInt8.toNat_ofNat']
    omega
  have hamount : 4 ∣ (UInt8.ofNat (amount * 4)).toNat := by
    rw [UInt8.toNat_ofNat']
    omega
  have hwindow : 4 ∣ (UInt8.ofNat (duration * 4)).toNat := ⟨duration, hlength⟩
  have haligned : m.prices.Aligned startTime (UInt8.ofNat (duration * 4))
      (UInt8.ofNat (amount * 4)) (UInt8.ofNat minBlock15m) := by
    constructor
    · right
      exact Dvd.dvd.trans (by decide) hstart
    · intro _ _
      exact ⟨hstart, hwindow, hamount⟩
  have hk' : k < (UInt8.ofNat (duration * 4)).toNat := by omega
  have hl' : l < (UInt8.ofNat (duration * 4)).toNat := by omega
  -- The array is written by the selection alone.
  have hwritten : ∀ i < (UInt8.ofNat (duration * 4)).toNat, data i = m.prices.chosen startTime
      (UInt8.ofNat (duration * 4)) (UInt8.ofNat (amount * 4)) (UInt8.ofNat minBlock15m)
      findExpensive i := by
    obtain ⟨answer, m', hrun, hkeeps⟩ := DayAheadPrices.PriceModule.query_keeps h hprices haligned
      (if findExpensive then none else some Slots.empty)
      (if findExpensive then some Slots.empty else none)
    unfold PriceModule.blockedQuery at hdata
    rw [hrun] at hdata
    dsimp only at hdata
    split at hdata
    next hsuccess =>
      obtain ⟨hcheap, hexpensive⟩ := hkeeps hsuccess
      cases findExpensive with
      | false =>
        obtain ⟨written, hanswer, hkeep, -⟩ := hcheap rfl
        cases hanswer.symm.trans hdata
        exact hkeep
      | true =>
        obtain ⟨written, hanswer, hkeep, -⟩ := hexpensive rfl
        cases hanswer.symm.trans hdata
        exact hkeep
    next => cases hdata
  rw [hwritten k hk', hwritten l hl']
  exact DayAheadPrices.chosen_hour hhourly hstart hwindow (h.sorted hprices) hamount hk' hl' hkl

end

section

/-- The start of the first control period of the plan. -/
def firstStart (list : PriceList) (duration firstMinutes : ℕ) : ℤ :=
  list.firstDate - ((firstMinutes : ℤ) - (firstMinutes / (duration * 60) * (duration * 60) : ℕ))

/-- The entries of that control period before the price list. -/
def firstOffset (list : PriceList) (duration firstMinutes : ℕ) : ℕ :=
  firstMinutes % (duration * 60) / list.resolutionMinutes

variable {firstMinutes : ℕ}

/-- The minutes of the first control period before the price list are whole entries. -/
theorem minutes_mul_firstOffset (duration : ℕ)
    (haligned : list.resolutionMinutes ∣ firstMinutes) :
    list.resolutionMinutes * firstOffset list duration firstMinutes =
      firstMinutes % (duration * 60) := by
  apply Nat.mul_div_cancel'
  rw [Nat.dvd_mod_iff]
  · exact haligned
  · rw [← list.minutes_mul_slots]
    exact ⟨duration * list.slotsPerHour, by ring⟩

theorem grid (hduration : 0 < duration) (haligned : list.resolutionMinutes ∣ firstMinutes) :
    Grid list duration (firstOffset list duration firstMinutes)
      (firstStart list duration firstMinutes) := by
  have hscale := minutes_mul_firstOffset duration haligned
  have hminutes := list.minutes_mul_slots
  constructor
  · have hsplit := Nat.div_add_mod' firstMinutes (duration * 60)
    have hcast : (list.resolutionMinutes : ℤ) * firstOffset list duration firstMinutes =
        (firstMinutes % (duration * 60) : ℕ) := by exact_mod_cast hscale
    rw [firstStart, hcast]
    omega
  · apply Nat.lt_of_mul_lt_mul_left (a := list.resolutionMinutes)
    rw [hscale]
    calc firstMinutes % (duration * 60) < duration * 60 := Nat.mod_lt _ (by omega)
      _ = list.resolutionMinutes * (duration * list.slotsPerHour) := by
          rw [← hminutes]
          ring

/-- An entry of one of the arrays: the plan of its control period, if that is in the price list. -/
def planEntry (list : PriceList) (query : PriceQuery) (active : Bool)
    (duration hours minBlock15m firstMinutes k : ℕ) : Bool :=
  let slots := duration * list.slotsPerHour
  let j := (k + firstOffset list duration firstMinutes) / slots
  decide (Grid.Full list duration (firstOffset list duration firstMinutes) j) && active &&
    match query (Grid.periodStart duration (firstStart list duration firstMinutes) j) duration hours
        minBlock15m with
    | none => false
    | some data =>
      planValue list.resolution data ((k + firstOffset list duration firstMinutes) % slots)

theorem foldl_plan (f g : Slots → ℤ → Slots) (blocks : List ℤ) (plan : Plan) :
    blocks.foldl (fun plan blockStart =>
        { plan with
          cheap := f plan.cheap blockStart
          expensive := g plan.expensive blockStart }) plan =
      { plan with
        cheap := blocks.foldl f plan.cheap
        expensive := blocks.foldl g plan.expensive } := by
  induction blocks generalizing plan with
  | nil => rfl
  | cons blockStart rest ih =>
    rw [List.foldl_cons, ih]
    rfl

theorem foldl_planEntry (hduration : 0 < duration)
    (haligned : list.resolutionMinutes ∣ firstMinutes) {k : ℕ} (hk : k < list.numPrices) :
    (blockStarts (firstStart list duration firstMinutes) list.priceEnd (duration * 60)).foldl
        (fillBlock list query active duration hours minBlock15m) Slots.empty k =
      planEntry list query active duration hours minBlock15m firstMinutes k := by
  have hgrid := grid hduration haligned
  refine (hgrid.foldl_apply _ k).trans ?_
  dsimp only
  rw [decide_eq_true (hgrid.lt_blocks hk), Bool.true_and]
  rfl

theorem duration_pos (period : ControlPeriod) : 0 < period.duration := by
  cases period <;> decide

/-- What the plan shows for an entry of the price list. -/
theorem updatePlan_entry (cfg : Config) (input : UpdateInput)
    (haligned : list.resolutionMinutes ∣ firstMinutes) {k : ℕ} (hk : k < list.numPrices) :
    let planned := planHours cfg input.todayAvg
    let plan := updatePlan cfg input (some list) firstMinutes
    let entry := fun query active hours => planEntry list query active cfg.controlPeriod.duration
      hours ((cfg.minHoldTime.toNat + 14) / 15) firstMinutes k
    plan.cheapAt k = entry input.cheapHours planned.extended planned.extendedHours ∧
      plan.expensiveAt k = entry input.expensiveHours planned.blocking planned.blockingHours := by
  intro planned plan entry
  have hduration := duration_pos cfg.controlPeriod
  have hne : list.numPrices ≠ 0 := Nat.ne_zero_of_lt hk
  by_cases hnone : planned.extended = false ∧ planned.blocking = false
  · have hremoved : plan = .removed := by
      have hcond : list.numPrices = 0 ∨ (!planned.extended && !planned.blocking) = true := by
        simp [hnone]
      exact if_pos hcond
    rw [hremoved]
    constructor
    · simp [Plan.removed, Plan.cheapAt, entry, planEntry, hnone.1]
    · simp [Plan.removed, Plan.expensiveAt, entry, planEntry, hnone.2]
  · have hcond : ¬(list.numPrices = 0 ∨ (!planned.extended && !planned.blocking) = true) := by
      simpa [hne] using hnone
    have hplan : plan = _ := (if_neg hcond).trans (foldl_plan _ _ _ _)
    rw [hplan]
    constructor
    · rw [Plan.cheapAt, decide_eq_true hk, Bool.true_and]
      exact foldl_planEntry hduration haligned hk
    · rw [Plan.expensiveAt, decide_eq_true hk, Bool.true_and]
      exact foldl_planEntry hduration haligned hk

end

section

/-- The minutes since local midnight, from the offset of the local time to UTC. -/
def localMinutes (offset : ℤ → ℤ) (time : ℤ) : ℕ := ((time + offset time) % 1440).toNat

/-- The local clock was not changed since midnight and not between the first price and now. -/
structure SteadyClock (offset : ℤ → ℤ) (list : PriceList) (now : ℤ) (input : UpdateInput) :
    Prop where
  minutes : input.minutesSinceMidnight = localMinutes offset now
  midnight : input.midnight = some (now - input.minutesSinceMidnight)
  sameOffset : offset list.firstDate = offset now

/-- The current control period is completely in the price list. -/
def Covered (cfg : Config) (list : PriceList) (now : ℤ) (input : UpdateInput) : Prop :=
  let durationMinutes := cfg.controlPeriod.duration * 60
  let start := now - (input.minutesSinceMidnight % durationMinutes : ℕ)
  list.firstDate ≤ start ∧ start + durationMinutes ≤ list.priceEnd

instance (cfg : Config) (list : PriceList) (now : ℤ) (input : UpdateInput) :
    Decidable (Covered cfg list now input) :=
  inferInstanceAs (Decidable (_ ∧ _))

/-- What the controller decides for one of its outputs by the prices. -/
def controlEntry (cfg : Config) (input : UpdateInput) (query : PriceQuery) (active : Bool)
    (hours : ℕ) : Bool :=
  let duration := cfg.controlPeriod.duration
  let durationBlock := input.minutesSinceMidnight / (duration * 60) * (duration * 60)
  active && match input.midnight with
    | none => false
    | some midnight =>
      match query (midnight + durationBlock) duration hours
          ((cfg.minHoldTime.toNat + 14) / 15) with
      | none => false
      | some data => data ((input.minutesSinceMidnight - durationBlock) / 15)

theorem handleDynamicPrice_eq (cfg : Config) (input : UpdateInput) (hours : Hours) (cheap : Bool) :
    handleDynamicPrice cfg input hours (cheap && hours.extended) hours.blocking =
      (controlEntry cfg input input.expensiveHours hours.blocking hours.blockingHours,
        cheap && controlEntry cfg input input.cheapHours hours.extended hours.extendedHours) := by
  obtain ⟨extended, extendedHours, blocking, blockingHours⟩ := hours
  unfold handleDynamicPrice controlEntry
  cases input.midnight with
  | none => simp
  | some midnight => cases extended <;> cases blocking <;> cases cheap <;> rfl

variable {cfg : Config} {input : UpdateInput} {offset : ℤ → ℤ} {now : ℤ}

/-- The current minute of the control period, counted from midnight and from the first control
period of the plan. -/
theorem minutes_mod (hclock : SteadyClock offset list now input) {t : ℕ}
    (ht : now = list.firstDate + t) :
    input.minutesSinceMidnight % (cfg.controlPeriod.duration * 60) =
      (t + localMinutes offset list.firstDate % (cfg.controlPeriod.duration * 60)) %
        (cfg.controlPeriod.duration * 60) := by
  rw [hclock.minutes, localMinutes, localMinutes, hclock.sameOffset, ht]
  cases cfg.controlPeriod with
  | hours24 | hours12 | hours8 | hours6 | hours4 =>
    dsimp only [ControlPeriod.duration]
    omega

/-- The value of an entry is that of each of its quarter hours. -/
theorem planValue_eq (hwhole : SelectsWholeHours list query) {startTime : ℤ} {data : Slots}
    (hstart : (list.resolutionMinutes : ℤ) ∣ startTime - list.firstDate) (hduration : duration ≤ 24)
    (hdata : query startTime duration hours minBlock15m = some data) {minutes : ℕ}
    (hminutes : minutes < duration * 60) :
    planValue list.resolution data (minutes / list.resolutionMinutes) = data (minutes / 15) := by
  cases hresolution : list.resolution with
  | min15 => simp [PriceList.resolutionMinutes, hresolution, planValue]
  | min60 =>
    have hhour : list.resolutionMinutes = 60 := by
      simp [PriceList.resolutionMinutes, hresolution]
    rw [hhour] at hstart ⊢
    have hsame : ∀ r < 4, data (minutes / 60 * 4 + r) = data (minutes / 15) := by
      intro r hr
      exact hwhole hresolution startTime duration hours minBlock15m data hstart hduration hdata
        _ _ (by omega) (by omega) (by omega)
    have hzero := hsame 0 (by decide)
    rw [Nat.add_zero] at hzero
    rw [planValue, hzero, hsame 1 (by decide), hsame 2 (by decide), hsame 3 (by decide)]
    simp

theorem duration_le (period : ControlPeriod) : period.duration ≤ 24 := by
  cases period <;> decide

section

variable (cfg) {t : ℕ} (hclock : SteadyClock offset list now input) (ht : now = list.firstDate + t)
  (haligned : list.resolutionMinutes ∣ localMinutes offset list.firstDate)

include hclock ht haligned

/-- The place of the current entry in the control periods of the plan. -/
theorem entry_div_mod :
    let D := cfg.controlPeriod.duration * 60
    let S := cfg.controlPeriod.duration * list.slotsPerHour
    let o := firstOffset list cfg.controlPeriod.duration (localMinutes offset list.firstDate)
    D * ((t / list.resolutionMinutes + o) / S) + input.minutesSinceMidnight % D =
        t + list.resolutionMinutes * o ∧
      (t / list.resolutionMinutes + o) % S =
        input.minutesSinceMidnight % D / list.resolutionMinutes := by
  intro D S o
  have hscale : list.resolutionMinutes * S = D := by
    rw [Nat.mul_left_comm, list.minutes_mul_slots]
  have hentry : t / list.resolutionMinutes + o =
      (t + list.resolutionMinutes * o) / list.resolutionMinutes :=
    (Nat.add_mul_div_left t o list.minutes_pos).symm
  have hminute : input.minutesSinceMidnight % D = (t + list.resolutionMinutes * o) % D := by
    rw [minutes_mod hclock ht, minutes_mul_firstOffset _ haligned]
  rw [hentry, hminute]
  constructor
  · rw [Nat.div_div_eq_div_mul, hscale, Nat.div_add_mod]
  · rw [← Nat.mod_mul_right_div_self, hscale]

/-- The control period of the entry is the one the controller is in. -/
theorem periodStart_eq :
    let duration := cfg.controlPeriod.duration
    let first := localMinutes offset list.firstDate
    Grid.periodStart duration (firstStart list duration first)
        ((t / list.resolutionMinutes + firstOffset list duration first) /
          (duration * list.slotsPerHour)) =
      now - (input.minutesSinceMidnight % (duration * 60) : ℕ) := by
  intro duration first
  obtain ⟨hplace, -⟩ := entry_div_mod cfg hclock ht haligned
  have hgrid := grid (duration_pos cfg.controlPeriod) haligned
  rw [Grid.periodStart, hgrid.start, ht]
  zify at hplace ⊢
  linear_combination hplace

theorem full_iff_covered :
    let duration := cfg.controlPeriod.duration
    let first := localMinutes offset list.firstDate
    Grid.Full list duration (firstOffset list duration first)
        ((t / list.resolutionMinutes + firstOffset list duration first) /
          (duration * list.slotsPerHour)) ↔
      Covered cfg list now input := by
  intro duration first
  have hstart := periodStart_eq cfg hclock ht haligned
  have hgrid := grid (duration_pos cfg.controlPeriod) haligned
  have hscale : list.resolutionMinutes * (duration * list.slotsPerHour) = duration * 60 := by
    rw [Nat.mul_left_comm, list.minutes_mul_slots]
  rw [Covered, ← hstart, PriceList.priceEnd, Grid.periodStart, hgrid.start]
  generalize (t / list.resolutionMinutes + firstOffset list duration first) /
    (duration * list.slotsPerHour) = j
  have hbefore : firstOffset list duration first ≤ duration * list.slotsPerHour * j ↔
      list.resolutionMinutes * firstOffset list duration first ≤ duration * 60 * j := by
    rw [← hscale, Nat.mul_assoc list.resolutionMinutes, Nat.mul_le_mul_left_iff list.minutes_pos]
  have hafter : duration * list.slotsPerHour * (j + 1) ≤
        list.numPrices + firstOffset list duration first ↔
      duration * 60 * (j + 1) ≤ list.resolutionMinutes * list.numPrices +
        list.resolutionMinutes * firstOffset list duration first := by
    rw [← hscale, Nat.mul_assoc list.resolutionMinutes, ← Nat.mul_add,
      Nat.mul_le_mul_left_iff list.minutes_pos]
  rw [Grid.Full, hbefore, hafter]
  zify
  constructor
  · rintro ⟨hfirst, hlast⟩
    constructor <;> linarith
  · rintro ⟨hfirst, hlast⟩
    constructor <;> linarith

end

/-- An entry shows what the controller decides in one of its minutes, if the control period is in
the price list. -/
theorem planEntry_eq (hclock : SteadyClock offset list now input)
    (haligned : list.resolutionMinutes ∣ localMinutes offset list.firstDate)
    (hpriced : list.firstDate ≤ now) (hwhole : SelectsWholeHours list query) :
    planEntry list query active cfg.controlPeriod.duration hours
        ((cfg.minHoldTime.toNat + 14) / 15) (localMinutes offset list.firstDate)
        ((now - list.firstDate) / list.resolutionMinutes).toNat =
      (decide (Covered cfg list now input) && controlEntry cfg input query active hours) := by
  obtain ⟨t, ht⟩ : ∃ t : ℕ, now = list.firstDate + t := ⟨(now - list.firstDate).toNat, by omega⟩
  have hentry : ((now - list.firstDate) / list.resolutionMinutes).toNat =
      t / list.resolutionMinutes := by
    rw [ht, add_sub_cancel_left]
    rfl
  have hgrid := grid (duration_pos cfg.controlPeriod) haligned
  have hstart := periodStart_eq cfg hclock ht haligned
  obtain ⟨-, hslot⟩ := entry_div_mod cfg hclock ht haligned
  have hdivides : (list.resolutionMinutes : ℤ) ∣
      now - (input.minutesSinceMidnight % (cfg.controlPeriod.duration * 60) : ℕ) -
        list.firstDate := by
    rw [← hstart, hgrid.periodStart_sub]
    apply dvd_mul_right
  -- The control period of the controller starts at the same time, counted from midnight.
  have hsplit := Nat.div_add_mod' input.minutesSinceMidnight (cfg.controlPeriod.duration * 60)
  have hmidnight : now - input.minutesSinceMidnight +
      (input.minutesSinceMidnight / (cfg.controlPeriod.duration * 60) *
        (cfg.controlPeriod.duration * 60) : ℕ) =
      now - (input.minutesSinceMidnight % (cfg.controlPeriod.duration * 60) : ℕ) := by
    omega
  have hindex : input.minutesSinceMidnight -
      input.minutesSinceMidnight / (cfg.controlPeriod.duration * 60) *
        (cfg.controlPeriod.duration * 60) =
      input.minutesSinceMidnight % (cfg.controlPeriod.duration * 60) := by
    omega
  unfold planEntry controlEntry
  dsimp only at hstart hslot ⊢
  rw [hentry, hstart, hslot, hclock.midnight]
  dsimp only
  rw [hmidnight, hindex, Bool.and_assoc,
    decide_eq_decide.mpr (full_iff_covered cfg hclock ht haligned)]
  congr 2
  cases hdata : query _ cfg.controlPeriod.duration hours _ with
  | none => rfl
  | some data =>
    exact planValue_eq hwhole hdivides (duration_le cfg.controlPeriod) hdata
      (Nat.mod_lt _ (Nat.mul_pos (duration_pos cfg.controlPeriod) (by decide)))

end

section

/-- A channel that the plan only takes as active because of the heating curve has a temperature. -/
def Config.HasTemperature (cfg : Config) (input : UpdateInput) (flag : Bool) : Prop :=
  cfg.enableHeatingCurve = true → flag = false → input.todayAvg ≠ none

variable {cfg : Config} {input : UpdateInput}

/-- The planned hours of a channel, and those of the controller. -/
theorem planHours_extended (h : cfg.HasTemperature input cfg.extended) :
    let planned := planHours cfg input.todayAvg
    let hours := effectiveHours cfg input
    planned.extended = hours.extended ∧
      (hours.extended = true → planned.extendedHours = hours.extendedHours) := by
  unfold Config.HasTemperature at h
  unfold planHours effectiveHours
  cases hcurve : cfg.enableHeatingCurve with
  | false => cases hflag : cfg.extended <;> simp
  | true =>
    cases hflag : cfg.extended <;> cases havg : input.todayAvg <;> simp_all

theorem planHours_blocking (h : cfg.HasTemperature input cfg.blocking) :
    let planned := planHours cfg input.todayAvg
    let hours := effectiveHours cfg input
    planned.blocking = hours.blocking ∧
      (hours.blocking = true → planned.blockingHours = hours.blockingHours) := by
  unfold Config.HasTemperature at h
  unfold planHours effectiveHours
  cases hcurve : cfg.enableHeatingCurve with
  | false => cases hflag : cfg.blocking <;> simp
  | true =>
    cases hflag : cfg.blocking <;> cases havg : input.todayAvg <;> simp_all

end

variable {cfg : Config} {offset : ℤ → ℤ} {now : ℤ}

theorem planEntry_congr {hours' : ℕ} {active' : Bool} {firstMinutes k : ℕ}
    (h : active = active' ∧ (active' = true → hours = hours')) :
    planEntry list query active duration hours minBlock15m firstMinutes k =
      planEntry list query active' duration hours' minBlock15m firstMinutes k := by
  obtain ⟨rfl, hhours⟩ := h
  cases active with
  | false => simp [planEntry]
  | true => rw [hhours rfl]

theorem priced_lt {m : PriceModule} (hnow : (priceList m).firstDate ≤ now)
    (hend : now < (priceList m).priceEnd) :
    ((now - (priceList m).firstDate) / (priceList m).resolutionMinutes).toNat <
      (priceList m).numPrices := by
  have hpos : (0 : ℤ) < (priceList m).resolutionMinutes := by
    exact_mod_cast (priceList m).minutes_pos
  rw [PriceList.priceEnd] at hend
  have hlt : (now - (priceList m).firstDate) / (priceList m).resolutionMinutes <
      (priceList m).numPrices := by
    apply Int.ediv_lt_of_lt_mul hpos
    linarith
  have hnonneg := Int.ediv_nonneg (sub_nonneg.mpr hnow) hpos.le
  exact (Int.toNat_lt hnonneg).mpr hlt

/-- The entry of the current time shows what the prices decide, if the current control period is in
the price list. The cheap hours are ignored with a high expected PV yield. -/
theorem plan_shows_decision (ops : List PriceModule.Op) (cfg : Config) (reading : UpdateInput)
    (offset : ℤ → ℤ) (now : ℤ) :
    let m := run PriceModule.step PriceModule.boot ops
    let list := priceList m
    let input := reading.withPrices m
    SteadyClock offset list now input →
    list.resolutionMinutes ∣ localMinutes offset list.firstDate →
    list.firstDate ≤ now → now < list.priceEnd →
    let plan := updatePlan cfg input (some list) (localMinutes offset list.firstDate)
    let k := ((now - list.firstDate) / list.resolutionMinutes).toNat
    let hours := effectiveHours cfg input
    let decided := handleDynamicPrice cfg input hours hours.extended hours.blocking
    let covered := decide (Covered cfg list now input)
    (cfg.HasTemperature input cfg.extended → plan.cheapAt k = (covered && decided.2)) ∧
      (cfg.HasTemperature input cfg.blocking → plan.expensiveAt k = (covered && decided.1)) ∧
      handleDynamicPrice cfg input hours (!isExpectedYieldHigh cfg input && hours.extended)
        hours.blocking = (decided.1, !isExpectedYieldHigh cfg input && decided.2) := by
  intro m list input hclock haligned hnow hend plan k hours decided covered
  have hconsistent : PriceModule.Consistent m := PriceModule.run_consistent ops
  have hk : k < list.numPrices := priced_lt hnow hend
  have hprices : m.prices.prices ≠ [] := by
    intro hempty
    have hcount : list.numPrices = 0 := congrArg List.length hempty
    omega
  have hdecided : decided = (controlEntry cfg input input.expensiveHours hours.blocking
      hours.blockingHours,
      controlEntry cfg input input.cheapHours hours.extended hours.extendedHours) := by
    simpa using handleDynamicPrice_eq cfg input hours true
  obtain ⟨hcheap, hexpensive⟩ := updatePlan_entry cfg input haligned hk
  refine ⟨?_, ?_, ?_⟩
  · intro htemperature
    rw [hdecided]
    refine hcheap.trans ((planEntry_congr (planHours_extended htemperature)).trans ?_)
    exact planEntry_eq hclock haligned hnow (selectsWholeHours hconsistent hprices false)
  · intro htemperature
    rw [hdecided]
    refine hexpensive.trans ((planEntry_congr (planHours_blocking htemperature)).trans ?_)
    exact planEntry_eq hclock haligned hnow (selectsWholeHours hconsistent hprices true)
  · rw [hdecided, handleDynamicPrice_eq]

/-- Prices from noon to four o'clock, the first hour is the cheap one. -/
def afternoonPrices : List PriceModule.Op :=
  [.newPrices 30000240 30000240 .min15 [1, 1, 1, 1, 9, 9, 9, 9, 9, 9, 9, 9, 9, 9, 9, 9]]

def afternoonConfig (period : ControlPeriod) : Config where
  sgrBlockingType := .activeClosed
  sgrExtendedType := .activeClosed
  minHoldTime := 15
  controlPeriod := period
  enableHeatingCurve := false
  enableDaytimeExtension := false
  yieldForecast := false
  yieldForecastThreshold := 0
  extended := true
  extendedHours := 1
  extendedHoursWarm := 3
  extendedHoursCold := 8
  blocking := false
  blockingHours := 0
  blockingHoursWarm := 8
  blockingHoursCold := 0
  pvExcessControl := false
  pvExcessControlThreshold := 0

def noon : UpdateInput where
  hasSgrAutomation := false
  clockSynced := true
  p14aEnwg := ⟨⟨true, false, true⟩, ⟨false, 4200⟩⟩
  timestampMinutes := 30000240
  minutesSinceMidnight := 720
  midnight := some 29999520
  cheapHours := fun _ _ _ _ => none
  expensiveHours := fun _ _ _ _ => none
  gridPower := none
  whToday := none
  todayAvg := none

theorem noon_steady :
    let m := run PriceModule.step PriceModule.boot afternoonPrices
    SteadyClock (fun _ => 0) (priceList m) 30000240 (noon.withPrices m) :=
  ⟨by decide, by decide, by decide⟩

/-- A control period of four hours is in the price list. -/
theorem priced_period_planned :
    let m := run PriceModule.step PriceModule.boot afternoonPrices
    let list := priceList m
    let input := noon.withPrices m
    let cfg := afternoonConfig .hours4
    let plan := updatePlan cfg input (some list) (localMinutes (fun _ => 0) list.firstDate)
    let k := ((30000240 - list.firstDate) / list.resolutionMinutes).toNat
    let hours := effectiveHours cfg input
    let decided := handleDynamicPrice cfg input hours hours.extended hours.blocking
    plan.cheapAt k = decided.2 ∧ plan.expensiveAt k = decided.1 := by
  intro m list input cfg plan k hours decided
  have hcovered : Covered cfg list 30000240 input := by decide
  obtain ⟨hcheap, hexpensive, -⟩ := plan_shows_decision afternoonPrices cfg noon
    (fun _ => 0) 30000240 noon_steady (by decide) (by decide) (by decide)
  rw [decide_eq_true hcovered, Bool.true_and] at hcheap hexpensive
  exact ⟨hcheap (fun h => nomatch h), hexpensive (fun h => nomatch h)⟩

/-- A control period of a whole day is not, and its cheap hours are used all the same. -/
theorem partly_priced_period_unplanned :
    let m := run PriceModule.step PriceModule.boot afternoonPrices
    let input := noon.withPrices m
    let cfg := afternoonConfig .hours24
    let plan := updatePlan cfg input (some (priceList m)) 720
    SteadyClock (fun _ => 0) (priceList m) 30000240 input ∧
      plan.cheapAt 0 = false ∧ plan.expensiveAt 0 = false ∧
      handleDynamicPrice cfg input (effectiveHours cfg input) true false = (false, true) := by
  refine ⟨noon_steady, ?_, ?_, ?_⟩
  · decide
  · decide
  · decide

end Esp32Firmware.Heating
