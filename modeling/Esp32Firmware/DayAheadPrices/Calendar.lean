import Esp32Firmware.DayAheadPrices.SelectSlots
import Esp32Firmware.Library.Run

/-!
# The calendar overlay

A calendar of a week is added to the prices of today and tomorrow. The overlay takes entry
`i` of a raw price series for quarter hour `i` of today and tomorrow, so it is right for
series that start with the local day and cover no change to or from daylight saving time.

## Implementation notes

The tasks that a configuration change schedules run right after it. The cache of block
selections and the minimum, maximum and average prices are left out.
-/

namespace Esp32Firmware.DayAheadPrices

/-- The local weekday, Monday first, and quarter hour of a time in minutes. -/
structure LocalTime where
  weekday : UInt32 → Fin 7
  quarter : UInt32 → Fin 96

/-- What the clock answers. -/
structure Clock where
  clockSynced : Bool
  timestampMinutes : UInt32
  /-- `get_localtime_today_midnight_in_utc`. -/
  todayMidnight : Option UInt32

/-- `DAY_AHEAD_PRICE_CALENDAR_SLOTS_PER_DAY`. -/
def slotsPerDay : Nat := 96

/-- `DAY_AHEAD_PRICE_CALENDAR_SLOTS`. -/
def calendarSlots : Nat := 7 * slotsPerDay

structure CalendarState where
  prices : DayAheadPrices
  rawPrices : List Int
  calendar : List Int
  /-- None for -1. -/
  calendarLastGeneratedWday : Option (Fin 7)
  enableCalendar : Bool

namespace CalendarState

/-- `cal_today_tomorrow`, in ct/1000. -/
def calTodayTomorrow (s : CalendarState) (wday : Fin 7) (slot : Nat) : Int :=
  if slot < slotsPerDay then
    s.calendar.getD (wday * slotsPerDay + slot) 0 * 10
  else
    s.calendar.getD ((wday + 1) % 7 * slotsPerDay + (slot - slotsPerDay)) 0 * 10

/-- The number of prices that the overlay combines. -/
def combinedCount (s : CalendarState) : Nat := min s.rawPrices.length (slotsPerDay * 2)

def refresh (clock : Clock) (s : CalendarState) : CalendarState :=
  { s with prices := updatePricesSorted (updateCurrentPrice clock.timestampMinutes s.prices) }

def updateCalendar (localTime : LocalTime) (clock : Clock) (s : CalendarState) : CalendarState :=
  if ¬ clock.clockSynced then
    s
  else
    let wday := localTime.weekday clock.timestampMinutes
    if s.calendarLastGeneratedWday = some wday then
      s
    else
      let s := { s with calendarLastGeneratedWday := some wday }
      if s.calendar.length ≠ calendarSlots then
        s
      else if s.rawPrices.length > 0 then
        -- hourly prices are not supported with a calendar
        if s.prices.resolution = .min60 then
          s
        else
          refresh clock
            { s with prices := { s.prices with
                prices := (List.range s.combinedCount).map
                  fun i => s.rawPrices.getD i 0 + s.calTodayTomorrow wday i } }
      else
        match clock.todayMidnight with
        | none => s
        | some midnight =>
          refresh clock
            { s with prices := { s.prices with
                firstDate := midnight
                resolution := .min15
                prices := (List.range (slotsPerDay * 2)).map (s.calTodayTomorrow wday) } }

/-- What happens to the prices and the calendar. -/
inductive Op where
  | newPrices (clock : Clock) (firstDate : UInt32) (resolution : Resolution) (prices : List Int)
  | setCalendar (clock : Clock) (prices : List Int)
  | setEnableCalendar (clock : Clock) (enableCalendar : Bool)
  | sourceChanged (clock : Clock) (resolution : Resolution)
  | tick (clock : Clock)

def Op.clock : Op → Clock
  | .newPrices clock _ _ _ => clock
  | .setCalendar clock _ => clock
  | .setEnableCalendar clock _ => clock
  | .sourceChanged clock _ => clock
  | .tick clock => clock

/-- The state before the overlay is computed. -/
def prepare (s : CalendarState) : Op → CalendarState
  | .newPrices clock firstDate resolution prices =>
    let s := refresh clock
      { s with
        prices := { s.prices with
          firstDate := firstDate, resolution := resolution, prices := prices }
        rawPrices := prices }
    if s.enableCalendar then { s with calendarLastGeneratedWday := none } else s
  | .setCalendar _ prices => { s with calendar := prices, calendarLastGeneratedWday := none }
  | .setEnableCalendar clock enableCalendar =>
    if enableCalendar = s.enableCalendar then
      s
    else
      let s := { s with enableCalendar := enableCalendar, calendarLastGeneratedWday := none }
      if enableCalendar then
        s
      else if s.rawPrices.length > 0 then
        refresh clock { s with prices := { s.prices with prices := s.rawPrices } }
      else
        { s with prices := { s.prices with firstDate := 0, prices := [], currentPrice := none } }
  | .sourceChanged _ resolution =>
    { s with
      prices := { s.prices with
        firstDate := 0, prices := [], resolution := resolution, currentPrice := none }
      calendarLastGeneratedWday := none
      rawPrices := [] }
  | .tick _ => s

/-- The operation computes the overlay if the calendar is enabled. -/
def Op.overlays : Op → Bool
  | .sourceChanged _ _ => false
  | _ => true

def step (localTime : LocalTime) (s : CalendarState) (op : Op) : CalendarState :=
  if op.overlays ∧ (s.prepare op).enableCalendar then
    updateCalendar localTime op.clock (s.prepare op)
  else
    s.prepare op

/-- The state after boot. -/
def boot (enableCalendar : Bool) : CalendarState where
  prices :=
    { prices := []
      resolution := .min60
      firstDate := 0
      currentPrice := none
      pricesSortedAvailable := false
      pricesSorted := []
      pricesSortedFirstDate := 0 }
  rawPrices := []
  calendar := []
  calendarLastGeneratedWday := none
  enableCalendar := enableCalendar

/-- The time of slot `i` of the series. -/
def slotTime (s : CalendarState) (i : Nat) : UInt32 := s.prices.firstDate + UInt32.ofNat (15 * i)

/-- The calendar entry of the local weekday and quarter hour of a time, in ct/1000. -/
def calendarAt (localTime : LocalTime) (s : CalendarState) (time : UInt32) : Int :=
  s.calendar.getD (localTime.weekday time * slotsPerDay + localTime.quarter time) 0 * 10

/-- Every price is the raw price of its slot and the calendar entry of its local time. -/
def Overlaid (localTime : LocalTime) (s : CalendarState) : Prop :=
  s.prices.prices = (List.range s.combinedCount).map
    fun i => s.rawPrices.getD i 0 + s.calendarAt localTime (s.slotTime i)

/-- There is an overlay: a complete calendar was applied to a raw series. -/
structure HasOverlay (s : CalendarState) : Prop where
  generated : s.calendarLastGeneratedWday ≠ none
  complete : s.calendar.length = calendarSlots
  raw : s.rawPrices ≠ []

/-- The slots of the series are the quarter hours of the local today and tomorrow. -/
def SlotsFromToday (localTime : LocalTime) (clock : Clock) (s : CalendarState) : Prop :=
  ∀ i < s.combinedCount, (localTime.weekday (s.slotTime i) : Nat)
        = (localTime.weekday clock.timestampMinutes + i / slotsPerDay) % 7 ∧
      (localTime.quarter (s.slotTime i) : Nat) = i % slotsPerDay

/-- Wherever a step computes the overlay of a series of quarter hours, these are today's and
tomorrow's. -/
def StepAligned (localTime : LocalTime) (s : CalendarState) (op : Op) : Prop :=
  op.overlays = true → (s.prepare op).enableCalendar = true → op.clock.clockSynced = true →
    (s.prepare op).calendarLastGeneratedWday ≠ some (localTime.weekday op.clock.timestampMinutes) →
    (s.prepare op).rawPrices ≠ [] → (s.prepare op).prices.resolution = .min15 →
    SlotsFromToday localTime op.clock (s.prepare op)

theorem refresh_prices (clock : Clock) (s : CalendarState) :
    (refresh clock s).prices.prices = s.prices.prices := by
  rw [refresh, updatePricesSorted]
  split <;> rfl

theorem refresh_frame (clock : Clock) (s : CalendarState) :
    (refresh clock s).prices.firstDate = s.prices.firstDate ∧
      (refresh clock s).prices.resolution = s.prices.resolution ∧
      (refresh clock s).rawPrices = s.rawPrices ∧ (refresh clock s).calendar = s.calendar ∧
      (refresh clock s).calendarLastGeneratedWday = s.calendarLastGeneratedWday ∧
      (refresh clock s).enableCalendar = s.enableCalendar := by
  rw [refresh, updatePricesSorted]
  split <;> exact ⟨rfl, rfl, rfl, rfl, rfl, rfl⟩

variable {localTime : LocalTime} {clock : Clock} {s : CalendarState}

/-- A calendar entry of today and tomorrow is the entry of its local time. -/
theorem calTodayTomorrow_eq {i : Nat} (hi : i < slotsPerDay * 2) {wday day : Fin 7}
    {quarter : Fin 96} (hday : (day : Nat) = (wday + i / slotsPerDay) % 7)
    (hquarter : (quarter : Nat) = i % slotsPerDay) :
    s.calTodayTomorrow wday i = s.calendar.getD (day * slotsPerDay + quarter) 0 * 10 := by
  have hwday := wday.isLt
  rw [calTodayTomorrow, hday, hquarter]
  by_cases hlt : i < slotsPerDay
  · have hself : ((wday : Nat) + 0) % 7 = wday := by omega
    rw [if_pos hlt, Nat.div_eq_of_lt hlt, Nat.mod_eq_of_lt hlt, hself]
  · have hone : i / slotsPerDay = 1 := by
      simp only [slotsPerDay] at hi hlt ⊢
      omega
    have hmod : i % slotsPerDay = i - slotsPerDay := by
      simp only [slotsPerDay] at hi hlt ⊢
      omega
    rw [if_neg hlt, hone, hmod]

section

variable (localTime : LocalTime) (clock : Clock) (s : CalendarState)

/-- What `update_calendar` does to a raw series: nothing, only the weekday is noted, or the
overlay is computed. -/
theorem updateCalendar_cases (hraw : s.rawPrices ≠ []) :
    updateCalendar localTime clock s = s ∨ updateCalendar localTime clock s
          = { s with calendarLastGeneratedWday := some (localTime.weekday clock.timestampMinutes) } ∧
        (s.calendar.length ≠ calendarSlots ∨ s.prices.resolution = .min60) ∨
      (clock.clockSynced = true ∧
        s.calendarLastGeneratedWday ≠ some (localTime.weekday clock.timestampMinutes) ∧
        s.prices.resolution = .min15 ∧
        updateCalendar localTime clock s = refresh clock
          { s with
            calendarLastGeneratedWday := some (localTime.weekday clock.timestampMinutes)
            prices := { s.prices with
              prices := (List.range s.combinedCount).map fun i => s.rawPrices.getD i 0 +
                s.calTodayTomorrow (localTime.weekday clock.timestampMinutes) i } }) := by
  have hlength : 0 < s.rawPrices.length := List.length_pos_of_ne_nil hraw
  rw [updateCalendar]
  cases hsynced : clock.clockSynced with
  | false => exact .inl (by simp)
  | true =>
    by_cases hday : s.calendarLastGeneratedWday = some (localTime.weekday clock.timestampMinutes)
    · exact .inl (by simp [hday])
    · right
      by_cases hcomplete : s.calendar.length = calendarSlots
      · cases hres : s.prices.resolution with
        | min60 =>
          left
          simp [hday, hcomplete, hlength, hres]
        | min15 =>
          right
          refine ⟨rfl, hday, rfl, ?_⟩
          simp [hday, hcomplete, hlength, hres]
          rfl
      · left
        simp [hday, hcomplete]

/-- What `update_calendar` leaves as it is. -/
theorem updateCalendar_frame : (updateCalendar localTime clock s).rawPrices = s.rawPrices ∧
      (updateCalendar localTime clock s).calendar = s.calendar ∧
      (updateCalendar localTime clock s).enableCalendar = s.enableCalendar := by
  rw [updateCalendar]
  split
  · exact ⟨rfl, rfl, rfl⟩
  · dsimp only
    split
    · exact ⟨rfl, rfl, rfl⟩
    · split
      · exact ⟨rfl, rfl, rfl⟩
      · split
        · split
          · exact ⟨rfl, rfl, rfl⟩
          · obtain ⟨-, -, h⟩ := refresh_frame clock _
            exact ⟨h.1, h.2.1, h.2.2.2⟩
        · split
          · exact ⟨rfl, rfl, rfl⟩
          · obtain ⟨-, -, h⟩ := refresh_frame clock _
            exact ⟨h.1, h.2.1, h.2.2.2⟩

end

/-- What the overlay should be depends on the series and the calendar. -/
theorem overlaid_congr {t : CalendarState} (hraw : t.rawPrices = s.rawPrices)
    (hcalendar : t.calendar = s.calendar) (hdate : t.prices.firstDate = s.prices.firstDate) :
    Overlaid localTime t ↔ t.prices.prices = (List.range s.combinedCount).map
      fun i => s.rawPrices.getD i 0 + s.calendarAt localTime (s.slotTime i) := by
  have hoverlay : ((List.range t.combinedCount).map
        fun i => t.rawPrices.getD i 0 + t.calendarAt localTime (t.slotTime i))
      = (List.range s.combinedCount).map
        fun i => s.rawPrices.getD i 0 + s.calendarAt localTime (s.slotTime i) := by
    simp only [combinedCount, calendarAt, slotTime, hraw, hcalendar, hdate]
  rw [Overlaid, hoverlay]

/-- The overlay of slots that are the quarter hours of today and tomorrow. -/
theorem combined_eq_overlay (h : SlotsFromToday localTime clock s) :
    ((List.range s.combinedCount).map fun i => s.rawPrices.getD i 0 +
        s.calTodayTomorrow (localTime.weekday clock.timestampMinutes) i)
      = (List.range s.combinedCount).map
        fun i => s.rawPrices.getD i 0 + s.calendarAt localTime (s.slotTime i) := by
  apply List.map_congr_left
  intro i hi
  rw [List.mem_range] at hi
  obtain ⟨hday, hquarter⟩ := h i hi
  have htwo : i < slotsPerDay * 2 := lt_of_lt_of_le hi (min_le_right _ _)
  rw [calTodayTomorrow_eq htwo hday hquarter, calendarAt]

/-- What holds between any two operations. -/
structure Invariant (localTime : LocalTime) (s : CalendarState) : Prop where
  disabled : s.enableCalendar = false → s.calendarLastGeneratedWday = none
  hourly : s.rawPrices ≠ [] → s.prices.resolution = .min60 → s.prices.prices = s.rawPrices
  overlaid : HasOverlay s → s.prices.resolution = .min15 → Overlaid localTime s

theorem invariant_boot (localTime : LocalTime) (enableCalendar : Bool) :
    Invariant localTime (boot enableCalendar) := by
  refine ⟨fun _ => rfl, ?_, ?_⟩
  · intro hraw
    exact absurd rfl hraw
  · intro h
    exact absurd rfl h.raw

/-- A state without an overlay. -/
theorem Invariant.of_none (hnone : s.calendarLastGeneratedWday = none)
    (hhourly : s.rawPrices ≠ [] → s.prices.resolution = .min60 →
      s.prices.prices = s.rawPrices) : Invariant localTime s := by
  refine ⟨fun _ => hnone, hhourly, ?_⟩
  intro h
  exact absurd hnone h.generated

theorem Invariant.prepare (h : Invariant localTime s) (op : Op) :
    Invariant localTime (s.prepare op) := by
  cases op with
  | newPrices clock firstDate resolution prices =>
    have hnew : ∀ t : CalendarState, t.enableCalendar = s.enableCalendar →
        t.calendarLastGeneratedWday = s.calendarLastGeneratedWday →
        t.prices.prices = t.rawPrices →
        Invariant localTime (if (refresh clock t).enableCalendar then
          { refresh clock t with calendarLastGeneratedWday := none } else refresh clock t) := by
      intro t henable hlast hprices
      obtain ⟨-, -, hraw, -, hlast', henable'⟩ := refresh_frame clock t
      have hprices' : (refresh clock t).prices.prices = (refresh clock t).rawPrices := by
        rw [refresh_prices, hraw, hprices]
      cases hcal : s.enableCalendar with
      | true =>
        rw [if_pos (by rw [henable', henable, hcal])]
        exact Invariant.of_none rfl fun _ _ => hprices'
      | false =>
        rw [if_neg (by rw [henable', henable, hcal]; decide)]
        apply Invariant.of_none _ fun _ _ => hprices'
        rw [hlast', hlast]
        exact h.disabled hcal
    exact hnew _ rfl rfl rfl
  | setCalendar clock prices =>
    exact Invariant.of_none rfl h.hourly
  | setEnableCalendar clock enableCalendar =>
    rw [CalendarState.prepare]
    split
    · exact h
    · dsimp only
      split
      · exact Invariant.of_none rfl h.hourly
      · split
        · obtain ⟨-, -, hraw, -, hlast, -⟩ := refresh_frame clock
            { s with
              enableCalendar := enableCalendar
              calendarLastGeneratedWday := none
              prices := { s.prices with prices := s.rawPrices } }
          apply Invariant.of_none hlast
          intro _ _
          rw [refresh_prices, hraw]
        · next hempty =>
            apply Invariant.of_none rfl
            intro hraw
            exact absurd (List.length_pos_of_ne_nil hraw) hempty
  | sourceChanged clock resolution =>
    apply Invariant.of_none rfl
    intro hraw
    exact absurd rfl hraw
  | tick clock => exact h

theorem Invariant.updateCalendar (h : Invariant localTime s)
    (henable : s.enableCalendar = true)
    (haligned : clock.clockSynced = true →
      s.calendarLastGeneratedWday ≠ some (localTime.weekday clock.timestampMinutes) →
      s.rawPrices ≠ [] → s.prices.resolution = .min15 → SlotsFromToday localTime clock s) :
    Invariant localTime (updateCalendar localTime clock s) := by
  obtain ⟨hraw, hcalendar, hcal⟩ := updateCalendar_frame localTime clock s
  have hdisabled : (CalendarState.updateCalendar localTime clock s).enableCalendar = false →
      (CalendarState.updateCalendar localTime clock s).calendarLastGeneratedWday = none := by
    intro hfalse
    rw [hcal, henable] at hfalse
    cases hfalse
  by_cases hne : s.rawPrices = []
  · refine ⟨hdisabled, ?_, ?_⟩
    · intro hraw'
      exact absurd (hraw.trans hne) hraw'
    · intro hover
      exact absurd (hraw.trans hne) hover.raw
  · rcases updateCalendar_cases localTime clock s hne with heq | ⟨heq, hwhy⟩ |
      ⟨hsynced, hday, hres, heq⟩
    · rw [heq]
      exact h
    · rw [heq] at hdisabled ⊢
      refine ⟨hdisabled, h.hourly, ?_⟩
      intro hover hres
      rcases hwhy with hlength | hhourly
      · exact absurd hover.complete hlength
      · rw [hhourly] at hres
        cases hres
    · obtain ⟨hdate, hres', hraw', hcalendar', -, -⟩ := refresh_frame clock
        { s with
          calendarLastGeneratedWday := some (localTime.weekday clock.timestampMinutes)
          prices := { s.prices with
            prices := (List.range s.combinedCount).map fun i => s.rawPrices.getD i 0 +
              s.calTodayTomorrow (localTime.weekday clock.timestampMinutes) i } }
      rw [heq] at hdisabled ⊢
      refine ⟨hdisabled, ?_, ?_⟩
      · intro _ hmin60
        rw [hres', hres] at hmin60
        cases hmin60
      · intro _ _
        rw [overlaid_congr hraw' hcalendar' hdate, refresh_prices]
        exact combined_eq_overlay (haligned hsynced hday hne hres)

theorem Invariant.step (h : Invariant localTime s) {op : Op} (hop : StepAligned localTime s op) :
    Invariant localTime (step localTime s op) := by
  rw [CalendarState.step]
  split
  · next hupdates =>
      exact (h.prepare op).updateCalendar hupdates.2 (hop hupdates.1 hupdates.2)
  · exact h.prepare op

/-- Recomputing the overlay of a series keeps everything it depends on. -/
theorem tick_frame (hover : HasOverlay s) (clock : Clock) :
    (step localTime s (.tick clock)).rawPrices = s.rawPrices ∧
      (step localTime s (.tick clock)).calendar = s.calendar ∧
      (step localTime s (.tick clock)).prices.firstDate = s.prices.firstDate ∧
      (step localTime s (.tick clock)).prices.resolution = s.prices.resolution ∧
      HasOverlay (step localTime s (.tick clock)) := by
  rw [CalendarState.step]
  split
  · obtain ⟨hraw, hcalendar, -⟩ := updateCalendar_frame localTime clock s
    have hcomplete : (updateCalendar localTime clock s).calendar.length = calendarSlots := by
      rw [hcalendar]
      exact hover.complete
    have hne : (updateCalendar localTime clock s).rawPrices ≠ [] := by
      rw [hraw]
      exact hover.raw
    refine ⟨hraw, hcalendar, ?_⟩
    show (updateCalendar localTime clock s).prices.firstDate = _ ∧
      (updateCalendar localTime clock s).prices.resolution = _ ∧
      HasOverlay (updateCalendar localTime clock s)
    rcases updateCalendar_cases localTime clock s hover.raw with heq | ⟨heq, -⟩ | ⟨-, -, -, heq⟩
    · rw [heq]
      exact ⟨rfl, rfl, hover⟩
    · rw [heq] at hcomplete hne ⊢
      exact ⟨rfl, rfl, ⟨by simp, hcomplete, hne⟩⟩
    · obtain ⟨hdate, hres, -, -, hlast, -⟩ := refresh_frame clock
        { s with
          calendarLastGeneratedWday := some (localTime.weekday clock.timestampMinutes)
          prices := { s.prices with
            prices := (List.range s.combinedCount).map fun i => s.rawPrices.getD i 0 +
              s.calTodayTomorrow (localTime.weekday clock.timestampMinutes) i } }
      rw [heq] at hcomplete hne ⊢
      exact ⟨hdate, hres, ⟨by rw [hlast]; simp, hcomplete, hne⟩⟩
  · exact ⟨rfl, rfl, rfl, rfl, hover⟩

theorem ticks_frame (clocks : List Clock) {s : CalendarState} (hover : HasOverlay s) :
    (run (step localTime) s (clocks.map .tick)).rawPrices = s.rawPrices ∧
      (run (step localTime) s (clocks.map .tick)).calendar = s.calendar ∧
      (run (step localTime) s (clocks.map .tick)).prices.firstDate = s.prices.firstDate ∧
      (run (step localTime) s (clocks.map .tick)).prices.resolution = s.prices.resolution ∧
      HasOverlay (run (step localTime) s (clocks.map .tick)) := by
  induction clocks generalizing s with
  | nil => exact ⟨rfl, rfl, rfl, rfl, hover⟩
  | cons clock rest ih =>
    obtain ⟨hraw, hcalendar, hdate, hres, hover'⟩ := tick_frame hover clock
    obtain ⟨hraw', hcalendar', hdate', hres', hover''⟩ := ih hover'
    exact ⟨hraw'.trans hraw, hcalendar'.trans hcalendar, hdate'.trans hdate, hres'.trans hres,
      hover''⟩

/-- In every run whose overlays are computed for the quarter hours of today and tomorrow,
every price of a series with an overlay is its raw price and the calendar entry of its local
time, hourly series keep their raw prices, and computing the overlay again, any number of
times, gives the same prices. -/
theorem overlay_correct (localTime : LocalTime) (enableCalendar : Bool) (ops : List Op)
    (clocks : List Clock)
    (h : Meets (step localTime) (StepAligned localTime) (boot enableCalendar)
      (ops ++ clocks.map .tick)) :
    let s := run (step localTime) (boot enableCalendar) ops
    (HasOverlay s → s.prices.resolution = .min15 → Overlaid localTime s) ∧
      (s.rawPrices ≠ [] → s.prices.resolution = .min60 → s.prices.prices = s.rawPrices) ∧
      (HasOverlay s → (run (step localTime) s (clocks.map .tick)).prices.prices
        = s.prices.prices) := by
  obtain ⟨hops, hticks⟩ := h.append
  have hinv : Invariant localTime (run (step localTime) (boot enableCalendar) ops) :=
    hops.invariant (fun _ _ hs hop => hs.step hop) (invariant_boot localTime enableCalendar)
  have hinv' := hticks.invariant (fun _ _ hs hop => hs.step hop) hinv
  dsimp only
  generalize run (step localTime) (boot enableCalendar) ops = s at hinv hinv'
  refine ⟨hinv.overlaid, hinv.hourly, ?_⟩
  intro hover
  obtain ⟨hraw, hcalendar, hdate, hres, hover'⟩ := @ticks_frame localTime clocks s hover
  cases hslots : s.prices.resolution with
  | min60 => rw [hinv.hourly hover.raw hslots, hinv'.hourly hover'.raw (hres.trans hslots), hraw]
  | min15 =>
    have hleft := hinv.overlaid hover hslots
    have hright := hinv'.overlaid hover' (hres.trans hslots)
    rw [overlaid_congr hraw hcalendar hdate] at hright
    rw [hright]
    exact hleft.symm

def utc : LocalTime where
  weekday time := ⟨(time.toNat / 1440 + 3) % 7, Nat.mod_lt _ (by decide)⟩
  quarter time := ⟨time.toNat / 15 % 96, Nat.mod_lt _ (by decide)⟩

/-- 10:00 on a Thursday, and the same time on the day after. -/
def thursday : Clock := ⟨true, 29000760, some 29000160⟩

def friday : Clock := ⟨true, 29002200, some 29001600⟩

/-- A calendar with one price for each day of the week. -/
def dailyCalendar : List Int :=
  (List.range calendarSlots).map fun k : Nat => ((k / slotsPerDay : Nat) : Int) + 1

/-- A complete calendar and a series that starts with Thursday. -/
def thursdaySeries (resolution : Resolution) : List Op :=
  [.setCalendar thursday dailyCalendar, .newPrices thursday 29000160 resolution [5, 7]]

/-- Hourly prices get no overlay. A series that starts with Thursday gets the entries of
Friday when the overlay is computed again on Friday. -/
theorem overlay_not_applied :
    (run (step utc) (boot true) (thursdaySeries .min60)).prices.prices = [5, 7] ∧
      calendarAt utc (run (step utc) (boot true) (thursdaySeries .min60)) 29000160 = 40 ∧
      (run (step utc) (boot true) (thursdaySeries .min15)).prices.prices = [45, 47] ∧
      (run (step utc) (boot true) (thursdaySeries .min15 ++ [.tick friday])).prices.prices
        = [55, 57] := by
  decide +kernel

theorem thursdaySeries_aligned :
    Meets (step utc) (StepAligned utc) (boot true) (thursdaySeries .min15 ++ [.tick thursday]) := by
  refine ⟨?_, ?_, ?_, trivial⟩
  · intro _ _ _ _ hraw
    exact absurd rfl hraw
  · intro _ _ _ _ _ _
    unfold SlotsFromToday
    decide +kernel
  · intro _ _ _ hday
    exact absurd (by decide +kernel) hday

theorem thursdaySeries_overlay_correct :
    let s := run (step utc) (boot true) (thursdaySeries .min15)
    (HasOverlay s → s.prices.resolution = .min15 → Overlaid utc s) ∧
      (s.rawPrices ≠ [] → s.prices.resolution = .min60 → s.prices.prices = s.rawPrices) ∧
      (HasOverlay s → (run (step utc) s ([thursday].map .tick)).prices.prices = s.prices.prices) :=
  overlay_correct utc true (thursdaySeries .min15) [thursday] thursdaySeries_aligned

end CalendarState

end Esp32Firmware.DayAheadPrices
