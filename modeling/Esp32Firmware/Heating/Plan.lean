import Esp32Firmware.P14aEnwg
import Esp32Firmware.DayAheadPrices.WholeHours

/-!
# The heating controller

The controller switches two SG-Ready outputs, one that blocks the heat pump and one for
extended operation. It decides by prices, the expected PV yield, PV excess and the
temperature, holds a decision for a minimum time, and obeys the grid operator.

The plan shows for each entry of the price list whether it is cheap, expensive or neither. It is
computed control period by control period from the start of the price list, while the controller
computes the control period it is in from the last midnight.

## Implementation notes

Times are in minutes. The outputs are read from the last data fetched from the energy
manager, setting one does not change the fetched data. The trace log is left out.

The plan is computed in each update before anything is decided. Its arrays are functions with a
number of entries. The cache of the price module does not change its answers, so both computations
ask the same functions.
-/

namespace Esp32Firmware

namespace Heating

/-- How an output is wired: the heat pump sees it as switched on while it is closed or
while it is open. -/
inductive SgReadyType where
  | activeClosed | activeOpen
  deriving DecidableEq, Repr

/-- The value of an output that is switched on. -/
def SgReadyType.onValue : SgReadyType → Bool
  | .activeClosed => true
  | .activeOpen => false

inductive ControlPeriod where
  | hours24 | hours12 | hours8 | hours6 | hours4
  deriving DecidableEq, Repr

def ControlPeriod.duration : ControlPeriod → Nat
  | .hours24 => 24
  | .hours12 => 12
  | .hours8 => 8
  | .hours6 => 6
  | .hours4 => 4

structure Config where
  sgrBlockingType : SgReadyType
  sgrExtendedType : SgReadyType
  minHoldTime : UInt8
  controlPeriod : ControlPeriod
  enableHeatingCurve : Bool
  enableDaytimeExtension : Bool
  yieldForecast : Bool
  yieldForecastThreshold : Nat
  extended : Bool
  extendedHours : Nat
  extendedHoursWarm : Nat
  extendedHoursCold : Nat
  blocking : Bool
  blockingHours : Nat
  blockingHoursWarm : Nat
  blockingHoursCold : Nat
  pvExcessControl : Bool
  pvExcessControlThreshold : Nat

/-- `get_cheap_1h_blocked` and `get_expensive_1h_blocked`: the selected quarter hours from
a start time on, for a duration and an amount in hours and a minimum block length. -/
abbrev PriceQuery := Int → Nat → Nat → Nat → Option (Nat → Bool)

/-- What an update reads from other modules. -/
structure UpdateInput where
  hasSgrAutomation : Bool
  clockSynced : Bool
  p14aEnwg : P14aEnwg
  timestampMinutes : Nat
  minutesSinceMidnight : Nat
  /-- Local midnight. -/
  midnight : Option Int
  cheapHours : PriceQuery
  expensiveHours : PriceQuery
  /-- The grid power in W of a fresh meter value. -/
  gridPower : Option Float32.Model
  whToday : Option Nat
  /-- The average temperature in a tenth of a degree. -/
  todayAvg : Option Int

/-- `is_p14enwg_active`. -/
def UpdateInput.p14enwgOn (input : UpdateInput) : Bool := input.p14aEnwg.isHeatingActive

structure State where
  output0 : Bool
  output1 : Bool
  fetchedOutput0 : Bool
  fetchedOutput1 : Bool
  lastSgReadyChange : Nat
  startupDelay : Bool
  overrideUntil : Nat
  /-- Whether `override_task_id` is set. -/
  overrideTask : Bool
  automationOverride : Bool
  sgrBlocking : Bool
  sgrExtended : Bool
  p14enwg : Bool
  nextUpdate : Nat
  enabled : Bool

namespace State

variable (cfg : Config) (s : State)

/-- The blocking output is switched on. -/
def blockingOn : Bool := s.output0 == cfg.sgrBlockingType.onValue

/-- The extended output is switched on. -/
def extendedOn : Bool := s.output1 == cfg.sgrExtendedType.onValue

/-- `fetch_all_data`. -/
def fetch : State := { s with fetchedOutput0 := s.output0, fetchedOutput1 := s.output1 }

/-- The restart of the minimum hold time after a switch. -/
def noteChange (now : Nat) : State :=
  { s with lastSgReadyChange := now, nextUpdate := now + cfg.minHoldTime.toNat }

end State

/-- Hours interpolated between the warm and the cold end of the curve. -/
def interpolate (todayAvg : Int) (hoursWarm hoursCold : Nat) : Nat :=
  let clampedTemp := max (-100) (min 200 todayAvg)
  let tNum := 200 - clampedTemp
  let diff : Int := hoursCold - hoursWarm
  let interpolated := hoursWarm + (diff * tNum + if diff ≥ 0 then 150 else -150).tdiv 300
  (max 0 interpolated).toNat

/-- Whether extended operation and blocking are controlled by price, and for how long. -/
structure Hours where
  extended : Bool
  extendedHours : Nat
  blocking : Bool
  blockingHours : Nat

/-- The hours of the heating curve, or the flat ones without temperature. -/
def effectiveHours (cfg : Config) (input : UpdateInput) : Hours :=
  let flat := ⟨cfg.extended, cfg.extendedHours, cfg.blocking, cfg.blockingHours⟩
  if cfg.enableHeatingCurve then
    match input.todayAvg with
    | none => flat
    | some todayAvg =>
      ⟨true, interpolate todayAvg cfg.extendedHoursWarm cfg.extendedHoursCold,
        true, interpolate todayAvg cfg.blockingHoursWarm cfg.blockingHoursCold⟩
  else flat

/-- `is_expected_yield_high`. -/
def isExpectedYieldHigh (cfg : Config) (input : UpdateInput) : Bool :=
  cfg.yieldForecast &&
    match input.whToday with
    | none => false
    | some whExpected => !decide (whExpected / 1000 < cfg.yieldForecastThreshold)

/-- `handle_dynamic_price`: whether the blocking and the extended output shall be on. -/
def handleDynamicPrice (cfg : Config) (input : UpdateInput) (hours : Hours)
    (handleExtended handleBlocking : Bool) : Bool × Bool :=
  if !hours.extended && !hours.blocking then (false, false)
  else
    let duration := cfg.controlPeriod.duration
    let durationBlock := input.minutesSinceMidnight / (duration * 60) * (duration * 60)
    match input.midnight with
    | none => (false, false)
    | some midnight =>
      let startTime := midnight + durationBlock
      let currentIndex := (input.minutesSinceMidnight - durationBlock) / 15
      let minBlock15m := (cfg.minHoldTime.toNat + 14) / 15
      let selected (query : PriceQuery) (amount : Nat) : Bool :=
        match query startTime duration amount minBlock15m with
        | none => false
        | some data => data currentIndex
      (handleBlocking && selected input.expensiveHours hours.blockingHours,
        handleExtended && selected input.cheapHours hours.extendedHours)

/-- `handle_pv_excess`: the excess has to exceed the threshold to switch the extended
output on, and zero to leave it on. -/
def handlePvExcess (cfg : Config) (input : UpdateInput) (sgReadyOutput1 : Bool) : Bool :=
  cfg.pvExcessControl &&
    match input.gridPower with
    | none => false
    | some wattCurrent =>
      if sgReadyOutput1 = cfg.sgrExtendedType.onValue then
        decide (Float32.Model.ofInt 0 < -wattCurrent)
      else decide (Float32.Model.ofInt cfg.pvExcessControlThreshold < -wattCurrent)

/-- Extended operation is suppressed outside of the day time when it is cold. -/
def suppressedByCold (cfg : Config) (input : UpdateInput) : Bool :=
  cfg.enableHeatingCurve && cfg.enableDaytimeExtension &&
    match input.todayAvg with
    | none => false
    | some avgTemp =>
      decide (avgTemp < 50) &&
        (decide (input.minutesSinceMidnight < 540) || decide (1080 ≤ input.minutesSinceMidnight))

/-- Whether no control is configured. -/
def isDisabled (cfg : Config) (hours : Hours) : Bool :=
  !cfg.yieldForecast && !hours.extended && !hours.blocking && !cfg.pvExcessControl

/-- The outputs as price, yield, excess and temperature want them. -/
def wantedOutputs (cfg : Config) (input : UpdateInput) (sgReadyOutput1 : Bool) : Bool × Bool :=
  let hours := effectiveHours cfg input
  let (sgReady0On, sgReady1On) :=
    if isDisabled cfg hours then (false, false)
    else
      let (price0, price1) := handleDynamicPrice cfg input hours
        (!isExpectedYieldHigh cfg input && hours.extended) hours.blocking
      (price0, price1 || handlePvExcess cfg input sgReadyOutput1)
  (sgReady0On, if suppressedByCold cfg input then false else sgReady1On)

/-- What is left of the minimum hold time. -/
def remainingHoldingTime (cfg : Config) (input : UpdateInput) (s : State) : Nat :=
  if input.timestampMinutes ≥ s.lastSgReadyChange then
    cfg.minHoldTime.toNat - (input.timestampMinutes - s.lastSgReadyChange)
  else 0

/-- The module is disabled while automation rules control the outputs. -/
def checkAutomation (input : UpdateInput) (s : State) : State :=
  if input.hasSgrAutomation = s.automationOverride then s
  else if input.hasSgrAutomation then
    { s with
      automationOverride := true
      lastSgReadyChange := 0
      sgrBlocking := false
      sgrExtended := false
      p14enwg := false
      nextUpdate := 0
      overrideUntil := if s.overrideTask then 0 else s.overrideUntil
      overrideTask := false }
  else { s with automationOverride := false }

/-- The grid operator's control blocks the heat pump at once. -/
def blockByP14enwg (cfg : Config) (input : UpdateInput) (s : State) : State :=
  if input.p14enwgOn then
    { s with p14enwg := true, sgrBlocking := true, output0 := cfg.sgrBlockingType.onValue }
  else { s with p14enwg := false }

/-- Switches the extended output. -/
def switchExtended (cfg : Config) (now : Nat) (on : Bool) (s : State) : State :=
  let newValue := if on then cfg.sgrExtendedType.onValue else !cfg.sgrExtendedType.onValue
  let s := { s with sgrExtended := on }
  if s.fetchedOutput1 ≠ newValue then { s with output1 := newValue }.noteChange cfg now else s

/-- Switches the blocking output. -/
def switchBlocking (cfg : Config) (now : Nat) (on : Bool) (s : State) : State :=
  let newValue := if on then cfg.sgrBlockingType.onValue else !cfg.sgrBlockingType.onValue
  let s := { s with sgrBlocking := on }
  if s.fetchedOutput0 ≠ newValue then { s with output0 := newValue }.noteChange cfg now else s

/-- An override of the blocking output that is still active. -/
def State.overridden (now : Nat) (s : State) : Bool := decide (now < s.overrideUntil)

/-- An override that is over is reset. -/
def resetOverride (now : Nat) (s : State) : State :=
  if s.overridden now then s else { s with overrideUntil := 0 }

/-- The decision after the minimum hold time. -/
def decideOutputs (cfg : Config) (input : UpdateInput) (s : State) : State :=
  let (wanted0, wanted1) := wantedOutputs cfg input s.fetchedOutput1
  let sgReady1On := if input.p14enwgOn then false else wanted1
  let sgReady0On := if !input.p14enwgOn && wanted0 && wanted1 then false else wanted0
  let s := switchExtended cfg input.timestampMinutes sgReady1On s
  let sgReady0On := sgReady0On && !s.overridden input.timestampMinutes
  let s := resetOverride input.timestampMinutes s
  if input.p14enwgOn then s else switchBlocking cfg input.timestampMinutes sgReady0On s

/-- The rest of an update: the decision, unless the last one is held. -/
def holdOrDecide (cfg : Config) (input : UpdateInput) (s : State) : State :=
  let remaining := remainingHoldingTime cfg input s
  if remaining > 0 then
    if s.nextUpdate = 0 then { s with nextUpdate := input.timestampMinutes + remaining } else s
  else
    let disabled := isDisabled cfg (effectiveHours cfg input)
    let s := { s with enabled := !disabled }
    if !disabled && decide (input.minutesSinceMidnight ≥ 1440) then s
    else decideOutputs cfg input s

/-- `Heating::update`. -/
def update (cfg : Config) (input : UpdateInput) (s : State) : State :=
  let s := checkAutomation input s
  if input.hasSgrAutomation then s
  else if !input.clockSynced then { s with nextUpdate := 0 }
  else if s.startupDelay then s
  else holdOrDecide cfg input (blockByP14enwg cfg input s)

/-- The steps of a run: the periodic update, the commands of the interface, the end of an
override and of the startup delay, and fetching the data of the energy manager. -/
inductive Label where
  | update (input : UpdateInput)
  | resetHoldingTime (input : UpdateInput)
  | overrideUpdate (overrideUntil : Nat) (input : UpdateInput)
  | overrideOver (input : UpdateInput)
  | startupDelayOver (input : UpdateInput)
  | toggleBlocking (p14aEnwg : P14aEnwg) (now : Nat)
  | toggleExtended (p14aEnwg : P14aEnwg) (now : Nat)
  | fetch

def step (cfg : Config) (s : State) : Label → State
  | .update input => update cfg input s
  | .resetHoldingTime input =>
    { update cfg input { s with lastSgReadyChange := 0 } with lastSgReadyChange := 0 }
  | .overrideUpdate overrideUntil input =>
    let s := { s with overrideUntil := overrideUntil, overrideTask := false }
    if overrideUntil ≤ input.timestampMinutes then s
    else { update cfg input { s with lastSgReadyChange := 0 } with overrideTask := true }
  | .overrideOver input => update cfg input { s with overrideUntil := 0, lastSgReadyChange := 0 }
  | .startupDelayOver input => update cfg input { s with startupDelay := false }
  | .toggleBlocking p14aEnwg now =>
    if p14aEnwg.isHeatingActive then s
    else
      let newValue := !s.fetchedOutput0
      { { s with output0 := newValue }.noteChange cfg now with
        sgrBlocking := newValue == cfg.sgrBlockingType.onValue }
  | .toggleExtended p14aEnwg now =>
    if p14aEnwg.isHeatingActive then s
    else
      let newValue := !s.fetchedOutput1
      { { s with output1 := newValue }.noteChange cfg now with
        sgrExtended := newValue == cfg.sgrExtendedType.onValue }
  | .fetch => s.fetch

end Heating

namespace DayAheadPrices

/-- `get_cheap_1h_blocked` and `get_expensive_1h_blocked`. -/
def PriceModule.blockedQuery (m : PriceModule) (findExpensive : Bool) : Heating.PriceQuery :=
  fun startTime duration1h amount1h minBlock15m =>
    let answer := m.getCheapAndExpensive15mBlocked startTime (UInt8.ofNat (duration1h * 4))
      (UInt8.ofNat (amount1h * 4)) (UInt8.ofNat minBlock15m)
      (if findExpensive then none else some Slots.empty)
      (if findExpensive then some Slots.empty else none)
    match answer with
    | some (answer, _) =>
      if answer.success then
        if findExpensive then answer.expensiveHours else answer.cheapHours
      else none
    | none => none

end DayAheadPrices

namespace Heating

open DayAheadPrices (PriceModule)

/-- What the plan reads of the prices. -/
structure PriceList where
  numPrices : Nat
  firstDate : Int
  resolution : Resolution

namespace PriceList

variable (list : PriceList)

def resolutionMinutes : Nat :=
  match list.resolution with
  | .min15 => 15
  | .min60 => 60

def slotsPerHour : Nat :=
  match list.resolution with
  | .min15 => 4
  | .min60 => 1

def priceEnd : Int := list.firstDate + list.numPrices * list.resolutionMinutes

end PriceList

/-- The state `day_ahead_prices/prices`. -/
def priceList (m : PriceModule) : PriceList where
  numPrices := m.prices.prices.length
  firstDate := asInt32 m.prices.firstDate
  resolution := m.prices.resolution

/-- The inputs of an update whose prices are those of the module. -/
def UpdateInput.withPrices (input : UpdateInput) (m : PriceModule) : UpdateInput :=
  { input with
    cheapHours := m.blockedQuery false
    expensiveHours := m.blockedQuery true }

structure Plan where
  count : Nat
  cheap : Slots
  expensive : Slots

namespace Plan

/-- `removeAll` of both arrays. -/
def removed : Plan where
  count := 0
  cheap := Slots.empty
  expensive := Slots.empty

/-- An entry that does not exist is neither cheap nor expensive. -/
def cheapAt (plan : Plan) (k : Nat) : Bool := decide (k < plan.count) && plan.cheap k

def expensiveAt (plan : Plan) (k : Nat) : Bool := decide (k < plan.count) && plan.expensive k

end Plan

/-- The hours that are planned. With a heating curve both channels are active. -/
def planHours (cfg : Config) (todayAvg : Option Int) : Hours :=
  let extended := cfg.extended || cfg.enableHeatingCurve
  let blocking := cfg.blocking || cfg.enableHeatingCurve
  let (extendedHours, blockingHours) :=
    match if cfg.enableHeatingCurve then todayAvg else none with
    | some todayAvg =>
      (interpolate todayAvg cfg.extendedHoursWarm cfg.extendedHoursCold,
        interpolate todayAvg cfg.blockingHoursWarm cfg.blockingHoursCold)
    | none => (cfg.extendedHours, cfg.blockingHours)
  ⟨extended, if !cfg.enableHeatingCurve && !cfg.extended then 0 else extendedHours,
    blocking, if !cfg.enableHeatingCurve && !cfg.blocking then 0 else blockingHours⟩

/-- The starts of the control periods: `for (start = first; start < end; start += step)`. -/
def blockStarts (firstBlockStart priceEnd : Int) (durationMinutes : Nat) : List Int :=
  (List.range ((priceEnd - firstBlockStart + durationMinutes - 1) / durationMinutes).toNat).map
    fun (j : Nat) => firstBlockStart + durationMinutes * j

/-- The value of an entry of the price list from the quarter hours of a control period. -/
def planValue (resolution : Resolution) (data : Slots) (i : Nat) : Bool :=
  match resolution with
  | .min15 => data i
  | .min60 => data (i * 4) || data (i * 4 + 1) || data (i * 4 + 2) || data (i * 4 + 3)

/-- One control period of one of the arrays. Only full control periods with prices are
processed. -/
def fillBlock (list : PriceList) (query : PriceQuery) (active : Bool)
    (duration hours minBlock15m : Nat) (entries : Slots) (blockStart : Int) : Slots :=
  let slotsPerPeriod := duration * list.slotsPerHour
  let blockStartIndex := (blockStart - list.firstDate).tdiv list.resolutionMinutes
  let blockEndIndex := blockStartIndex + slotsPerPeriod
  if blockStartIndex < 0 ∨ blockEndIndex > list.numPrices then
    entries
  else if active then
    match query blockStart duration hours minBlock15m with
    | none => entries
    | some data => fun k =>
      if blockStartIndex ≤ k ∧ k < blockEndIndex then
        planValue list.resolution data (k - blockStartIndex.toNat)
      else entries k
  else entries

/-- `update_plan`. The local time of the first price is given in minutes since midnight. -/
def updatePlan (cfg : Config) (input : UpdateInput) (prices : Option PriceList)
    (firstMinutesSinceMidnight : Nat) : Plan :=
  let hours := planHours cfg input.todayAvg
  match prices with
  | none => .removed
  | some list =>
    if list.numPrices = 0 ∨ (!hours.extended && !hours.blocking) then
      .removed
    else
      let duration := cfg.controlPeriod.duration
      let minBlock15m := (cfg.minHoldTime.toNat + 14) / 15
      let durationMinutes := duration * 60
      let blockOffset := firstMinutesSinceMidnight / durationMinutes * durationMinutes
      let firstBlockStart := list.firstDate - (firstMinutesSinceMidnight - blockOffset)
      (blockStarts firstBlockStart list.priceEnd durationMinutes).foldl
        (fun plan blockStart =>
          { plan with
            cheap := fillBlock list input.cheapHours hours.extended duration
              hours.extendedHours minBlock15m plan.cheap blockStart
            expensive := fillBlock list input.expensiveHours hours.blocking duration
              hours.blockingHours minBlock15m plan.expensive blockStart })
        { count := list.numPrices, cheap := Slots.empty, expensive := Slots.empty }

end Heating

end Esp32Firmware
