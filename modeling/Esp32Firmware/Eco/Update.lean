import Esp32Firmware.DayAheadPrices.SelectSlots

/-!
# The eco controller

Once per minute the controller decides for every charger whether it charges fast or
normally, and draws the chart of the quarter hours in which it plans to charge.

## Implementation notes

A charger is one record: what `get_charger_state` returns for it and the entries of the
controller's own arrays. A chart is the bits of its bytes; their base64 text is left out.
Logging is left out.
-/

namespace Esp32Firmware.Eco

inductive ChargeDecision where
  | normal | fast
  deriving DecidableEq, Repr

inductive Departure where
  | today | tomorrow | daily
  deriving DecidableEq, Repr

/-- The price thresholds of the configuration. -/
structure PriceThresholds where
  chargeBelow : Bool
  chargeBelowThreshold : Int
  blockAbove : Bool
  blockAboveThreshold : Int

structure Config extends PriceThresholds where
  enable : Bool
  parkTime : Bool
  parkTimeDuration : UInt8
  yieldForecast : Bool
  yieldForecastThreshold : UInt16

structure ChargePlan where
  enable : Bool
  departure : Departure
  time : UInt32
  amount : UInt16

/-- What the charge manager reports of a charger, in microseconds. -/
structure ChargerState where
  timeInStateC : Int
  lastPlugIn : Int

structure Charger where
  /-- `get_charger_state`, none for a null pointer. -/
  chargerState : Option ChargerState
  start : UInt32
  amount : UInt32
  chart : List Bool
  chargeDecision : ChargeDecision
  lastCharge15m : UInt32
  lastSeenPlugIn : Int
  lastChargeDecision : ChargeDecision

/-- The clocks, the local time and the forecast, in minutes where not said otherwise. -/
structure Env where
  nowUs : Int
  timestampMinutes : UInt32
  /-- `get_localtime_today_midnight_in_utc`. -/
  todayMidnight : Option UInt32
  /-- `get_localtime_midnight_in_utc` of a time in seconds. -/
  localtimeMidnight : Int → UInt32
  /-- `solar_forecast.get_wh_range`. -/
  whRange : UInt32 → UInt32 → Option UInt32

structure State where
  config : Config
  chargePlan : ChargePlan
  lastSave : UInt32
  chargers : List Charger

/-- `MAX_CHART_SLOTS_15M`. -/
def maxChartSlots15m : Nat := 192

/-- `to<minutes_t>().as<uint32_t>()` of a time in microseconds. -/
def toMinutes (us : Int) : UInt32 := UInt32.ofInt (us.tdiv 60000000)

/-- What `get_end_time_1m` returns: its pairs with first component 1, 2 and 0. -/
inductive EndTime where
  | midnightNotAvailable
  | passed (endTime1m : UInt32)
  | ahead (endTime1m : UInt32)
  deriving DecidableEq

def getEndTime1m (env : Env) (departure : Departure) (time1m : UInt32)
    (saveTime1s : Int) : EndTime :=
  let saveTimeMidnight1m := env.localtimeMidnight saveTime1s
  match env.todayMidnight with
  | none => .midnightNotAvailable
  | some todayMidnight1m =>
    let add1m := (if departure = .today ∨ departure = .daily then 0 else 24 * 60) + time1m
    let endTime1m :=
      if departure = .daily then todayMidnight1m + add1m else saveTimeMidnight1m + add1m
    if env.timestampMinutes ≥ endTime1m then
      match departure with
      | .today => .passed endTime1m
      | .tomorrow => .passed endTime1m
      | .daily => .ahead (endTime1m + 24 * 60)
    else
      .ahead endTime1m

/-- A remaining time in quarter hours, rounded up and limited to the chart. -/
def durationSlots (duration1m : UInt32) : UInt8 :=
  UInt8.ofNat (min ((duration1m + 14) / 15).toNat maxChartSlots15m)

/-- An amount in quarter hours, limited to the chart. -/
def amountSlots (amount15m : UInt32) : UInt8 :=
  UInt8.ofNat (min amount15m.toNat maxChartSlots15m)

def desiredAmount1m (plan : ChargePlan) : UInt32 := plan.amount.toUInt32 * 60

def parkTimeDuration1m (config : Config) : UInt32 := config.parkTimeDuration.toUInt32 * 60

/-- The minutes the default chart plans: until the end of the plan, and at most the park time. -/
def defaultDuration (env : Env) (config : Config) (endTime1m : UInt32) : UInt32 :=
  let durationRemaining1m := endTime1m - env.timestampMinutes
  if config.parkTime then min (parkTimeDuration1m config) durationRemaining1m
  else durationRemaining1m

/-- The chart of the whole charge plan, that of a charger without a car. -/
def defaultChart (env : Env) (prices : DayAheadPrices) (eco : State) (chart : Slots)
    (chartLength : Nat) : Slots × Nat :=
  let currentTime1m := env.timestampMinutes
  let amount1m := desiredAmount1m eco.chargePlan
  match getEndTime1m env eco.chargePlan.departure eco.chargePlan.time
      (currentTime1m.toNat * 60) with
  | .ahead endTime1m =>
    let duration15m := durationSlots (defaultDuration env eco.config endTime1m)
    let amount15m := amountSlots (amount1m / 15)
    ((prices.getCheap15m (asInt32 currentTime1m) duration15m amount15m chart).2, duration15m.toNat)
  | _ => (chart, chartLength)

/-- The chart that `set_chargers_state_chart_data` stores. -/
def chartData (env : Env) (prices : DayAheadPrices) (eco : State) (chartInput : Slots)
    (chartInputLength : Nat) (useDefaultChart : Bool) : List Bool :=
  let startTime := asInt32 env.timestampMinutes
  let chart : Slots := fun k => if k < chartInputLength then chartInput k else false
  let (chart, chartLength) :=
    if useDefaultChart then defaultChart env prices eco chart chartInputLength
    else (chart, chartInputLength)
  let (chart, chartLength) :=
    if eco.config.chargeBelow then
      let (newLength, chart) := prices.addBelow startTime
        (eco.config.chargeBelowThreshold * 1000) chart maxChartSlots15m
      if newLength > 0 then (chart, max newLength.toNat chartLength) else (chart, chartLength)
    else (chart, chartLength)
  let chart :=
    if eco.config.blockAbove then
      (prices.removeAbove startTime (eco.config.blockAboveThreshold * 1000) chart chartLength).2
    else chart
  (List.range (8 * ((chartLength + 7) / 8))).map fun i => decide (i < chartLength) && chart i

/-- The charged amount and the start of a charger, updated before any decision. -/
def updateCharge (env : Env) (c : Charger) : Charger :=
  match c.chargerState with
  | none => { c with start := 0, amount := 0 }
  | some chargerState =>
    if chargerState.lastPlugIn = 0 then
      { c with start := 0, amount := 0 }
    else if chargerState.lastPlugIn ≠ c.lastSeenPlugIn then
      { c with
        amount := toMinutes chargerState.timeInStateC
        lastSeenPlugIn := chargerState.lastPlugIn
        start := env.timestampMinutes - toMinutes (env.nowUs - chargerState.lastPlugIn) - 1 }
    else
      { c with amount := toMinutes chargerState.timeInStateC }

/-- The decision that the current price alone takes for every charger. -/
def priceDecision (config : Config) (currentPrice : Int) : Option ChargeDecision :=
  if config.chargeBelow ∧ currentPrice < config.chargeBelowThreshold * 1000 then
    some .fast
  else if config.blockAbove ∧ currentPrice > config.blockAboveThreshold * 1000 then
    some .normal
  else
    none

/-- The decision of the current price, or else the one given. -/
def Charger.decide (c : Charger) (priceDecision : Option ChargeDecision)
    (decision : ChargeDecision) : Charger :=
  { c with chargeDecision := priceDecision.getD decision }

/-- The PV yield expected until the departure is above the threshold. -/
def yieldForecastAbove (env : Env) (config : Config) (startTime1m endTime1m : UInt32) : Bool :=
  if config.yieldForecast ∧ config.yieldForecastThreshold > 0 then
    match env.whRange startTime1m endTime1m with
    | none => false
    | some whExpected => whExpected / 1000 > config.yieldForecastThreshold.toUInt32
  else
    false

/-- The remaining time after it is limited to the park time of a charger. -/
def limitToParkTime (env : Env) (config : Config) (c : Charger)
    (durationRemaining1m : UInt32) : UInt32 :=
  if config.parkTime then
    min durationRemaining1m
      (parkTimeDuration1m config - (env.timestampMinutes - c.start))
  else
    durationRemaining1m

/-- The decision of a charger that waits for cheap quarter hours, and its memory: within
one quarter hour the first decision stays. -/
def slotDecision (env : Env) (c : Charger) (durationRemaining1m : UInt32)
    (isCheap : Bool) : Charger :=
  let current15m := env.timestampMinutes / 15
  let overwriteDecision := c.lastCharge15m = current15m
  let c := { c with lastCharge15m := current15m }
  if durationRemaining1m = 0 then
    { c with chargeDecision := .normal }
  else if overwriteDecision then
    { c with chargeDecision := c.lastChargeDecision }
  else
    let decision := if isCheap then ChargeDecision.fast else .normal
    { c with chargeDecision := decision, lastChargeDecision := decision }

/-- The variables of `update` that all iterations of its loop share. -/
structure Shared where
  durationRemaining1m : UInt32
  cheapHours : Slots

/-- One iteration of the loop over the chargers. -/
def planCharger (env : Env) (prices : DayAheadPrices) (eco : State)
    (priceDecision : Option ChargeDecision) (endTime1m : UInt32) (shared : Shared)
    (c : Charger) : Charger × Shared :=
  let chart := fun c hours count useDefault =>
    { c with chart := chartData env prices eco hours count useDefault : Charger }
  if c.start = 0 then
    (chart (c.decide priceDecision .normal) Slots.empty 0 true, shared)
  else if desiredAmount1m eco.chargePlan ≤ c.amount then
    (chart (c.decide priceDecision .normal) Slots.empty 0 false, shared)
  else if yieldForecastAbove env eco.config c.start endTime1m then
    (chart (c.decide priceDecision .normal) Slots.empty 0 false, shared)
  else
    let durationRemaining1m := limitToParkTime env eco.config c shared.durationRemaining1m
    let amountRemaining15m := amountSlots (desiredAmount1m eco.chargePlan / 15 - c.amount / 15)
    let durationRemaining15m := durationSlots durationRemaining1m
    let (ret, cheapHours) := prices.getCheap15m (asInt32 env.timestampMinutes)
      durationRemaining15m amountRemaining15m shared.cheapHours
    let c :=
      match priceDecision with
      | some decision => { c with chargeDecision := decision }
      | none => slotDecision env c durationRemaining1m (ret && cheapHours 0)
    (chart c cheapHours durationRemaining15m.toNat false, ⟨durationRemaining1m, cheapHours⟩)

/-- The loop over the chargers. -/
def planChargers (env : Env) (prices : DayAheadPrices) (eco : State)
    (priceDecision : Option ChargeDecision) (endTime1m : UInt32) :
    Shared → List Charger → List Charger
  | _, [] => []
  | shared, c :: rest =>
    let (c', shared') := planCharger env prices eco priceDecision endTime1m shared c
    c' :: planChargers env prices eco priceDecision endTime1m shared' rest

/-- All chargers take the same decision and lose their plan. -/
def withoutPlan (env : Env) (prices : DayAheadPrices) (eco : State)
    (priceDecision : Option ChargeDecision) (c : Charger) : Charger :=
  { c.decide priceDecision .normal with
    chart := chartData env prices eco Slots.empty 0 false }

def endTime1m (env : Env) (eco : State) : EndTime :=
  getEndTime1m env eco.chargePlan.departure eco.chargePlan.time (eco.lastSave * 60).toNat

def update (env : Env) (prices : DayAheadPrices) (eco : State) : State :=
  if ¬ eco.config.enable then
    eco
  else
    let chargers := eco.chargers.map (updateCharge env)
    match prices.currentPrice with
    | none => { eco with chargers := chargers.map (withoutPlan env prices eco none) }
    | some currentPrice =>
      let done := priceDecision eco.config currentPrice
      if eco.chargePlan.enable then
        match endTime1m env eco with
        | .midnightNotAvailable =>
          { eco with chargers := chargers.map (withoutPlan env prices eco done) }
        | .passed _ =>
          { eco with
            chargePlan := { eco.chargePlan with enable := false }
            chargers := chargers.map (withoutPlan env prices eco done) }
        | .ahead endTime1m =>
          { eco with
            chargers := planChargers env prices eco done endTime1m
              ⟨endTime1m - env.timestampMinutes, Slots.empty⟩ chargers }
      else
        { eco with chargers := chargers.map (withoutPlan env prices eco done) }

end Esp32Firmware.Eco
