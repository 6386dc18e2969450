import Esp32Firmware.Library.Run

/-!
# Coordinated EV charging

An Energy Broker writes a charging plan and a table of incentives. The plan says which power the
vehicle should charge with, slot by slot from a start time on. If the broker stops sending
heartbeats, what it wrote becomes invalid.

## Implementation notes

Only the fields of a message that are read are modelled; a field that is not set is `none`. Numbers
of a message are `int`s. What the C library and the durations of the framework do is a parameter.
The time stands still while a message is handled. Traces and the notifications of subscribers are
left out.
-/

namespace Esp32Firmware.Eebus.CoordinatedCharging

/-- What comes from outside: broken down times, powers of floats, and `seconds_t::as<int>`. -/
structure Toolchain where
  Tm : Type
  /-- `strptime` with `%Y-%m-%dT%H:%M:%S` -/
  strptime : String → Option Tm
  /-- Sets `tm_isdst` to 0. -/
  clearIsdst : Tm → Tm
  mktime : Tm → ℤ
  gmtime : ℤ → Tm
  pow : Float32.Model → Float32.Model → Float32.Model
  asInt : ℤ → Int32
  asInt_of_fits : ∀ d : ℤ, 0 ≤ d → d < 2 ^ 31 → (asInt d).toInt = d

structure ScaledNumber where
  number : Option Int32
  scale : Option Int32

structure TimeSeriesSlot where
  duration : Option String := none
  value : Option ScaledNumber := none
  maxValue : Option ScaledNumber := none

structure TimePeriod where
  startTime : Option String := none

structure TimeSeriesData where
  timeSeriesId : Option ℤ := none
  timePeriod : Option TimePeriod := none
  timeSeriesSlot : Option (List TimeSeriesSlot) := none

structure TimeSeriesListData where
  timeSeriesData : Option (List TimeSeriesData) := none

structure AbsoluteOrRecurringTime where
  dateTime : Option String := none

structure TimeTableData where
  startTime : Option AbsoluteOrRecurringTime := none
  endTime : Option AbsoluteOrRecurringTime := none

structure TierBoundaryData where
  lowerBoundaryValue : Option ScaledNumber := none
  upperBoundaryValue : Option ScaledNumber := none

structure IncentiveData where
  value : Option ScaledNumber := none

structure IncentiveTableTier where
  boundary : Option (List TierBoundaryData) := none
  incentive : Option (List IncentiveData) := none

structure IncentiveTableIncentiveSlot where
  timeInterval : Option TimeTableData := none
  tier : Option (List IncentiveTableTier) := none

structure IncentiveTable where
  incentiveSlot : Option (List IncentiveTableIncentiveSlot) := none

structure IncentiveTableData where
  incentiveTable : Option (List IncentiveTable) := none

namespace Toolchain

variable (tool : Toolchain)

/-- The loop of `iso_duration_to_seconds`. -/
def durationSeconds : List Char → Bool → Int32 → Int64 → Int64
  | [], _, _, durationSeconds => durationSeconds
  | c :: rest, inTimePart, accumulated, durationSeconds =>
    if c = 'P' then Toolchain.durationSeconds rest inTimePart accumulated durationSeconds
    else if c = 'T' then Toolchain.durationSeconds rest true 0 durationSeconds
    else if '0' ≤ c ∧ c ≤ '9' then
      Toolchain.durationSeconds rest inTimePart
        (accumulated * 10 + Int32.ofNat (c.toNat - '0'.toNat)) durationSeconds
    else
      let factor : Int32 :=
        if inTimePart then
          if c = 'H' then 3600 else if c = 'M' then 60 else if c = 'S' then 1 else 0
        else if c = 'Y' then 31536000 else if c = 'M' then 2592000
        else if c = 'D' then 86400 else 0
      Toolchain.durationSeconds rest inTimePart 0
        (durationSeconds + (accumulated * factor).toInt64)

/-- `iso_duration_to_seconds` -/
def isoDurationToSeconds (isoDuration : String) : ℤ :=
  (durationSeconds isoDuration.toList false 0 0).toInt

/-- `iso_timestamp_to_unix` -/
def isoTimestampToUnix (isoTimestamp : String) : Option ℤ :=
  (tool.strptime isoTimestamp).map fun tm =>
    let t := tool.mktime (tool.clearIsdst tm)
    let gm := tool.mktime (tool.gmtime t)
    t + (t - gm)

/-- `scaled_numbertype_to_float` -/
def scaledNumbertypeToFloat (number : ScaledNumber) : Float32.Model :=
  let value := Float32.Model.ofInt (number.number.getD 0).toInt
  match number.scale with
  | some scale => value * tool.pow (.ofInt 10) (.ofInt scale.toInt)
  | none => value

/-- `scaled_numbertype_to_int` -/
def scaledNumbertypeToInt (number : ScaledNumber) : Int32 :=
  match number.scale with
  | some _ => (tool.scaledNumbertypeToFloat number).toInt32
  | none => number.number.getD 0

end Toolchain

structure ChargingPlanSlot where
  duration : ℤ
  powerW : Int32
  deriving DecidableEq

structure IncentiveTier where
  lowerBoundaryW : Int32
  upperBoundaryW : Int32
  incentiveValue : Float32.Model
  deriving DecidableEq

structure IncentiveSlotEntry where
  startTime : ℤ
  endTime : ℤ
  tiers : List IncentiveTier
  deriving DecidableEq

def timeSeriesIdPlan : ℤ := 3

def maxTimeSeriesSlots : ℕ := 48

def maxIncentiveSlots : ℕ := 48

/-- What is published under `eebus/usecases`. -/
structure ApiState where
  hasChargingPlan : Bool := false
  chargingPlanStartTime : UInt32 := 0
  targetPowerW : Int32 := -1
  hasIncentives : Bool := false
  energyBrokerConnected : Bool := false
  energyBrokerHeartbeatOk : Bool := false
  deriving DecidableEq

structure CevcUsecase where
  chargingPlanStartTime : ℤ := 0
  receivedChargingPlan : List ChargingPlanSlot := []
  chargingPlanValid : Bool := false
  receivedIncentives : List IncentiveSlotEntry := []
  incentivesValid : Bool := false
  energyBrokerConnected : Bool := false
  energyBrokerHeartbeatOk : Bool := false
  apiState : ApiState := {}
  deriving DecidableEq

inductive ResultErrorNumber where
  | noError
  | commandRejected
  deriving DecidableEq, Repr

namespace CevcUsecase

variable (tool : Toolchain) (now : ℤ) (s : CevcUsecase)

def hasChargingPlan : Bool := !s.receivedChargingPlan.isEmpty && s.chargingPlanValid

def hasIncentives : Bool := !s.receivedIncentives.isEmpty && s.incentivesValid

/-- The loop of `get_target_power_w`. -/
def slotPower (queryTime : ℤ) : ℤ → List ChargingPlanSlot → Int32
  | _, [] => -1
  | slotStart, slot :: rest =>
    let slotEnd := slotStart + (tool.asInt slot.duration).toInt
    if queryTime ≥ slotStart ∧ queryTime < slotEnd then slot.powerW
    else slotPower queryTime slotEnd rest

/-- `get_target_power_w` -/
def getTargetPowerW (queryTime : ℤ) : Int32 :=
  if !s.chargingPlanValid || s.receivedChargingPlan.isEmpty then -1
  else
    let queryTime := if queryTime = 0 then now else queryTime
    slotPower tool queryTime s.chargingPlanStartTime s.receivedChargingPlan

/-- `update_api_state` -/
def updateApiState : CevcUsecase :=
  { s with apiState :=
    { hasChargingPlan := s.hasChargingPlan
      chargingPlanStartTime := UInt32.ofInt s.chargingPlanStartTime
      targetPowerW := s.getTargetPowerW tool now 0
      hasIncentives := s.hasIncentives
      energyBrokerConnected := s.energyBrokerConnected
      energyBrokerHeartbeatOk := s.energyBrokerHeartbeatOk } }

end CevcUsecase

section

variable (tool : Toolchain) (now : ℤ)

/-- A slot of the plan. -/
def TimeSeriesSlot.planSlot (slot : TimeSeriesSlot) : ChargingPlanSlot where
  duration := match slot.duration with
    | some duration => Toolchain.isoDurationToSeconds duration
    | none => 900
  powerW := match slot.value, slot.maxValue with
    | some value, _ => tool.scaledNumbertypeToInt value
    | none, some maxValue => tool.scaledNumbertypeToInt maxValue
    | none, none => 0

/-- The loop over the slots of a plan. -/
def pushSlots : List TimeSeriesSlot → List ChargingPlanSlot → List ChargingPlanSlot
  | [], plan => plan
  | slot :: rest, plan =>
    let plan := plan ++ [slot.planSlot tool]
    if plan.length ≥ maxTimeSeriesSlots then plan else pushSlots rest plan

/-- The start time of a plan, `start` if the one of the message cannot be read. -/
def TimeSeriesData.planStart (ts : TimeSeriesData) (start : ℤ) : ℤ :=
  match ts.timePeriod.bind TimePeriod.startTime with
  | some startTime => (tool.isoTimestampToUnix startTime).getD start
  | none => now

/-- One entry of a plan write; whether the plan was updated is the second component. -/
def acceptTimeSeries (s : CevcUsecase × Bool) (ts : TimeSeriesData) : CevcUsecase × Bool :=
  match ts.timeSeriesId with
  | none => s
  | some tsId =>
    if tsId ≠ timeSeriesIdPlan then s
    else
      let usecase := { s.1 with
        receivedChargingPlan := []
        chargingPlanValid := false
        chargingPlanStartTime := ts.planStart tool now s.1.chargingPlanStartTime }
      let plan := pushSlots tool (ts.timeSeriesSlot.getD []) usecase.receivedChargingPlan
      let usecase := { usecase with receivedChargingPlan := plan }
      if plan.isEmpty then (usecase, s.2)
      else ({ usecase with chargingPlanValid := true }, true)

/-- `write_time_series_list` -/
def writeTimeSeriesList (s : CevcUsecase) (data : Option TimeSeriesListData) :
    CevcUsecase × ResultErrorNumber :=
  match data.bind TimeSeriesListData.timeSeriesData with
  | none => (s, .commandRejected)
  | some timeSeries =>
    let (s, planUpdated) := timeSeries.foldl (acceptTimeSeries tool now) (s, false)
    if planUpdated then (s.updateApiState tool now, .noError)
    else (s, .commandRejected)

/-- A tier of an incentive slot. -/
def IncentiveTableTier.toTier (tier : IncentiveTableTier) : IncentiveTier :=
  let boundary := tier.boundary.bind List.head?
  let incentive := tier.incentive.bind List.head?
  { lowerBoundaryW := ((boundary.bind TierBoundaryData.lowerBoundaryValue).map
      tool.scaledNumbertypeToInt).getD 0
    upperBoundaryW := ((boundary.bind TierBoundaryData.upperBoundaryValue).map
      tool.scaledNumbertypeToInt).getD 0
    incentiveValue := ((incentive.bind IncentiveData.value).map
      tool.scaledNumbertypeToFloat).getD (.ofInt 0) }

/-- A time of an interval, 0 if there is none that can be read. -/
def intervalTime (time : Option AbsoluteOrRecurringTime) : ℤ :=
  ((time.bind AbsoluteOrRecurringTime.dateTime).bind tool.isoTimestampToUnix).getD 0

/-- An incentive slot. -/
def IncentiveTableIncentiveSlot.entry (slot : IncentiveTableIncentiveSlot) : IncentiveSlotEntry where
  startTime := intervalTime tool (slot.timeInterval.bind TimeTableData.startTime)
  endTime := intervalTime tool (slot.timeInterval.bind TimeTableData.endTime)
  tiers := (slot.tier.getD []).map (IncentiveTableTier.toTier tool)

/-- Updates the first incentive slot with the interval of an entry, if there is one. -/
def updateExisting (entry : IncentiveSlotEntry) :
    List IncentiveSlotEntry → Option (List IncentiveSlotEntry)
  | [] => none
  | existing :: rest =>
    if existing.startTime = entry.startTime ∧ existing.endTime = entry.endTime then
      some ({ existing with tiers := entry.tiers } :: rest)
    else (updateExisting entry rest).map (existing :: ·)

/-- The store of one incentive slot. -/
def storeIncentive (incentives : List IncentiveSlotEntry) (entry : IncentiveSlotEntry) :
    List IncentiveSlotEntry :=
  match updateExisting entry incentives with
  | some incentives => incentives
  | none => if incentives.length < maxIncentiveSlots then incentives ++ [entry] else incentives

/-- `write_incentive_table_data` -/
def writeIncentiveTableData (s : CevcUsecase) (data : Option IncentiveTableData) :
    CevcUsecase × ResultErrorNumber :=
  match data.bind IncentiveTableData.incentiveTable with
  | none => (s, .commandRejected)
  | some tables =>
    let incentives := tables.foldl (fun incentives table =>
      (table.incentiveSlot.getD []).foldl (fun incentives slot =>
        storeIncentive incentives (slot.entry tool)) incentives) s.receivedIncentives
    let s := { s with receivedIncentives := incentives }
    if incentives.isEmpty then (s, .commandRejected)
    else (({ s with incentivesValid := true } : CevcUsecase).updateApiState tool now, .noError)

/-- `invalidate_broker_data` -/
def invalidateBrokerData (s : CevcUsecase) : CevcUsecase :=
  let s := if s.chargingPlanValid then
      { s with chargingPlanValid := false, receivedChargingPlan := [], chargingPlanStartTime := 0 }
    else s
  let s := if s.incentivesValid then
      { s with incentivesValid := false, receivedIncentives := [] }
    else s
  s.updateApiState tool now

/-- `receive_heartbeat_timeout` -/
def receiveHeartbeatTimeout (s : CevcUsecase) : CevcUsecase :=
  invalidateBrokerData tool now { s with energyBrokerHeartbeatOk := false }

/-- What `inform_spineconnection_usecase_update` does when it finds an Energy Broker. -/
def brokerFound (s : CevcUsecase) : CevcUsecase :=
  { s with energyBrokerConnected := true, energyBrokerHeartbeatOk := true }

end

/-- What happens to the use case. -/
inductive Event where
  | writeTimeSeriesList (data : Option TimeSeriesListData)
  | writeIncentiveTableData (data : Option IncentiveTableData)
  | heartbeatTimeout
  | brokerFound

/-- An event at some time; a write is answered. -/
def step (tool : Toolchain) (now : ℤ) (s : CevcUsecase) :
    Event → CevcUsecase × Option ResultErrorNumber
  | .writeTimeSeriesList data =>
    let (s, answer) := writeTimeSeriesList tool now s data
    (s, some answer)
  | .writeIncentiveTableData data =>
    let (s, answer) := writeIncentiveTableData tool now s data
    (s, some answer)
  | .heartbeatTimeout => (receiveHeartbeatTimeout tool now s, none)
  | .brokerFound => (CoordinatedCharging.brokerFound s, none)

/-- The use case after an event with its time. -/
def advance (tool : Toolchain) (s : CevcUsecase) (e : ℤ × Event) : CevcUsecase :=
  (step tool e.1 s e.2).1

/-- A C library for tests, which knows one timestamp. -/
def utcToolchain : Toolchain where
  Tm := ℤ
  strptime timestamp := if timestamp = "1970-01-02T00:00:00Z" then some 86400 else none
  clearIsdst tm := tm
  mktime tm := tm
  gmtime t := t
  pow base _ := base
  asInt := Int32.ofInt
  asInt_of_fits d hnonneg hfits := Int32.toInt_ofInt_of_le (by omega) hfits

end Esp32Firmware.Eebus.CoordinatedCharging
