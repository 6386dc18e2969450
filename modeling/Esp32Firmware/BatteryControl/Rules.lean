import Mathlib.Data.Int.Init
import Mathlib.Data.List.Basic
import Mathlib.Algebra.Group.Int.Defs
import Mathlib.Algebra.GroupWithZero.Nat

/-!
# Rules of the battery control

The inputs of the rules are cached as their sources report them, each with a number of its own that
says that the input is unknown. A change queues an evaluation of all rules, which sets the mode of
the batteries.

## Implementation notes

A reading of a battery meter is the state of charge as it is cached, in whole percent. The times
of the clock and what the day-ahead prices say about quarters are data of the events.
-/

namespace Esp32Firmware.BatteryControl

inductive RuleCondition where
  | ignore
  | belowOrNo
  | aboveOrYes
deriving DecidableEq, Repr

inductive ScheduleRuleCondition where
  | ignore
  | cheap
  | notCheap
  | expensive
  | notExpensive
  | moderate
deriving DecidableEq, Repr

inductive RuleAction where
  | normal
  | block
  | force
deriving DecidableEq, Repr

inductive BatteryMode where
  | none
  | block
  | normal
  | blockDischarge
  | forceCharge
  | blockCharge
  | forceDischarge
deriving DecidableEq, Repr

inductive TristateBool where
  | false
  | true
  | undefined
deriving DecidableEq, Repr

/-- `rule_prototype` -/
structure RuleConfig where
  enabled : Bool
  socCond : RuleCondition
  socTh : Nat
  priceCond : RuleCondition
  priceTh : Int
  forecastCond : RuleCondition
  forecastTh : Nat
  scheduleCond : ScheduleRuleCondition
  timeCond : RuleCondition
  timeStart : Nat
  timeEnd : Nat
  fastChgCond : RuleCondition
  action : RuleAction

structure Config where
  cheapTariffQuarters : Nat
  expensiveTariffQuarters : Nat
  rulesCharge : List RuleConfig
  rulesDischarge : List RuleConfig
  charge_lt : rulesCharge.length < 256
  discharge_lt : rulesDischarge.length < 256

structure ControlRule where
  timeStartS : Int
  timeEndS : Int
  priceTh : Int
  forecastTh : Int
  socTh : Int
  socCond : RuleCondition
  priceCond : RuleCondition
  forecastCond : RuleCondition
  scheduleCond : ScheduleRuleCondition
  timeCond : RuleCondition
  fastChgCond : RuleCondition
  action : RuleAction
  index : Nat

def unavailableConditionCache : Int := -2147483648

def unavailableSocCache : Nat := 255

def unavailableTariffScheduleCache : Nat := 255

/-- The price of a state without one. -/
def priceUnknown : Int := 2147483647

/-- `battery_control_data`, the state that is published and the tasks of the scheduler. -/
structure Data where
  rules : List ControlRule := []
  chargeRulesCount : Nat := 0
  dischargeRulesCount : Nat := 0
  evaluationTaskId : Nat := 0
  evaluationMustUpdateSoc : Bool := false
  evaluationMustCheckRules : Bool := false
  haveSocRule : Bool := false
  havePriceRule : Bool := false
  haveSolarForecastRule : Bool := false
  haveTariffScheduleRule : Bool := false
  haveTimeRule : Bool := false
  haveFastChgRule : Bool := false
  socCacheAvg : Int := unavailableConditionCache
  priceCache : Int := unavailableConditionCache
  forecastCache : Int := unavailableConditionCache
  socCache : List Nat := []
  fastChargerInCCache : TristateBool := .undefined
  tariffScheduleStartMin : Int := 0
  tariffSchedule : List Nat := List.replicate (24 * 4) 0
  tariffScheduleCache : Nat := unavailableTariffScheduleCache
  lastMode : BatteryMode := .none
  mode : BatteryMode := .none
  activeChargeRule : Nat := 255
  activeDischargeRule : Nat := 255
  tasks : List Nat := []
  lastTaskId : Nat := 0

/-- What `update_tariff_schedule` reads: the local 20 o'clock at or before now, now, and the cheap
and the expensive quarters from then on, if there are prices. -/
structure TariffUpdate where
  startMin : Int
  nowMin : Int
  cheapHours : Option (Nat → Bool)
  expensiveHours : Option (Nat → Bool)

/-- What is reported. Members of the state of the day-ahead prices are there if they were
updated. -/
inductive Event where
  | soc (slot : Nat) (value : Nat)
  | fastCharge (inC : Bool)
  | hourly (localtimeHour : Nat) (tariff : TariffUpdate) (whToday whTomorrow : Int)
  | dayAheadPrices (currentPrice : Option Int) (lastSync : Option Nat) (tariff : TariffUpdate)
  | quarter (nowMin : Int)
  | solarForecast (localtimeHour : Nat) (whToday whTomorrow : Int)
  | minute
  | defaultMode
  | runTask (taskId : Nat) (clock : Option Nat)

/-- An entry of the configuration with its position, in the units of the inputs. -/
def controlRule (entry : RuleConfig × Nat) : ControlRule where
  timeStartS := entry.1.timeStart * 60
  timeEndS := entry.1.timeEnd * 60
  priceTh := entry.1.priceTh * 100
  forecastTh := entry.1.forecastTh * 1000
  socTh := entry.1.socTh
  socCond := entry.1.socCond
  priceCond := entry.1.priceCond
  forecastCond := entry.1.forecastCond
  scheduleCond := entry.1.scheduleCond
  timeCond := entry.1.timeCond
  fastChgCond := entry.1.fastChgCond
  action := entry.1.action
  index := entry.2 % 256

/-- The rules that are enabled, with their positions in the configuration. -/
def preprocessRules (rulesConfig : List RuleConfig) : List ControlRule :=
  (rulesConfig.zipIdx.filter fun entry => entry.1.enabled).map controlRule

def countEnabledRules (rulesConfig : List RuleConfig) : Nat :=
  rulesConfig.countP fun rule => rule.enabled

/-- An enabled rule of either kind has a property. -/
def Config.anyEnabled (config : Config) (p : RuleConfig → Bool) : Bool :=
  (config.rulesCharge ++ config.rulesDischarge).any fun rule => rule.enabled && p rule

def setup (config : Config) (slots : Nat) : Data :=
  { socCache := List.replicate slots unavailableSocCache
    rules := preprocessRules config.rulesCharge ++ preprocessRules config.rulesDischarge
    chargeRulesCount := countEnabledRules config.rulesCharge % 256
    dischargeRulesCount := countEnabledRules config.rulesDischarge % 256
    haveSocRule := config.anyEnabled fun rule => rule.socCond ≠ .ignore
    havePriceRule := config.anyEnabled fun rule => rule.priceCond ≠ .ignore
    haveSolarForecastRule := config.anyEnabled fun rule => rule.forecastCond ≠ .ignore
    haveTariffScheduleRule := config.anyEnabled fun rule => rule.scheduleCond ≠ .ignore
    haveTimeRule := config.anyEnabled fun rule => rule.timeCond ≠ .ignore
    haveFastChgRule := config.anyEnabled fun rule => rule.fastChgCond ≠ .ignore }

def ruleConditionFailed (cond : RuleCondition) (th value : Int) : Bool :=
  match cond with
  | .ignore => false
  | .belowOrNo => if value = unavailableConditionCache then true else !decide (value < th)
  | .aboveOrYes => if value = unavailableConditionCache then true else !decide (value > th)

def tristateRuleConditionFailed (cond : RuleCondition) (value : TristateBool) : Bool :=
  match cond with
  | .ignore => false
  | .belowOrNo => if value = .undefined then true else value ≠ .false
  | .aboveOrYes => if value = .undefined then true else value ≠ .true

def cheapMask : Nat := 1

def expensiveMask : Nat := 2

def scheduleRuleConditionFailed (cond : ScheduleRuleCondition) (value : Nat) : Bool :=
  if cond = .ignore then false
  else if value = unavailableTariffScheduleCache then true
  else
    match cond with
    | .ignore => false
    | .cheap => value &&& cheapMask = 0
    | .notCheap => value &&& cheapMask ≠ 0
    | .expensive => value &&& expensiveMask = 0
    | .notExpensive => value &&& expensiveMask ≠ 0
    | .moderate => value ≠ 0

def insideTimeWindow (timeStartS timeEndS timeSinceMidnightS : Int) : Bool :=
  if timeStartS ≤ timeEndS then
    timeStartS ≤ timeSinceMidnightS && timeSinceMidnightS < timeEndS
  else timeSinceMidnightS < timeEndS || timeStartS ≤ timeSinceMidnightS

def timeRuleConditionFailed (cond : RuleCondition) (timeStartS timeEndS timeSinceMidnightS : Int) :
    Bool :=
  if cond = .ignore then false
  else if timeSinceMidnightS < 0 then true
  else if cond = .belowOrNo then insideTimeWindow timeStartS timeEndS timeSinceMidnightS
  else !insideTimeWindow timeStartS timeEndS timeSinceMidnightS

namespace Data

/-- Whether all conditions of a rule hold for what is cached. -/
def matchesRule (data : Data) (timeSinceMidnightS : Int) (rule : ControlRule) : Bool :=
  !ruleConditionFailed rule.socCond rule.socTh data.socCacheAvg &&
  !ruleConditionFailed rule.priceCond rule.priceTh data.priceCache &&
  !ruleConditionFailed rule.forecastCond rule.forecastTh data.forecastCache &&
  !tristateRuleConditionFailed rule.fastChgCond data.fastChargerInCCache &&
  !scheduleRuleConditionFailed rule.scheduleCond data.tariffScheduleCache &&
  !timeRuleConditionFailed rule.timeCond rule.timeStartS rule.timeEndS timeSinceMidnightS

/-- The action of the first rule that matches and its index; no rule leaves the index alone. -/
def evaluateRules (data : Data) (timeSinceMidnightS : Int) :
    List ControlRule → RuleAction × Nat
  | [] => (.normal, 255)
  | rule :: rest =>
    if data.matchesRule timeSinceMidnightS rule then (rule.action, rule.index)
    else data.evaluateRules timeSinceMidnightS rest

def setMode (data : Data) (newMode : BatteryMode) : Data :=
  if newMode = data.lastMode then data else { data with lastMode := newMode, mode := newMode }

/-- The local time in seconds since midnight, if the clock is synchronised. -/
def timeSinceMidnight (data : Data) (clock : Option Nat) : Int :=
  if data.haveTimeRule then
    match clock with
    | some seconds => seconds
    | none => -1
  else -1

def evaluateAllRules (data : Data) (clock : Option Nat) : Data :=
  let timeSinceMidnightS := data.timeSinceMidnight clock
  let charge := data.evaluateRules timeSinceMidnightS (data.rules.take data.chargeRulesCount)
  let discharge := data.evaluateRules timeSinceMidnightS
    ((data.rules.drop data.chargeRulesCount).take data.dischargeRulesCount)
  if charge.1 = .force then
    { data with activeChargeRule := charge.2, activeDischargeRule := 255 }.setMode .forceCharge
  else
    let newMode : BatteryMode :=
      if discharge.1 = .force then .forceDischarge
      else if charge.1 = .normal then
        if discharge.1 = .normal then .normal else .blockDischarge
      else if discharge.1 = .normal then .blockCharge
      else .block
    { data with activeChargeRule := charge.2, activeDischargeRule := discharge.2 }.setMode newMode

def updateAvgSoc (data : Data) : Data :=
  let known := data.socCache.filter fun soc => soc ≠ unavailableSocCache
  { data with socCacheAvg :=
      if known.length = 0 then unavailableConditionCache
      else if known.length = 1 then known.sum
      else known.sum / known.length }

def scheduleEvaluation (data : Data) : Data :=
  if data.evaluationTaskId ≠ 0 then data
  else
    { data with
      evaluationTaskId := data.lastTaskId + 1
      lastTaskId := data.lastTaskId + 1
      tasks := data.tasks ++ [data.lastTaskId + 1] }

/-- The rules have to be checked because an input has changed. -/
def requestEvaluation (data : Data) : Data :=
  { data with evaluationMustCheckRules := true }.scheduleEvaluation

/-- The function of the task that `schedule_evaluation` queues. -/
def evaluate (data : Data) (clock : Option Nat) : Data :=
  let data := { data with evaluationTaskId := 0 }
  if data.evaluationMustCheckRules then
    let data := { data with evaluationMustCheckRules := false }
    let data := if data.evaluationMustUpdateSoc then
        { data with evaluationMustUpdateSoc := false }.updateAvgSoc
      else data
    data.evaluateAllRules clock
  else data

/-- The quarter of an hour that it is, or the number for a tariff that is not available. -/
def quarterNow (data : Data) (nowMin : Int) : Nat :=
  if data.tariffScheduleStartMin ≤ 0 then unavailableTariffScheduleCache
  else if nowMin < data.tariffScheduleStartMin then unavailableTariffScheduleCache
  else data.tariffSchedule.getD ((nowMin - data.tariffScheduleStartMin).toNat / 15)
    unavailableTariffScheduleCache

def evaluateTariffSchedule (data : Data) (nowMin : Int) : Data :=
  if data.tariffScheduleCache ≠ data.quarterNow nowMin then
    { data with tariffScheduleCache := data.quarterNow nowMin }.requestEvaluation
  else data

def updateTariffSchedule (data : Data) (config : Config) (tariff : TariffUpdate) : Data :=
  if config.cheapTariffQuarters = 0 && config.expensiveTariffQuarters = 0 then data
  else
    let data := { data with tariffScheduleStartMin := tariff.startMin }
    let data :=
      if tariff.cheapHours.isSome || tariff.expensiveHours.isSome then
        { data with tariffSchedule := (List.range (24 * 4)).map fun i =>
            ((tariff.cheapHours.getD fun _ => false) i).toNat <<< 0 |||
              ((tariff.expensiveHours.getD fun _ => false) i).toNat <<< 1 }
      else
        { data with
          tariffScheduleStartMin := 0
          tariffSchedule := List.replicate (24 * 4) 0 }
    data.evaluateTariffSchedule tariff.nowMin

def updateSolarForecast (data : Data) (localtimeHour : Nat) (whToday whTomorrow : Int) : Data :=
  let whForecast := if localtimeHour < 20 then whToday else whTomorrow
  let whForecast := if whForecast < 0 then unavailableConditionCache else whForecast
  if data.forecastCache = whForecast then data
  else { data with forecastCache := whForecast }.requestEvaluation

/-- The first half of the callback for the state of the day-ahead prices. -/
def updatePrice (data : Data) (currentPrice : Option Int) : Data :=
  match currentPrice with
  | some price =>
    if data.havePriceRule then
      { data with priceCache :=
        if price = priceUnknown then unavailableConditionCache else price }.requestEvaluation
    else data
  | none => data

/-- The second half, for the prices of the next day. -/
def updateSync (data : Data) (config : Config) (lastSync : Option Nat) (tariff : TariffUpdate) :
    Data :=
  match lastSync with
  | some lastSync =>
    if data.haveTariffScheduleRule then
      if lastSync = 0 then
        { data with tariffScheduleStartMin := 0 }.evaluateTariffSchedule tariff.nowMin
      else data.updateTariffSchedule config tariff
    else data
  | none => data

/-- What is registered by `register_events` for the rules that there are. -/
def step (config : Config) (data : Data) : Event → Data
  | .soc slot value =>
    if data.haveSocRule then
      { data with
        socCache := data.socCache.set slot value
        evaluationMustUpdateSoc := true }.requestEvaluation
    else data
  | .fastCharge inC =>
    if data.haveFastChgRule then
      let inC : TristateBool := if inC then .true else .false
      if inC ≠ data.fastChargerInCCache then
        { data with fastChargerInCCache := inC }.requestEvaluation
      else data
    else data
  | .hourly localtimeHour tariff whToday whTomorrow =>
    if localtimeHour ≠ 20 then data
    else
      let data :=
        if data.haveTariffScheduleRule then data.updateTariffSchedule config tariff else data
      if data.haveSolarForecastRule then
        data.updateSolarForecast localtimeHour whToday whTomorrow
      else data
  | .dayAheadPrices currentPrice lastSync tariff =>
    (data.updatePrice currentPrice).updateSync config lastSync tariff
  | .quarter nowMin =>
    if data.haveTariffScheduleRule &&
        (config.cheapTariffQuarters ≠ 0 || config.expensiveTariffQuarters ≠ 0) then
      data.evaluateTariffSchedule nowMin
    else data
  | .solarForecast localtimeHour whToday whTomorrow =>
    if data.haveSolarForecastRule then
      data.updateSolarForecast localtimeHour whToday whTomorrow
    else data
  | .minute => if data.haveTimeRule then data.requestEvaluation else data
  | .defaultMode => if data.lastMode = .none then data.setMode .normal else data
  | .runTask taskId clock =>
    if taskId ∈ data.tasks then
      { data with tasks := data.tasks.erase taskId }.evaluate clock
    else data

end Data

end Esp32Firmware.BatteryControl
