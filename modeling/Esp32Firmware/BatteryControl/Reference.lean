import Mathlib.Data.List.Find
import Esp32Firmware.BatteryControl.Rules

/-!
# What the rules mean

An input is known or it is not. A rule matches if each of its conditions asks about nothing or about
a known input for which it holds. The first enabled rule for charging and the first one for
discharging decide on the mode.

## Implementation notes

This is the purpose of the rules, without caches, tasks and numbers that stand for nothing. The
inputs are what their sources have reported last. A forced charge leaves no say to the rules for
discharging, none of which is then the active one.
-/

namespace Esp32Firmware.BatteryControl

/-- The tariff of a quarter of an hour. -/
structure Quarter where
  cheap : Bool
  expensive : Bool
deriving DecidableEq

/-- The known inputs, with the tariffs from a minute on. -/
structure Inputs where
  soc : List (Option Nat)
  price : Option Int
  forecast : Option Int
  fastCharger : Option Bool
  schedule : Option (Int × List Quarter)
  tariff : Option Quarter

namespace Inputs

def initial (slots : Nat) : Inputs := ⟨List.replicate slots none, none, none, none, none, none⟩

/-- The average of the known states of charge, rounded down. -/
def averageSoc (inputs : Inputs) : Option Int :=
  let known := inputs.soc.filterMap id
  if known = [] then none else some (known.sum / known.length : Nat)

end Inputs

/-- A number that stands for no input. -/
def knownCondition (value : Int) : Option Int :=
  if value = unavailableConditionCache then none else some value

def knownSoc (value : Nat) : Option Nat := if value = unavailableSocCache then none else some value

def knownPrice (price : Int) : Option Int :=
  if price = priceUnknown then none else knownCondition price

def knownForecast (localtimeHour : Nat) (whToday whTomorrow : Int) : Option Int :=
  let wh := if localtimeHour < 20 then whToday else whTomorrow
  if wh < 0 then none else some wh

def quarterAt (schedule : Option (Int × List Quarter)) (nowMin : Int) : Option Quarter :=
  match schedule with
  | none => none
  | some (startMin, quarters) =>
    if startMin ≤ 0 || nowMin < startMin then none else quarters[(nowMin - startMin).toNat / 15]?

/-- The tariffs of a day, if there are prices. -/
def TariffUpdate.schedule (tariff : TariffUpdate) : Option (Int × List Quarter) :=
  if tariff.cheapHours.isSome || tariff.expensiveHours.isSome then
    some (tariff.startMin, (List.range (24 * 4)).map fun i =>
      ⟨(tariff.cheapHours.getD fun _ => false) i, (tariff.expensiveHours.getD fun _ => false) i⟩)
  else none

namespace Inputs

def reportSchedule (inputs : Inputs) (schedule : Option (Int × List Quarter)) (nowMin : Int) :
    Inputs :=
  { inputs with schedule := schedule, tariff := quarterAt schedule nowMin }

/-- Without a number of cheap or expensive quarters there is no tariff. -/
def updateTariff (inputs : Inputs) (config : Config) (tariff : TariffUpdate) : Inputs :=
  if config.cheapTariffQuarters = 0 && config.expensiveTariffQuarters = 0 then inputs
  else inputs.reportSchedule tariff.schedule tariff.nowMin

def reportPrice (inputs : Inputs) (currentPrice : Option Int) : Inputs :=
  match currentPrice with
  | some price => { inputs with price := knownPrice price }
  | none => inputs

def reportSync (inputs : Inputs) (config : Config) (lastSync : Option Nat)
    (tariff : TariffUpdate) : Inputs :=
  match lastSync with
  | some lastSync =>
    if lastSync = 0 then inputs.reportSchedule none tariff.nowMin
    else inputs.updateTariff config tariff
  | none => inputs

def step (config : Config) (inputs : Inputs) : Event → Inputs
  | .soc slot value => { inputs with soc := inputs.soc.set slot (knownSoc value) }
  | .fastCharge inC => { inputs with fastCharger := some inC }
  | .hourly localtimeHour tariff whToday whTomorrow =>
    if localtimeHour ≠ 20 then inputs
    else
      { inputs.updateTariff config tariff with
        forecast := knownForecast localtimeHour whToday whTomorrow }
  | .dayAheadPrices currentPrice lastSync tariff =>
    (inputs.reportPrice currentPrice).reportSync config lastSync tariff
  | .quarter nowMin =>
    if config.cheapTariffQuarters = 0 && config.expensiveTariffQuarters = 0 then inputs
    else inputs.reportSchedule inputs.schedule nowMin
  | .solarForecast localtimeHour whToday whTomorrow =>
    { inputs with forecast := knownForecast localtimeHour whToday whTomorrow }
  | .minute => inputs
  | .defaultMode => inputs
  | .runTask _ _ => inputs

end Inputs

/-- A condition on a number. -/
def RuleCondition.compares (cond : RuleCondition) (th : Int) (value : Option Int) : Bool :=
  match cond with
  | .ignore => true
  | .belowOrNo => value.any fun value => value < th
  | .aboveOrYes => value.any fun value => value > th

/-- A condition on an answer. -/
def RuleCondition.asks (cond : RuleCondition) (value : Option Bool) : Bool :=
  match cond with
  | .ignore => true
  | .belowOrNo => value = some false
  | .aboveOrYes => value = some true

def ScheduleRuleCondition.allows (cond : ScheduleRuleCondition) (value : Option Quarter) : Bool :=
  match cond with
  | .ignore => true
  | .cheap => value.any fun quarter => quarter.cheap
  | .notCheap => value.any fun quarter => !quarter.cheap
  | .expensive => value.any fun quarter => quarter.expensive
  | .notExpensive => value.any fun quarter => !quarter.expensive
  | .moderate => value.any fun quarter => !quarter.cheap && !quarter.expensive

/-- The time of day is in a window, which may cross midnight. -/
def RuleConfig.inWindow (rule : RuleConfig) (seconds : Nat) : Bool :=
  if rule.timeStart ≤ rule.timeEnd then
    rule.timeStart * 60 ≤ seconds && seconds < rule.timeEnd * 60
  else seconds < rule.timeEnd * 60 || rule.timeStart * 60 ≤ seconds

/-- All conditions of a rule hold for known inputs. -/
def RuleConfig.holds (rule : RuleConfig) (inputs : Inputs) (clock : Option Nat) : Bool :=
  rule.socCond.compares rule.socTh inputs.averageSoc &&
  rule.priceCond.compares (rule.priceTh * 100) inputs.price &&
  rule.forecastCond.compares (rule.forecastTh * 1000) inputs.forecast &&
  rule.fastChgCond.asks inputs.fastCharger &&
  rule.scheduleCond.allows inputs.tariff &&
  rule.timeCond.asks (clock.map rule.inWindow)

/-- The first enabled rule that matches, with its position in the configuration. -/
def firstMatch (rules : List RuleConfig) (inputs : Inputs) (clock : Option Nat) :
    Option (RuleConfig × Nat) :=
  rules.zipIdx.find? fun entry => entry.1.enabled && entry.1.holds inputs clock

/-- The mode and the rules that lead to it. -/
structure Outcome where
  mode : BatteryMode
  chargeRule : Option Nat
  dischargeRule : Option Nat
deriving DecidableEq

def actionOf (entry : Option (RuleConfig × Nat)) : RuleAction :=
  match entry with
  | none => .normal
  | some (rule, _) => rule.action

/-- The mode for actions that are not forced. -/
def combine (charge discharge : RuleAction) : BatteryMode :=
  match charge, discharge with
  | .normal, .normal => .normal
  | .normal, _ => .blockDischarge
  | _, .normal => .blockCharge
  | _, _ => .block

def Config.reference (config : Config) (inputs : Inputs) (clock : Option Nat) : Outcome :=
  let charge := firstMatch config.rulesCharge inputs clock
  let discharge := firstMatch config.rulesDischarge inputs clock
  if actionOf charge = .force then ⟨.forceCharge, charge.map Prod.snd, none⟩
  else
    ⟨if actionOf discharge = .force then .forceDischarge
      else combine (actionOf charge) (actionOf discharge),
      charge.map Prod.snd, discharge.map Prod.snd⟩

/-- What is published shows an outcome. -/
def Data.Shows (data : Data) (outcome : Outcome) : Prop :=
  data.mode = outcome.mode ∧ data.lastMode = outcome.mode ∧
    data.activeChargeRule = outcome.chargeRule.getD 255 ∧
    data.activeDischargeRule = outcome.dischargeRule.getD 255

/-- An enabled rule reads an input that is different. -/
def Config.Sees (config : Config) (inputs inputs' : Inputs) : Prop :=
  (config.anyEnabled (fun rule => rule.socCond ≠ .ignore) = true ∧ inputs.soc ≠ inputs'.soc) ∨
  (config.anyEnabled (fun rule => rule.priceCond ≠ .ignore) = true ∧
    inputs.price ≠ inputs'.price) ∨
  (config.anyEnabled (fun rule => rule.forecastCond ≠ .ignore) = true ∧
    inputs.forecast ≠ inputs'.forecast) ∨
  (config.anyEnabled (fun rule => rule.fastChgCond ≠ .ignore) = true ∧
    inputs.fastCharger ≠ inputs'.fastCharger) ∨
  (config.anyEnabled (fun rule => rule.scheduleCond ≠ .ignore) = true ∧
    inputs.tariff ≠ inputs'.tariff)

theorem anyEnabled_of_mem {config : Config} {rule : RuleConfig} {p : RuleConfig → Bool}
    (hrule : rule ∈ config.rulesCharge ++ config.rulesDischarge) (henabled : rule.enabled = true)
    (hp : p rule = true) : config.anyEnabled p = true := by
  rw [Config.anyEnabled, List.any_eq_true]
  exact ⟨rule, hrule, by rw [henabled, hp]; rfl⟩

variable {config : Config} {inputs inputs' : Inputs} (h : ¬ config.Sees inputs inputs')
include h

/-- A rule does not notice a difference that no enabled rule reads. -/
theorem holds_congr {rule : RuleConfig} (hrule : rule ∈ config.rulesCharge ++ config.rulesDischarge)
    (henabled : rule.enabled = true) (clock : Option Nat) :
    rule.holds inputs clock = rule.holds inputs' clock := by
  simp only [Config.Sees, not_or, not_and, not_not] at h
  obtain ⟨hsoc, hprice, hforecast, hfast, htariff⟩ := h
  have hcond : ∀ {cond : RuleConfig → RuleCondition} {P : Prop},
      (config.anyEnabled (fun rule => cond rule ≠ .ignore) = true → P) →
      cond rule = .ignore ∨ P := by
    intro cond P himp
    by_cases hignore : cond rule = .ignore
    · exact .inl hignore
    · exact .inr (himp (anyEnabled_of_mem hrule henabled (decide_eq_true hignore)))
  have hsoc : rule.socCond.compares rule.socTh inputs.averageSoc =
      rule.socCond.compares rule.socTh inputs'.averageSoc := by
    obtain hignore | heq := hcond hsoc
    · rw [hignore]
      rfl
    · rw [Inputs.averageSoc, Inputs.averageSoc, heq]
  have hprice : rule.priceCond.compares (rule.priceTh * 100) inputs.price =
      rule.priceCond.compares (rule.priceTh * 100) inputs'.price := by
    obtain hignore | heq := hcond hprice
    · rw [hignore]
      rfl
    · rw [heq]
  have hforecast : rule.forecastCond.compares (rule.forecastTh * 1000) inputs.forecast =
      rule.forecastCond.compares (rule.forecastTh * 1000) inputs'.forecast := by
    obtain hignore | heq := hcond hforecast
    · rw [hignore]
      rfl
    · rw [heq]
  have hfast : rule.fastChgCond.asks inputs.fastCharger =
      rule.fastChgCond.asks inputs'.fastCharger := by
    obtain hignore | heq := hcond hfast
    · rw [hignore]
      rfl
    · rw [heq]
  have htariff : rule.scheduleCond.allows inputs.tariff =
      rule.scheduleCond.allows inputs'.tariff := by
    by_cases hignore : rule.scheduleCond = .ignore
    · rw [hignore]
      rfl
    · rw [htariff (anyEnabled_of_mem hrule henabled (decide_eq_true hignore))]
  rw [RuleConfig.holds, RuleConfig.holds, hsoc, hprice, hforecast, hfast, htariff]

theorem firstMatch_congr {rules : List RuleConfig}
    (hrules : ∀ rule ∈ rules, rule ∈ config.rulesCharge ++ config.rulesDischarge)
    (clock : Option Nat) : firstMatch rules inputs clock = firstMatch rules inputs' clock := by
  rw [firstMatch, firstMatch]
  refine List.find?_congr fun entry hentry => ?_
  cases henabled : entry.1.enabled with
  | false => rfl
  | true =>
    rw [holds_congr h (hrules entry.1 (List.fst_mem_of_mem_zipIdx hentry)) henabled clock]

/-- The outcome only depends on the inputs that an enabled rule reads. -/
theorem reference_congr (clock : Option Nat) :
    config.reference inputs clock = config.reference inputs' clock := by
  rw [Config.reference, Config.reference,
    firstMatch_congr h (fun _ hrule => List.mem_append_left _ hrule) clock,
    firstMatch_congr h (fun _ hrule => List.mem_append_right _ hrule) clock]

end Esp32Firmware.BatteryControl
