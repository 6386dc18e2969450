import Esp32Firmware.Library.Run
import Esp32Firmware.BatteryControl.Reference

/-!
# The evaluation of the rules

What is cached for the rules stands for the inputs, and an evaluation that is queued is due to a
change of them. When it has run, the mode is the one that the rules mean.
-/

namespace Esp32Firmware.BatteryControl

def quarterNumber (quarter : Quarter) : Nat :=
  quarter.cheap.toNat <<< 0 ||| quarter.expensive.toNat <<< 1

def tariffNumber (tariff : Option Quarter) : Nat :=
  match tariff with
  | none => unavailableTariffScheduleCache
  | some quarter => quarterNumber quarter

def tristate (answer : Option Bool) : TristateBool :=
  match answer with
  | none => .undefined
  | some false => .false
  | some true => .true

theorem tariffNumber_inj {tariff tariff' : Option Quarter}
    (h : tariffNumber tariff = tariffNumber tariff') : tariff = tariff' := by
  revert tariff tariff'
  have hcases : ∀ tariff : Option Quarter, tariff = none ∨ ∃ cheap expensive : Bool,
      tariff = some ⟨cheap, expensive⟩ := by
    intro tariff
    cases tariff with
    | none => exact .inl rfl
    | some quarter => exact .inr ⟨quarter.cheap, quarter.expensive, rfl⟩
  intro tariff tariff' h
  obtain rfl | ⟨cheap, expensive, rfl⟩ := hcases tariff <;>
    obtain rfl | ⟨cheap', expensive', rfl⟩ := hcases tariff'
  · rfl
  · revert cheap' expensive'
    decide
  · revert cheap expensive
    decide
  · revert cheap expensive cheap' expensive'
    decide

theorem tristate_inj {answer answer' : Option Bool} (h : tristate answer = tristate answer') :
    answer = answer' := by
  obtain _ | _ | _ := answer <;> obtain _ | _ | _ := answer' <;> first | rfl | cases h

theorem ruleConditionFailed_eq (cond : RuleCondition) (th value : Int) :
    ruleConditionFailed cond th value = !cond.compares th (knownCondition value) := by
  by_cases hunknown : value = unavailableConditionCache
  · cases cond <;> simp [ruleConditionFailed, RuleCondition.compares, knownCondition, hunknown]
  · cases cond <;> simp [ruleConditionFailed, RuleCondition.compares, knownCondition, hunknown]

theorem tristateRuleConditionFailed_eq (cond : RuleCondition) (answer : Option Bool) :
    tristateRuleConditionFailed cond (tristate answer) = !cond.asks answer := by
  cases cond <;> obtain _ | _ | _ := answer <;> rfl

theorem scheduleRuleConditionFailed_eq (cond : ScheduleRuleCondition) (tariff : Option Quarter) :
    scheduleRuleConditionFailed cond (tariffNumber tariff) = !cond.allows tariff := by
  obtain _ | ⟨cheap, expensive⟩ := tariff
  · cases cond <;> rfl
  · cases cond <;> cases cheap <;> cases expensive <;> rfl

/-- The clock as the evaluation sees it. -/
def secondsOf (clock : Option Nat) : Int :=
  match clock with
  | some seconds => seconds
  | none => -1

theorem insideTimeWindow_eq (rule : RuleConfig) (seconds : Nat) :
    insideTimeWindow (rule.timeStart * 60) (rule.timeEnd * 60) seconds = rule.inWindow seconds := by
  rw [insideTimeWindow, RuleConfig.inWindow]
  by_cases hle : rule.timeStart ≤ rule.timeEnd
  · rw [if_pos hle, if_pos (by omega)]
    congr 1 <;> exact decide_eq_decide.mpr (by omega)
  · rw [if_neg hle, if_neg (by omega)]
    congr 1 <;> exact decide_eq_decide.mpr (by omega)

theorem timeRuleConditionFailed_eq (rule : RuleConfig) (clock : Option Nat) :
    timeRuleConditionFailed rule.timeCond (rule.timeStart * 60) (rule.timeEnd * 60)
      (secondsOf clock) = !rule.timeCond.asks (clock.map rule.inWindow) := by
  cases clock with
  | none => cases hcond : rule.timeCond <;> rfl
  | some seconds =>
    have hpos : ¬ (seconds : Int) < 0 := by omega
    simp only [timeRuleConditionFailed, secondsOf, insideTimeWindow_eq, if_neg hpos,
      Option.map_some]
    cases rule.timeCond <;> cases rule.inWindow seconds <;> rfl

/-- The numbers that are cached for the schedule of the tariff. -/
def CachesSchedule (data : Data) (schedule : Option (Int × List Quarter)) : Prop :=
  match schedule with
  | none => data.tariffScheduleStartMin ≤ 0
  | some (startMin, quarters) =>
    data.tariffScheduleStartMin = startMin ∧ data.tariffSchedule = quarters.map quarterNumber

/-- The caches of the inputs that an enabled rule reads. -/
structure Caches (config : Config) (data : Data) (inputs : Inputs) : Prop where
  soc : data.haveSocRule = true → data.socCache.map knownSoc = inputs.soc
  average : data.haveSocRule = true → data.evaluationMustUpdateSoc = false →
    knownCondition data.socCacheAvg = inputs.averageSoc
  price : data.havePriceRule = true → knownCondition data.priceCache = inputs.price
  forecast : data.haveSolarForecastRule = true → knownCondition data.forecastCache = inputs.forecast
  fastCharger : data.haveFastChgRule = true → data.fastChargerInCCache = tristate inputs.fastCharger
  schedule : data.haveTariffScheduleRule = true → CachesSchedule data inputs.schedule
  tariff : data.haveTariffScheduleRule = true →
    data.tariffScheduleCache = tariffNumber inputs.tariff

/-- What `setup` takes from the configuration. -/
structure Program where
  rules : List ControlRule
  chargeRulesCount : Nat
  dischargeRulesCount : Nat
  haveSocRule : Bool
  havePriceRule : Bool
  haveSolarForecastRule : Bool
  haveTariffScheduleRule : Bool
  haveTimeRule : Bool
  haveFastChgRule : Bool

def Data.program (data : Data) : Program where
  rules := data.rules
  chargeRulesCount := data.chargeRulesCount
  dischargeRulesCount := data.dischargeRulesCount
  haveSocRule := data.haveSocRule
  havePriceRule := data.havePriceRule
  haveSolarForecastRule := data.haveSolarForecastRule
  haveTariffScheduleRule := data.haveTariffScheduleRule
  haveTimeRule := data.haveTimeRule
  haveFastChgRule := data.haveFastChgRule

/-- The rules are the enabled ones of the configuration. -/
structure Configured (config : Config) (data : Data) : Prop where
  program : data.program = (setup config 0).program

namespace Configured

variable {config : Config} {data : Data} (h : Configured config data)
include h

theorem rules :
    data.rules = preprocessRules config.rulesCharge ++ preprocessRules config.rulesDischarge :=
  congrArg Program.rules h.program

theorem charge : data.chargeRulesCount = countEnabledRules config.rulesCharge % 256 :=
  congrArg Program.chargeRulesCount h.program

theorem discharge : data.dischargeRulesCount = countEnabledRules config.rulesDischarge % 256 :=
  congrArg Program.dischargeRulesCount h.program

theorem soc : data.haveSocRule = config.anyEnabled fun rule => rule.socCond ≠ .ignore :=
  congrArg Program.haveSocRule h.program

theorem price : data.havePriceRule = config.anyEnabled fun rule => rule.priceCond ≠ .ignore :=
  congrArg Program.havePriceRule h.program

theorem forecast :
    data.haveSolarForecastRule = config.anyEnabled fun rule => rule.forecastCond ≠ .ignore :=
  congrArg Program.haveSolarForecastRule h.program

theorem tariff :
    data.haveTariffScheduleRule = config.anyEnabled fun rule => rule.scheduleCond ≠ .ignore :=
  congrArg Program.haveTariffScheduleRule h.program

theorem time : data.haveTimeRule = config.anyEnabled fun rule => rule.timeCond ≠ .ignore :=
  congrArg Program.haveTimeRule h.program

theorem fastCharger :
    data.haveFastChgRule = config.anyEnabled fun rule => rule.fastChgCond ≠ .ignore :=
  congrArg Program.haveFastChgRule h.program

end Configured

/-- One task evaluates all changes, and its flag is set. -/
structure Queue (data : Data) : Prop where
  tasks : data.tasks = if data.evaluationTaskId = 0 then [] else [data.evaluationTaskId]
  check : data.evaluationTaskId ≠ 0 → data.evaluationMustCheckRules = true
  update : data.evaluationMustUpdateSoc = true → data.evaluationTaskId ≠ 0

theorem knownCondition_average (known : List Nat) :
    knownCondition (if known.length = 0 then unavailableConditionCache
      else if known.length = 1 then known.sum else known.sum / known.length) =
      if known = [] then none else some ((known.sum / known.length : Nat) : Int) := by
  cases known with
  | nil => rfl
  | cons soc rest =>
    have haverage : (if (soc :: rest).length = 1 then ((soc :: rest).sum : Int)
        else (soc :: rest).sum / (soc :: rest).length) =
        ((soc :: rest).sum / (soc :: rest).length : Nat) := by
      split
      · next hone => rw [hone, Nat.div_one]
      · exact (Int.natCast_ediv _ _).symm
    have hne : ∀ n : Nat, (n : Int) ≠ unavailableConditionCache := by
      intro n
      rw [unavailableConditionCache]
      omega
    rw [if_neg (List.length_cons ▸ Nat.succ_ne_zero rest.length), haverage, knownCondition,
      if_neg (hne _), if_neg (List.cons_ne_nil soc rest)]

theorem averageSoc_of_caches {data : Data} {inputs : Inputs}
    (h : data.socCache.map knownSoc = inputs.soc) :
    knownCondition data.updateAvgSoc.socCacheAvg = inputs.averageSoc := by
  have hknown : inputs.soc.filterMap id =
      data.socCache.filter fun soc => soc ≠ unavailableSocCache := by
    rw [← h, List.filterMap_map, ← List.filterMap_eq_filter]
    refine List.filterMap_congr fun soc _ => ?_
    by_cases hunknown : soc = unavailableSocCache
    · simp [knownSoc, hunknown, Option.guard]
    · simp [knownSoc, hunknown, Option.guard]
  rw [Inputs.averageSoc, hknown]
  exact knownCondition_average _

theorem matchesRule_eq {config : Config} {data : Data} {inputs : Inputs}
    (hconfigured : Configured config data) (hcaches : Caches config data inputs)
    (haverage : data.haveSocRule = true → knownCondition data.socCacheAvg = inputs.averageSoc)
    {entry : RuleConfig × Nat} (hrule : entry.1 ∈ config.rulesCharge ++ config.rulesDischarge)
    (henabled : entry.1.enabled = true) {clock : Option Nat} {seconds : Int}
    (hseconds : data.haveTimeRule = true → seconds = secondsOf clock) :
    data.matchesRule seconds (controlRule entry) = entry.1.holds inputs clock := by
  have hreads : ∀ {p : RuleConfig → Bool} {have_ : Bool}, have_ = config.anyEnabled p →
      p entry.1 = true → have_ = true := by
    intro p have_ heq hp
    rw [heq]
    exact anyEnabled_of_mem hrule henabled hp
  have hsoc : ruleConditionFailed entry.1.socCond entry.1.socTh data.socCacheAvg =
      !entry.1.socCond.compares entry.1.socTh inputs.averageSoc := by
    by_cases hignore : entry.1.socCond = .ignore
    · rw [hignore]
      rfl
    · rw [ruleConditionFailed_eq, haverage (hreads hconfigured.soc (decide_eq_true hignore))]
  have hprice : ruleConditionFailed entry.1.priceCond (entry.1.priceTh * 100) data.priceCache =
      !entry.1.priceCond.compares (entry.1.priceTh * 100) inputs.price := by
    by_cases hignore : entry.1.priceCond = .ignore
    · rw [hignore]
      rfl
    · rw [ruleConditionFailed_eq, hcaches.price (hreads hconfigured.price (decide_eq_true hignore))]
  have hforecast : ruleConditionFailed entry.1.forecastCond (entry.1.forecastTh * 1000)
      data.forecastCache =
      !entry.1.forecastCond.compares (entry.1.forecastTh * 1000) inputs.forecast := by
    by_cases hignore : entry.1.forecastCond = .ignore
    · rw [hignore]
      rfl
    · rw [ruleConditionFailed_eq,
        hcaches.forecast (hreads hconfigured.forecast (decide_eq_true hignore))]
  have hfast : tristateRuleConditionFailed entry.1.fastChgCond data.fastChargerInCCache =
      !entry.1.fastChgCond.asks inputs.fastCharger := by
    by_cases hignore : entry.1.fastChgCond = .ignore
    · rw [hignore]
      rfl
    · rw [hcaches.fastCharger (hreads hconfigured.fastCharger (decide_eq_true hignore)),
        tristateRuleConditionFailed_eq]
  have htariff : scheduleRuleConditionFailed entry.1.scheduleCond data.tariffScheduleCache =
      !entry.1.scheduleCond.allows inputs.tariff := by
    by_cases hignore : entry.1.scheduleCond = .ignore
    · rw [hignore]
      rfl
    · rw [hcaches.tariff (hreads hconfigured.tariff (decide_eq_true hignore)),
        scheduleRuleConditionFailed_eq]
  have htime : timeRuleConditionFailed entry.1.timeCond (entry.1.timeStart * 60)
      (entry.1.timeEnd * 60) seconds = !entry.1.timeCond.asks (clock.map entry.1.inWindow) := by
    by_cases hignore : entry.1.timeCond = .ignore
    · rw [hignore]
      rfl
    · rw [hseconds (hreads hconfigured.time (decide_eq_true hignore)), timeRuleConditionFailed_eq]
  simp only [Data.matchesRule, controlRule, RuleConfig.holds]
  rw [hsoc, hprice, hforecast, hfast, htariff, htime]
  simp only [Bool.not_not]

/-- The first rule that matches in the filtered list is the first enabled one that does. -/
theorem evaluateRules_eq {data : Data} {seconds : Int} {holds : RuleConfig → Bool}
    (entries : List (RuleConfig × Nat))
    (h : ∀ entry ∈ entries, entry.1.enabled = true →
      data.matchesRule seconds (controlRule entry) = holds entry.1) :
    data.evaluateRules seconds
        ((entries.filter fun entry => entry.1.enabled).map controlRule) =
      match entries.find? fun entry => entry.1.enabled && holds entry.1 with
      | none => (.normal, 255)
      | some (rule, index) => (rule.action, index % 256) := by
  induction entries with
  | nil => rfl
  | cons entry rest ih =>
    have ih := ih fun other hother => h other (List.mem_cons_of_mem _ hother)
    cases henabled : entry.1.enabled with
    | false =>
      rw [List.filter_cons_of_neg (by simp [henabled]), ih,
        List.find?_cons_of_neg (by simp [henabled])]
    | true =>
      rw [List.filter_cons_of_pos (by exact henabled), List.map_cons, Data.evaluateRules,
        h entry List.mem_cons_self henabled]
      cases hholds : holds entry.1 with
      | true =>
        rw [if_pos rfl, List.find?_cons_of_pos (by simp [henabled, hholds])]
        rfl
      | false =>
        rw [if_neg Bool.false_ne_true, List.find?_cons_of_neg (by simp [henabled, hholds]),
          ih]

theorem evaluateRules_preprocess {config : Config} {data : Data} {inputs : Inputs}
    (hconfigured : Configured config data) (hcaches : Caches config data inputs)
    (haverage : data.haveSocRule = true → knownCondition data.socCacheAvg = inputs.averageSoc)
    {rules : List RuleConfig}
    (hrules : ∀ rule ∈ rules, rule ∈ config.rulesCharge ++ config.rulesDischarge)
    (hlength : rules.length < 256) {clock : Option Nat} {seconds : Int}
    (hseconds : data.haveTimeRule = true → seconds = secondsOf clock) :
    data.evaluateRules seconds (preprocessRules rules) = (actionOf (firstMatch rules inputs clock),
        ((firstMatch rules inputs clock).map Prod.snd).getD 255) := by
  rw [preprocessRules, @evaluateRules_eq data seconds (fun rule => rule.holds inputs clock) rules.zipIdx
    fun entry hentry henabled => matchesRule_eq hconfigured hcaches haverage
      (hrules entry.1 (List.fst_mem_of_mem_zipIdx hentry)) henabled hseconds]
  rw [firstMatch]
  cases hfind : rules.zipIdx.find? fun entry => entry.1.enabled && entry.1.holds inputs clock with
  | none => rfl
  | some entry =>
    obtain ⟨rule, index⟩ := entry
    have hindex := List.snd_lt_of_mem_zipIdx (List.mem_of_find?_eq_some hfind)
    simp only [actionOf, Option.map_some, Option.getD_some, Prod.mk.injEq, true_and]
    exact Nat.mod_eq_of_lt (by omega)

theorem length_preprocessRules {rules : List RuleConfig} (hlength : rules.length < 256) :
    (preprocessRules rules).length = countEnabledRules rules % 256 := by
  have hcount : (preprocessRules rules).length = countEnabledRules rules := by
    rw [preprocessRules, List.length_map, ← List.countP_eq_length_filter, countEnabledRules]
    conv_rhs => rw [← List.zipIdx_map_fst 0 rules, List.countP_map]
    rfl
  have hle : countEnabledRules rules ≤ rules.length := List.countP_le_length
  rw [hcount, Nat.mod_eq_of_lt (Nat.lt_of_le_of_lt hle hlength)]

theorem take_rules {config : Config} {data : Data} (h : Configured config data) :
    data.rules.take data.chargeRulesCount = preprocessRules config.rulesCharge ∧
      (data.rules.drop data.chargeRulesCount).take data.dischargeRulesCount =
        preprocessRules config.rulesDischarge := by
  rw [h.rules, h.charge, h.discharge, ← length_preprocessRules config.charge_lt,
    ← length_preprocessRules config.discharge_lt]
  exact ⟨List.take_left, by rw [List.drop_left, List.take_length]⟩

theorem setMode_eq (data : Data) (mode : BatteryMode) (h : data.mode = data.lastMode) :
    data.setMode mode = { data with lastMode := mode, mode := mode } := by
  rw [Data.setMode]
  split
  · next heq =>
      obtain rfl := heq
      cases data
      cases h
      rfl
  · rfl

/-- An evaluation publishes what the rules mean for the inputs. -/
theorem evaluateAllRules_eq {config : Config} {data : Data} {inputs : Inputs}
    (hconfigured : Configured config data) (hcaches : Caches config data inputs)
    (haverage : data.haveSocRule = true → knownCondition data.socCacheAvg = inputs.averageSoc)
    (hmode : data.mode = data.lastMode) (clock : Option Nat) :
    data.evaluateAllRules clock = { data with
      activeChargeRule := (config.reference inputs clock).chargeRule.getD 255
      activeDischargeRule := (config.reference inputs clock).dischargeRule.getD 255
      lastMode := (config.reference inputs clock).mode
      mode := (config.reference inputs clock).mode } := by
  obtain ⟨hcharge, hdischarge⟩ := take_rules hconfigured
  have hseconds : data.haveTimeRule = true → data.timeSinceMidnight clock = secondsOf clock := by
    intro htime
    rw [Data.timeSinceMidnight.eq_def, if_pos htime]
    cases clock <;> rfl
  rw [Data.evaluateAllRules]
  dsimp only
  rw [hcharge, hdischarge, evaluateRules_preprocess hconfigured hcaches haverage
      (fun _ hrule => List.mem_append_left _ hrule) config.charge_lt hseconds,
    evaluateRules_preprocess hconfigured hcaches haverage
      (fun _ hrule => List.mem_append_right _ hrule) config.discharge_lt hseconds]
  simp only [Config.reference]
  generalize firstMatch config.rulesCharge inputs clock = charge
  generalize firstMatch config.rulesDischarge inputs clock = discharge
  by_cases hforce : actionOf charge = .force
  · rw [if_pos hforce, if_pos hforce]
    exact setMode_eq _ _ hmode
  · rw [if_neg hforce, if_neg hforce]
    have hcombine : (if actionOf discharge = .force then BatteryMode.forceDischarge
        else if actionOf charge = .normal then
          if actionOf discharge = .normal then .normal else .blockDischarge
        else if actionOf discharge = .normal then .blockCharge else .block) =
        if actionOf discharge = .force then .forceDischarge
        else combine (actionOf charge) (actionOf discharge) := by
      cases actionOf charge <;> cases actionOf discharge <;> rfl
    rw [hcombine]
    exact setMode_eq _ _ hmode

end Esp32Firmware.BatteryControl
