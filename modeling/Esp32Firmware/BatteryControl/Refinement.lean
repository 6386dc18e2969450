import Esp32Firmware.BatteryControl.RuleEvaluation

/-!
# Runs of the battery control

No change of an input that an enabled rule reads is lost: it queues an evaluation, which stays
queued until it is run. Between the evaluations the mode is still the one that the rules mean.
-/

namespace Esp32Firmware.BatteryControl

/-- The state of the code stands for the inputs. -/
structure Represents (config : Config) (data : Data) (inputs : Inputs) : Prop where
  configured : Configured config data
  caches : Caches config data inputs
  queue : Queue data
  published : data.mode = data.lastMode

/-- What is published is the same. -/
def SameOutcome (data data' : Data) : Prop :=
  data'.mode = data.mode ∧ data'.lastMode = data.lastMode ∧
    data'.activeChargeRule = data.activeChargeRule ∧
    data'.activeDischargeRule = data.activeDischargeRule

/-- An input is reported: a change that an enabled rule reads queues an evaluation, and an
evaluation that is queued stays so. -/
structure Moves (config : Config) (data : Data) (inputs : Inputs) (data' : Data)
    (inputs' : Inputs) : Prop where
  represents : Represents config data' inputs'
  keeps : data.evaluationTaskId ≠ 0 → data'.evaluationTaskId = data.evaluationTaskId
  queues : config.Sees inputs inputs' → data'.evaluationTaskId ≠ 0
  same : SameOutcome data data'

variable {config : Config} {data data' data'' : Data} {inputs inputs' inputs'' : Inputs}

theorem not_sees_self (config : Config) (inputs : Inputs) : ¬ config.Sees inputs inputs := by
  simp [Config.Sees]

theorem Moves.refl (h : Represents config data inputs) : Moves config data inputs data inputs :=
  ⟨h, fun _ => rfl, fun hsees => absurd hsees (not_sees_self config inputs), rfl, rfl, rfl, rfl⟩

theorem sees_trans (h : config.Sees inputs inputs'') :
    config.Sees inputs inputs' ∨ config.Sees inputs' inputs'' := by
  by_cases hfirst : config.Sees inputs inputs'
  · exact .inl hfirst
  · right
    simp only [Config.Sees, not_or, not_and, not_not] at hfirst
    obtain ⟨hsoc, hprice, hforecast, hfast, htariff⟩ := hfirst
    obtain h | h | h | h | h := h
    · exact .inl ⟨h.1, hsoc h.1 ▸ h.2⟩
    · exact .inr (.inl ⟨h.1, hprice h.1 ▸ h.2⟩)
    · exact .inr (.inr (.inl ⟨h.1, hforecast h.1 ▸ h.2⟩))
    · exact .inr (.inr (.inr (.inl ⟨h.1, hfast h.1 ▸ h.2⟩)))
    · exact .inr (.inr (.inr (.inr ⟨h.1, htariff h.1 ▸ h.2⟩)))

theorem Moves.trans (h : Moves config data inputs data' inputs')
    (h' : Moves config data' inputs' data'' inputs'') :
    Moves config data inputs data'' inputs'' where
  represents := h'.represents
  keeps hne := (h'.keeps (h.keeps hne ▸ hne)).trans (h.keeps hne)
  queues hsees := by
    obtain hfirst | hsecond := sees_trans hsees
    · have hne := h.queues hfirst
      exact h'.keeps hne ▸ hne
    · exact h'.queues hsecond
  same := by
    obtain ⟨hmode, hlast, hcharge, hdischarge⟩ := h.same
    obtain ⟨hmode', hlast', hcharge', hdischarge'⟩ := h'.same
    exact ⟨hmode'.trans hmode, hlast'.trans hlast, hcharge'.trans hcharge,
      hdischarge'.trans hdischarge⟩

theorem requestEvaluation_eq (data : Data) :
    ∃ id last tasks, data.requestEvaluation = { data with
      evaluationMustCheckRules := true
      evaluationTaskId := id
      lastTaskId := last
      tasks := tasks } ∧ id ≠ 0 ∧ (data.evaluationTaskId ≠ 0 → id = data.evaluationTaskId) ∧
      (data.tasks = (if data.evaluationTaskId = 0 then [] else [data.evaluationTaskId]) →
        tasks = [id]) := by
  rw [Data.requestEvaluation, Data.scheduleEvaluation]
  by_cases hzero : data.evaluationTaskId = 0
  · rw [if_neg (by simpa using hzero)]
    refine ⟨data.lastTaskId + 1, data.lastTaskId + 1, data.tasks ++ [data.lastTaskId + 1], rfl,
      Nat.succ_ne_zero _, fun hne => absurd hzero hne, fun htasks => ?_⟩
    rw [htasks, if_pos hzero]
    rfl
  · rw [if_pos hzero]
    refine ⟨data.evaluationTaskId, data.lastTaskId, data.tasks, rfl, hzero, fun _ => rfl,
      fun htasks => ?_⟩
    rw [htasks, if_neg hzero]

/-- A cache has changed, and the rules are to be checked. -/
theorem Moves.request (h : Represents config data inputs)
    (hprogram : data'.program = data.program) (hcaches : Caches config data' inputs')
    (hid : data'.evaluationTaskId = data.evaluationTaskId) (htasks : data'.tasks = data.tasks)
    (hsame : SameOutcome data data') :
    Moves config data inputs data'.requestEvaluation inputs' := by
  obtain ⟨id, last, tasks, heq, hne, hkeeps, hone⟩ := requestEvaluation_eq data'
  rw [heq]
  refine ⟨⟨⟨hprogram.trans h.configured.program⟩, ⟨hcaches.soc, hcaches.average, hcaches.price,
    hcaches.forecast, hcaches.fastCharger, hcaches.schedule, hcaches.tariff⟩,
    ⟨?_, fun _ => rfl, fun _ => hne⟩, ?_⟩, fun hne' => (hkeeps (hid ▸ hne')).trans hid, fun _ => hne, hsame⟩
  · rw [hone (by rw [htasks, hid]; exact h.queue.tasks)]
    exact (if_neg hne).symm
  · exact hsame.1.trans (h.published.trans hsame.2.1.symm)

/-- Nothing that an enabled rule reads has changed. -/
theorem Moves.stay (h : Represents config data inputs) (hcaches : Caches config data inputs')
    (hsees : ¬ config.Sees inputs inputs') : Moves config data inputs data inputs' :=
  ⟨⟨h.configured, hcaches, h.queue, h.published⟩, fun _ => rfl, fun hyes => absurd hyes hsees,
    rfl, rfl, rfl, rfl⟩

theorem not_sees (h : Configured config data)
    (hsoc : data.haveSocRule = true → inputs.soc = inputs'.soc)
    (hprice : data.havePriceRule = true → inputs.price = inputs'.price)
    (hforecast : data.haveSolarForecastRule = true → inputs.forecast = inputs'.forecast)
    (hfast : data.haveFastChgRule = true → inputs.fastCharger = inputs'.fastCharger)
    (htariff : data.haveTariffScheduleRule = true → inputs.tariff = inputs'.tariff) :
    ¬ config.Sees inputs inputs' := by
  rw [h.soc] at hsoc
  rw [h.price] at hprice
  rw [h.forecast] at hforecast
  rw [h.fastCharger] at hfast
  rw [h.tariff] at htariff
  simp only [Config.Sees, not_or, not_and, not_not]
  exact ⟨hsoc, hprice, hforecast, hfast, htariff⟩

theorem moves_soc (h : Represents config data inputs) (slot value : Nat) :
    Moves config data inputs (data.step config (.soc slot value))
      (inputs.step config (.soc slot value)) := by
  have hc := h.caches
  simp only [Data.step, Inputs.step]
  split
  · refine Moves.request h rfl ?_ rfl rfl ⟨rfl, rfl, rfl, rfl⟩
    exact ⟨fun hsoc => by rw [List.map_set, hc.soc hsoc], fun _ hupdate => (by cases hupdate),
      hc.price, hc.forecast, hc.fastCharger, hc.schedule, hc.tariff⟩
  · next hno =>
      refine Moves.stay h ?_ (not_sees h.configured (fun hsoc => absurd hsoc hno) (fun _ => rfl)
        (fun _ => rfl) (fun _ => rfl) fun _ => rfl)
      exact ⟨fun hsoc => absurd hsoc hno, fun hsoc => absurd hsoc hno, hc.price, hc.forecast,
        hc.fastCharger, hc.schedule, hc.tariff⟩

theorem moves_fastCharge (h : Represents config data inputs) (inC : Bool) :
    Moves config data inputs (data.step config (.fastCharge inC))
      (inputs.step config (.fastCharge inC)) := by
  have hc := h.caches
  have htristate : (if inC then TristateBool.true else .false) = tristate (some inC) := by
    cases inC <;> rfl
  simp only [Data.step, htristate]
  split
  · next hhave =>
      split
      · refine Moves.request h rfl ?_ rfl rfl ⟨rfl, rfl, rfl, rfl⟩
        exact ⟨hc.soc, hc.average, hc.price, hc.forecast, fun _ => rfl, hc.schedule, hc.tariff⟩
      · next heq =>
          have heq : tristate (some inC) = data.fastChargerInCCache := not_not.mp heq
          have hsame : inputs.fastCharger = some inC :=
            tristate_inj ((hc.fastCharger hhave).symm.trans heq.symm)
          refine Moves.stay h ?_ (not_sees h.configured (fun _ => rfl) (fun _ => rfl)
            (fun _ => rfl) (fun _ => hsame) fun _ => rfl)
          exact ⟨hc.soc, hc.average, hc.price, hc.forecast, fun _ => heq.symm, hc.schedule,
            hc.tariff⟩
  · next hno =>
      refine Moves.stay h ?_ (not_sees h.configured (fun _ => rfl) (fun _ => rfl)
        (fun _ => rfl) (fun hfast => absurd hfast hno) fun _ => rfl)
      exact ⟨hc.soc, hc.average, hc.price, hc.forecast, fun hfast => absurd hfast hno,
        hc.schedule, hc.tariff⟩

theorem knownCondition_forecast (localtimeHour : Nat) (whToday whTomorrow : Int) :
    knownCondition (if (if localtimeHour < 20 then whToday else whTomorrow) < 0 then
        unavailableConditionCache
      else if localtimeHour < 20 then whToday else whTomorrow) =
      knownForecast localtimeHour whToday whTomorrow := by
  rw [knownForecast]
  generalize (if localtimeHour < 20 then whToday else whTomorrow) = wh
  split
  · rfl
  · next hpos =>
      rw [knownCondition, if_neg]
      rw [unavailableConditionCache]
      omega

theorem moves_forecast (h : Represents config data inputs)
    (hhave : data.haveSolarForecastRule = true) (localtimeHour : Nat) (whToday whTomorrow : Int) :
    Moves config data inputs (data.updateSolarForecast localtimeHour whToday whTomorrow)
      { inputs with forecast := knownForecast localtimeHour whToday whTomorrow } := by
  have hc := h.caches
  have hknown := knownCondition_forecast localtimeHour whToday whTomorrow
  simp only [Data.updateSolarForecast]
  generalize (if (if localtimeHour < 20 then whToday else whTomorrow) < 0 then
      unavailableConditionCache
    else if localtimeHour < 20 then whToday else whTomorrow) = value at hknown ⊢
  split
  · next heq =>
      rw [← heq] at hknown
      refine Moves.stay h ?_ (not_sees h.configured (fun _ => rfl) (fun _ => rfl)
        (fun _ => (hc.forecast hhave).symm.trans hknown) (fun _ => rfl) fun _ => rfl)
      exact ⟨hc.soc, hc.average, hc.price, fun _ => hknown, hc.fastCharger, hc.schedule,
        hc.tariff⟩
  · refine Moves.request h rfl ?_ rfl rfl ⟨rfl, rfl, rfl, rfl⟩
    exact ⟨hc.soc, hc.average, hc.price, fun _ => hknown, hc.fastCharger, hc.schedule, hc.tariff⟩

/-- A forecast that no enabled rule reads. -/
theorem moves_forecast_unread (h : Represents config data inputs)
    (hno : ¬ data.haveSolarForecastRule = true) (forecast : Option Int) :
    Moves config data inputs data { inputs with forecast := forecast } := by
  have hc := h.caches
  refine Moves.stay h ?_ (not_sees h.configured (fun _ => rfl) (fun _ => rfl)
    (fun hyes => absurd hyes hno) (fun _ => rfl) fun _ => rfl)
  exact ⟨hc.soc, hc.average, hc.price, fun hyes => absurd hyes hno, hc.fastCharger, hc.schedule,
    hc.tariff⟩

theorem quarterNow_eq {schedule : Option (Int × List Quarter)}
    (h : CachesSchedule data schedule) (nowMin : Int) :
    data.quarterNow nowMin = tariffNumber (quarterAt schedule nowMin) := by
  cases schedule with
  | none => exact if_pos h
  | some entry =>
    obtain ⟨startMin, quarters⟩ := entry
    obtain ⟨hstart, hquarters⟩ := h
    rw [Data.quarterNow, hstart, hquarters, quarterAt]
    by_cases hpos : startMin ≤ 0
    · rw [if_pos hpos, if_pos (by simp [hpos])]
      rfl
    · by_cases hnow : nowMin < startMin
      · rw [if_neg hpos, if_pos hnow, if_pos (by simp [hnow])]
        rfl
      · rw [if_neg hpos, if_neg hnow, if_neg (by simp [hpos, hnow]),
          List.getD_eq_getElem?_getD, List.getElem?_map]
        cases quarters[(nowMin - startMin).toNat / 15]? <;> rfl

/-- The schedule of the tariff is a new one, and its quarter is looked up. -/
theorem moves_schedule (h : Represents config data inputs)
    (hhave : data.haveTariffScheduleRule = true) (start : Int) (quarters : List Nat)
    {schedule : Option (Int × List Quarter)}
    (hschedule : CachesSchedule
      { data with tariffScheduleStartMin := start, tariffSchedule := quarters } schedule)
    (nowMin : Int) :
    Moves config data inputs
      ({ data with tariffScheduleStartMin := start, tariffSchedule := quarters }
        |>.evaluateTariffSchedule nowMin)
      (inputs.reportSchedule schedule nowMin) := by
  have hc := h.caches
  have hnow := quarterNow_eq hschedule nowMin
  simp only [Data.evaluateTariffSchedule]
  split
  · refine Moves.request h rfl ?_ rfl rfl ⟨rfl, rfl, rfl, rfl⟩
    exact ⟨hc.soc, hc.average, hc.price, hc.forecast, hc.fastCharger, fun _ => hschedule,
      fun _ => hnow⟩
  · next heq =>
      have heq := not_not.mp heq
      have hsame : inputs.tariff = quarterAt schedule nowMin := by
        apply tariffNumber_inj
        rw [← hnow, ← heq]
        exact (hc.tariff hhave).symm
      exact ⟨⟨⟨h.configured.program⟩, ⟨hc.soc, hc.average, hc.price, hc.forecast, hc.fastCharger,
        fun _ => hschedule, fun _ => heq.trans hnow⟩, ⟨h.queue.tasks, h.queue.check,
        h.queue.update⟩, h.published⟩, fun _ => rfl, fun hsees => absurd hsees
          (not_sees h.configured (fun _ => rfl) (fun _ => rfl) (fun _ => rfl) (fun _ => rfl)
            fun _ => hsame), rfl, rfl, rfl, rfl⟩

theorem cachesSchedule_update (data : Data) (tariff : TariffUpdate) :
    CachesSchedule
      (if tariff.cheapHours.isSome || tariff.expensiveHours.isSome then
        { data with
          tariffScheduleStartMin := tariff.startMin
          tariffSchedule := (List.range (24 * 4)).map fun i =>
            ((tariff.cheapHours.getD fun _ => false) i).toNat <<< 0 |||
              ((tariff.expensiveHours.getD fun _ => false) i).toNat <<< 1 }
      else
        { data with
          tariffScheduleStartMin := 0
          tariffSchedule := List.replicate (24 * 4) 0 }) tariff.schedule := by
  rw [TariffUpdate.schedule]
  split
  · refine ⟨rfl, ?_⟩
    rfl
  · exact Int.le_refl 0

section

variable (h : Represents config data inputs)
include h

theorem moves_updateTariff (hhave : data.haveTariffScheduleRule = true) (tariff : TariffUpdate) :
    Moves config data inputs (data.updateTariffSchedule config tariff)
      (inputs.updateTariff config tariff) := by
  have hschedule := cachesSchedule_update data tariff
  simp only [Data.updateTariffSchedule, Inputs.updateTariff]
  split
  · exact Moves.refl h
  · split
    · next hsome =>
        rw [if_pos hsome] at hschedule
        exact moves_schedule h hhave _ _ hschedule tariff.nowMin
    · next hnone =>
        rw [if_neg hnone] at hschedule
        exact moves_schedule h hhave _ _ hschedule tariff.nowMin

/-- A tariff that no enabled rule reads. -/
theorem moves_tariff_unread (hno : ¬ data.haveTariffScheduleRule = true)
    (schedule : Option (Int × List Quarter)) (nowMin : Int) :
    Moves config data inputs data (inputs.reportSchedule schedule nowMin) := by
  have hc := h.caches
  refine Moves.stay h ?_ (not_sees h.configured (fun _ => rfl) (fun _ => rfl) (fun _ => rfl)
    (fun _ => rfl) fun hyes => absurd hyes hno)
  exact ⟨hc.soc, hc.average, hc.price, hc.forecast, hc.fastCharger,
    fun hyes => absurd hyes hno, fun hyes => absurd hyes hno⟩

theorem moves_updateTariff_unread (hno : ¬ data.haveTariffScheduleRule = true)
    (tariff : TariffUpdate) :
    Moves config data inputs data (inputs.updateTariff config tariff) := by
  rw [Inputs.updateTariff]
  split
  · exact Moves.refl h
  · exact moves_tariff_unread h hno _ _

theorem moves_hourly (localtimeHour : Nat) (tariff : TariffUpdate) (whToday whTomorrow : Int) :
    Moves config data inputs (data.step config (.hourly localtimeHour tariff whToday whTomorrow))
      (inputs.step config (.hourly localtimeHour tariff whToday whTomorrow)) := by
  simp only [Data.step, Inputs.step]
  split
  · exact Moves.refl h
  · have htariff : Moves config data inputs
        (if data.haveTariffScheduleRule then data.updateTariffSchedule config tariff else data)
        (inputs.updateTariff config tariff) := by
      split
      · next hhave => exact moves_updateTariff h hhave tariff
      · next hno => exact moves_updateTariff_unread h hno tariff
    refine htariff.trans ?_
    generalize (if data.haveTariffScheduleRule then data.updateTariffSchedule config tariff
      else data) = data₁ at htariff ⊢
    split
    · next hhave => exact moves_forecast htariff.represents hhave _ _ _
    · next hno => exact moves_forecast_unread htariff.represents hno _

theorem moves_price (currentPrice : Option Int) :
    Moves config data inputs (data.updatePrice currentPrice)
      (inputs.reportPrice currentPrice) := by
  have hc := h.caches
  cases currentPrice with
  | none => exact Moves.refl h
  | some price =>
    simp only [Data.updatePrice, Inputs.reportPrice]
    split
    · refine Moves.request h rfl ?_ rfl rfl ⟨rfl, rfl, rfl, rfl⟩
      refine ⟨hc.soc, hc.average, fun _ => ?_, hc.forecast, hc.fastCharger, hc.schedule,
        hc.tariff⟩
      simp only [knownPrice]
      split
      · exact if_pos rfl
      · rfl
    · next hno =>
        refine Moves.stay h ?_ (not_sees h.configured (fun _ => rfl)
          (fun hyes => absurd hyes hno) (fun _ => rfl) (fun _ => rfl) fun _ => rfl)
        exact ⟨hc.soc, hc.average, fun hyes => absurd hyes hno, hc.forecast, hc.fastCharger,
          hc.schedule, hc.tariff⟩

theorem moves_sync (lastSync : Option Nat) (tariff : TariffUpdate) :
    Moves config data inputs (data.updateSync config lastSync tariff)
      (inputs.reportSync config lastSync tariff) := by
  cases lastSync with
  | none => exact Moves.refl h
  | some lastSync =>
    simp only [Data.updateSync, Inputs.reportSync]
    split
    · next hhave =>
        split
        · refine @moves_schedule config data inputs h hhave 0 data.tariffSchedule none ?_ _
          exact Int.le_refl 0
        · exact moves_updateTariff h hhave tariff
    · next hno =>
        split
        · exact moves_tariff_unread h hno _ _
        · exact moves_updateTariff_unread h hno tariff

theorem moves_dayAheadPrices (currentPrice : Option Int) (lastSync : Option Nat)
    (tariff : TariffUpdate) :
    Moves config data inputs (data.step config (.dayAheadPrices currentPrice lastSync tariff))
      (inputs.step config (.dayAheadPrices currentPrice lastSync tariff)) :=
  (moves_price h currentPrice).trans
    (moves_sync (moves_price h currentPrice).represents lastSync tariff)

theorem moves_quarter (nowMin : Int) :
    Moves config data inputs (data.step config (.quarter nowMin))
      (inputs.step config (.quarter nowMin)) := by
  simp only [Data.step, Inputs.step]
  by_cases hhave : data.haveTariffScheduleRule = true
  · by_cases hzero : config.cheapTariffQuarters = 0 ∧ config.expensiveTariffQuarters = 0
    · rw [if_neg (by simp [hzero.1, hzero.2]), if_pos (by simp [hzero.1, hzero.2])]
      exact Moves.refl h
    · have hquarters : (decide (config.cheapTariffQuarters ≠ 0) ||
          decide (config.expensiveTariffQuarters ≠ 0)) = true := by
        obtain hcheap | hexpensive := not_and_or.mp hzero
        · rw [decide_eq_true hcheap, Bool.true_or]
        · rw [decide_eq_true hexpensive, Bool.or_true]
      rw [if_pos (by rw [hhave, hquarters]; rfl), if_neg (by simpa using hzero)]
      exact moves_schedule h hhave data.tariffScheduleStartMin data.tariffSchedule
        (h.caches.schedule hhave) nowMin
  · rw [if_neg (by simp [hhave])]
    split
    · exact Moves.refl h
    · exact moves_tariff_unread h hhave _ _

theorem moves_minute : Moves config data inputs (data.step config .minute) inputs := by
  have hc := h.caches
  rw [Data.step]
  split
  · exact Moves.request h rfl hc rfl rfl ⟨rfl, rfl, rfl, rfl⟩
  · exact Moves.refl h

/-- The fallback only sets a mode as long as there is none. -/
theorem represents_defaultMode :
    Represents config (data.step config .defaultMode) inputs ∧
      (data.step config .defaultMode).evaluationTaskId = data.evaluationTaskId ∧
      (data.lastMode ≠ .none → SameOutcome data (data.step config .defaultMode)) := by
  have hc := h.caches
  rw [Data.step]
  split
  · next hnone =>
      rw [setMode_eq data .normal h.published]
      exact ⟨⟨⟨h.configured.program⟩, ⟨hc.soc, hc.average, hc.price, hc.forecast, hc.fastCharger,
        hc.schedule, hc.tariff⟩, ⟨h.queue.tasks, h.queue.check, h.queue.update⟩, rfl⟩, rfl,
        fun hsome => absurd hnone hsome⟩
  · exact ⟨h, rfl, fun _ => ⟨rfl, rfl, rfl, rfl⟩⟩

end

variable {taskId : Nat} {events : List Event}

/-- The task that is queued is the one that is remembered. -/
theorem task_eq (h : Queue data) (htask : taskId ∈ data.tasks) :
    taskId = data.evaluationTaskId ∧ data.evaluationTaskId ≠ 0 := by
  rw [h.tasks] at htask
  split at htask
  · exact absurd htask List.not_mem_nil
  · next hne => exact ⟨List.mem_singleton.mp htask, hne⟩

section

variable (h : Represents config data inputs)
include h

/-- The evaluation that was queued shows what the rules mean for the inputs. -/
theorem represents_evaluate (htask : taskId ∈ data.tasks) (clock : Option Nat) :
    Represents config (data.step config (.runTask taskId clock)) inputs ∧
      (data.step config (.runTask taskId clock)).tasks = [] ∧
      (data.step config (.runTask taskId clock)).Shows (config.reference inputs clock) := by
  have hc := h.caches
  obtain ⟨hid, hne⟩ := task_eq h.queue htask
  have htasks : data.tasks.erase taskId = [] := by
    rw [h.queue.tasks, if_neg hne, hid, List.erase_cons_head]
  rw [Data.step, if_pos htask, htasks]
  simp only [Data.evaluate]
  rw [if_pos (h.queue.check hne)]
  obtain ⟨data₁, hdata₁⟩ : ∃ data₁ : Data, data₁ =
      if data.evaluationMustUpdateSoc then
        { data with
          tasks := []
          evaluationTaskId := 0
          evaluationMustCheckRules := false
          evaluationMustUpdateSoc := false }.updateAvgSoc
      else { data with tasks := [], evaluationTaskId := 0, evaluationMustCheckRules := false } :=
    ⟨_, rfl⟩
  rw [← hdata₁]
  obtain ⟨hconfigured, hcaches, haverage, htasks, hzero, hupdate, hmode⟩ :
      Configured config data₁ ∧ Caches config data₁ inputs ∧
      (data₁.haveSocRule = true → knownCondition data₁.socCacheAvg = inputs.averageSoc) ∧
      data₁.tasks = [] ∧ data₁.evaluationTaskId = 0 ∧ data₁.evaluationMustUpdateSoc = false ∧
      data₁.mode = data₁.lastMode := by
    rw [hdata₁]
    cases hupdate : data.evaluationMustUpdateSoc with
    | true =>
      have haverage : data.haveSocRule = true →
          knownCondition data.updateAvgSoc.socCacheAvg = inputs.averageSoc :=
        fun hsoc => averageSoc_of_caches (hc.soc hsoc)
      exact ⟨⟨h.configured.program⟩, ⟨hc.soc, fun hsoc _ => haverage hsoc, hc.price,
        hc.forecast, hc.fastCharger, hc.schedule, hc.tariff⟩, haverage, rfl, rfl, rfl,
        h.published⟩
    | false =>
      exact ⟨⟨h.configured.program⟩, ⟨hc.soc, fun hsoc _ => hc.average hsoc hupdate, hc.price,
        hc.forecast, hc.fastCharger, hc.schedule, hc.tariff⟩,
        fun hsoc => hc.average hsoc hupdate, rfl, rfl, rfl, h.published⟩
  rw [evaluateAllRules_eq hconfigured hcaches haverage hmode clock]
  refine ⟨⟨⟨hconfigured.program⟩, ⟨hcaches.soc, hcaches.average, hcaches.price, hcaches.forecast,
    hcaches.fastCharger, hcaches.schedule, hcaches.tariff⟩, ⟨?_, fun hne => absurd hzero hne,
    fun hyes => ?_⟩, rfl⟩, htasks, rfl, rfl, rfl, rfl⟩
  · exact htasks.trans (if_pos hzero).symm
  · exact absurd (hupdate.symm.trans hyes) Bool.false_ne_true

/-- An event that is not the evaluation. -/
theorem step_cases (event : Event) :
    (∃ taskId clock, event = .runTask taskId clock ∧ taskId ∈ data.tasks) ∨
    event = .defaultMode ∨
    Moves config data inputs (data.step config event) (inputs.step config event) := by
  cases event with
  | soc slot value => exact .inr (.inr (moves_soc h slot value))
  | fastCharge inC => exact .inr (.inr (moves_fastCharge h inC))
  | hourly localtimeHour tariff whToday whTomorrow =>
    exact .inr (.inr (moves_hourly h localtimeHour tariff whToday whTomorrow))
  | dayAheadPrices currentPrice lastSync tariff =>
    exact .inr (.inr (moves_dayAheadPrices h currentPrice lastSync tariff))
  | quarter nowMin => exact .inr (.inr (moves_quarter h nowMin))
  | solarForecast localtimeHour whToday whTomorrow =>
    refine .inr (.inr ?_)
    simp only [Data.step]
    split
    · next hhave => exact moves_forecast h hhave _ _ _
    · next hno => exact moves_forecast_unread h hno _
  | minute => exact .inr (.inr (moves_minute h))
  | defaultMode => exact .inr (.inl rfl)
  | runTask taskId clock =>
    by_cases htask : taskId ∈ data.tasks
    · exact .inl ⟨taskId, clock, rfl, htask⟩
    · rw [Data.step, if_neg htask]
      exact .inr (.inr (Moves.refl h))

theorem represents_step (event : Event) :
    Represents config (data.step config event) (inputs.step config event) := by
  obtain ⟨taskId, clock, rfl, htask⟩ | rfl | hmoves := step_cases h event
  · exact (represents_evaluate h htask clock).1
  · exact (represents_defaultMode h).1
  · exact hmoves.represents

end

theorem represents_setup (config : Config) (slots : Nat) :
    Represents config (setup config slots) (.initial slots) where
  configured := ⟨rfl⟩
  caches := by
    have hsoc : (setup config slots).socCache.map knownSoc = (Inputs.initial slots).soc := by
      simp [setup, Inputs.initial, knownSoc]
    refine ⟨fun _ => hsoc, fun _ _ => ?_, fun _ => rfl, fun _ => rfl, fun _ => rfl,
      fun _ => Int.le_refl 0, fun _ => rfl⟩
    have hnone : (Inputs.initial slots).averageSoc = none := by
      simp [Inputs.averageSoc, Inputs.initial]
    rw [hnone]
    rfl
  queue := ⟨rfl, fun hne => absurd rfl hne, fun hyes => absurd hyes Bool.false_ne_true⟩
  published := rfl

theorem represents_run (h : Represents config data inputs) (events : List Event) :
    Represents config (run (Data.step config) data events)
      (run (Inputs.step config) inputs events) := by
  induction events generalizing data inputs with
  | nil => exact h
  | cons event rest ih => exact ih (represents_step h event)

/-- The scheduler does not run a task. -/
def Event.noRun (event : Event) : Prop := ∀ taskId clock, event ≠ .runTask taskId clock

theorem keeps_step (h : Represents config data inputs) {event : Event} (hrun : event.noRun)
    (hne : data.evaluationTaskId ≠ 0) :
    (data.step config event).evaluationTaskId = data.evaluationTaskId := by
  obtain ⟨taskId, clock, rfl, -⟩ | rfl | hmoves := step_cases h event
  · exact absurd rfl (hrun taskId clock)
  · exact (represents_defaultMode h).2.1
  · exact hmoves.keeps hne

theorem keeps_run (h : Represents config data inputs) (hrun : ∀ event ∈ events, event.noRun)
    (hne : data.evaluationTaskId ≠ 0) :
    (run (Data.step config) data events).evaluationTaskId = data.evaluationTaskId := by
  induction events generalizing data inputs with
  | nil => rfl
  | cons event rest ih =>
    have hkeeps := keeps_step h (hrun event List.mem_cons_self) hne
    exact (ih (represents_step h event)
      (fun other hother => hrun other (List.mem_cons_of_mem _ hother))
      (hkeeps ▸ hne)).trans hkeeps

theorem SameOutcome.shows {outcome : Outcome} (h : SameOutcome data data')
    (hshows : data.Shows outcome) : data'.Shows outcome := by
  obtain ⟨hmode, hlast, hcharge, hdischarge⟩ := h
  exact ⟨hmode.trans hshows.1, hlast.trans hshows.2.1, hcharge.trans hshows.2.2.1,
    hdischarge.trans hshows.2.2.2⟩

theorem reference_mode_ne (config : Config) (inputs : Inputs) (clock : Option Nat) :
    (config.reference inputs clock).mode ≠ .none := by
  rw [Config.reference]
  generalize firstMatch config.rulesCharge inputs clock = charge
  generalize firstMatch config.rulesDischarge inputs clock = discharge
  cases actionOf charge <;> cases actionOf discharge <;> exact fun h => BatteryMode.noConfusion h

/-- As long as no evaluation is queued the outcome of the last one is still right. -/
theorem shows_run (h : Represents config data inputs) {clock : Option Nat}
    (hshows : data.Shows (config.reference inputs clock)) (hrun : ∀ event ∈ events, event.noRun)
    (hend : (run (Data.step config) data events).evaluationTaskId = 0) :
    (run (Data.step config) data events).Shows
      (config.reference (run (Inputs.step config) inputs events) clock) := by
  induction events generalizing data inputs with
  | nil => exact hshows
  | cons event rest ih =>
    have hrest : ∀ other ∈ rest, other.noRun :=
      fun other hother => hrun other (List.mem_cons_of_mem _ hother)
    have hnext := represents_step h event
    refine ih hnext ?_ hrest hend
    obtain ⟨taskId, clock', rfl, -⟩ | rfl | hmoves := step_cases h event
    · exact absurd rfl (hrun _ List.mem_cons_self taskId clock')
    · refine ((represents_defaultMode h).2.2 ?_).shows hshows
      rw [hshows.2.1]
      exact reference_mode_ne config inputs clock
    · have hsees : ¬ config.Sees inputs (inputs.step config event) := by
        intro hsees
        have hne := hmoves.queues hsees
        exact (keeps_run hnext hrest hne ▸ hne) hend
      rw [← reference_congr hsees clock]
      exact hmoves.same.shows hshows

theorem tasks_eq_nil (h : Queue data) : data.tasks = [] ↔ data.evaluationTaskId = 0 := by
  rw [h.tasks]
  split
  · next hzero => exact ⟨fun _ => hzero, fun _ => rfl⟩
  · next hne =>
      exact ⟨fun hnil => absurd hnil (List.cons_ne_nil _ _), fun hzero => absurd hzero hne⟩

/-- A queued evaluation shows what the rules mean for the inputs, which stays right as long as no
other evaluation is queued; a change of an input that an enabled rule reads queues one, and so does
a new minute if there is a rule with a time; it stays queued until it is run. -/
theorem evaluation_refines (config : Config) (slots : Nat) (events : List Event) :
    let data := run (Data.step config) (setup config slots) events
    let inputs := run (Inputs.step config) (Inputs.initial slots) events
    (∀ taskId ∈ data.tasks, ∀ clock,
      (data.step config (.runTask taskId clock)).Shows (config.reference inputs clock) ∧
      ∀ later : List Event, (∀ event ∈ later, event.noRun) →
        (run (Data.step config) (data.step config (.runTask taskId clock)) later).tasks = [] →
        (run (Data.step config) (data.step config (.runTask taskId clock)) later).Shows
          (config.reference (run (Inputs.step config) inputs later) clock)) ∧
    (∀ event, config.Sees inputs (inputs.step config event) → (data.step config event).tasks ≠ []) ∧
    (config.anyEnabled (fun rule => rule.timeCond ≠ .ignore) = true →
      (data.step config .minute).tasks ≠ []) ∧
    ∀ event, event.noRun → ∀ taskId ∈ data.tasks, taskId ∈ (data.step config event).tasks := by
  intro data inputs
  have h : Represents config data inputs := represents_run (represents_setup config slots) events
  refine ⟨fun taskId htask clock => ⟨?_, fun later hlater hend => ?_⟩, ?_, ?_, ?_⟩
  · exact (represents_evaluate h htask clock).2.2
  · have hnext := represents_step h (.runTask taskId clock)
    refine shows_run hnext (represents_evaluate h htask clock).2.2 hlater ?_
    exact (tasks_eq_nil (represents_run hnext later).queue).mp hend
  · intro event hsees hnil
    obtain ⟨taskId, clock, rfl, -⟩ | rfl | hmoves := step_cases h event
    · exact not_sees_self config inputs hsees
    · exact not_sees_self config inputs hsees
    · exact hmoves.queues hsees ((tasks_eq_nil hmoves.represents.queue).mp hnil)
  · intro htime hnil
    have hhave : data.haveTimeRule = true := h.configured.time.trans htime
    have hmoves := (represents_step h .minute).queue
    have hzero := (tasks_eq_nil hmoves).mp hnil
    rw [Data.step, if_pos hhave] at hzero
    obtain ⟨id, last, tasks, heq, hne, -⟩ := requestEvaluation_eq data
    rw [heq] at hzero
    exact hne hzero
  · intro event hrun taskId htask
    obtain ⟨hid, hne⟩ := task_eq h.queue htask
    have hkeeps := keeps_step h hrun hne
    rw [(represents_step h event).queue.tasks, hkeeps, if_neg hne, hid]
    exact List.mem_singleton_self _

end Esp32Firmware.BatteryControl
