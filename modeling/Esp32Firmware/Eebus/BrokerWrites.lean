import Esp32Firmware.Library.BoundedTables
import Esp32Firmware.Eebus.CoordinatedCharging

/-!
# Writes of an Energy Broker

A rejected write should change nothing, an accepted one should store all of its slots, and the
target power should be that of the slot of the plan for the time. Each of these holds under a
condition on the message and on what was stored before.
-/

namespace Esp32Firmware.Eebus.CoordinatedCharging

open BoundedTable

variable {tool : Toolchain} {now : ℤ} {s : CevcUsecase}

section

def TimeSeriesData.slots (ts : TimeSeriesData) : List TimeSeriesSlot := ts.timeSeriesSlot.getD []

/-- Whether an entry is a charging plan. -/
def TimeSeriesData.isPlan (ts : TimeSeriesData) : Bool :=
  decide (ts.timeSeriesId = some timeSeriesIdPlan)

/-- The charging plans of a message. -/
def planEntries (data : Option TimeSeriesListData) : List TimeSeriesData :=
  ((data.bind TimeSeriesListData.timeSeriesData).getD []).filter TimeSeriesData.isPlan

/-- The slots of all charging plans of a message. -/
def planSlots (entries : List TimeSeriesData) : List TimeSeriesSlot :=
  entries.flatMap TimeSeriesData.slots

/-- The slots of the last charging plan of a message. -/
def lastSlots (entries : List TimeSeriesData) : List TimeSeriesSlot :=
  (entries.getLast?.map TimeSeriesData.slots).getD []

/-- The start time that some charging plans leave. -/
def startAfter (tool : Toolchain) (now : ℤ) (entries : List TimeSeriesData) (start : ℤ) : ℤ :=
  entries.foldl (fun start ts => ts.planStart tool now start) start

theorem pushSlots_eq_take (slots : List TimeSeriesSlot) {plan : List ChargingPlanSlot}
    (hplan : plan.length < maxTimeSeriesSlots) :
    pushSlots tool slots plan =
      (plan ++ slots.map (TimeSeriesSlot.planSlot tool)).take maxTimeSeriesSlots := by
  induction slots generalizing plan with
  | nil =>
    rw [List.map_nil, List.append_nil, List.take_of_length_le hplan.le]
    rfl
  | cons slot rest ih =>
    have happend : plan ++ (slot :: rest).map (TimeSeriesSlot.planSlot tool) =
        (plan ++ [slot.planSlot tool]) ++ rest.map (TimeSeriesSlot.planSlot tool) := by simp
    rw [happend, pushSlots]
    by_cases hfull : (plan ++ [slot.planSlot tool]).length ≥ maxTimeSeriesSlots
    · have hlength : (plan ++ [slot.planSlot tool]).length = maxTimeSeriesSlots := by
        rw [List.length_append, List.length_singleton] at hfull ⊢
        omega
      rw [if_pos hfull, List.take_left' hlength]
    · rw [if_neg hfull]
      exact ih (Nat.lt_of_not_le hfull)

/-- What the use case stores of the slots of a charging plan. -/
def storedPlan (tool : Toolchain) (slots : List TimeSeriesSlot) : List ChargingPlanSlot :=
  (slots.map (TimeSeriesSlot.planSlot tool)).take maxTimeSeriesSlots

theorem storedPlan_isEmpty (slots : List TimeSeriesSlot) :
    (storedPlan tool slots).isEmpty = slots.isEmpty := by
  cases slots with
  | nil | cons slot rest => rfl

theorem acceptTimeSeries_other {ts : TimeSeriesData} (hts : ts.isPlan = false)
    (u : CevcUsecase × Bool) : acceptTimeSeries tool now u ts = u := by
  have hid : ts.timeSeriesId ≠ some timeSeriesIdPlan := of_decide_eq_false hts
  unfold acceptTimeSeries
  split
  · rfl
  · rename_i tsId htsId
    rw [if_pos]
    rintro rfl
    exact hid htsId

theorem acceptTimeSeries_plan {ts : TimeSeriesData} (hts : ts.isPlan = true) (updated : Bool) :
    acceptTimeSeries tool now (s, updated) ts = ({ s with
        receivedChargingPlan := storedPlan tool ts.slots
        chargingPlanValid := !ts.slots.isEmpty
        chargingPlanStartTime := ts.planStart tool now s.chargingPlanStartTime },
      updated || !ts.slots.isEmpty) := by
  have hid : ts.timeSeriesId = some timeSeriesIdPlan := of_decide_eq_true hts
  have hpush : pushSlots tool (ts.timeSeriesSlot.getD []) [] = storedPlan tool ts.slots :=
    pushSlots_eq_take _ (by decide)
  unfold acceptTimeSeries
  simp only [hid, hpush, storedPlan_isEmpty]
  cases ts.slots.isEmpty with
  | true | false => simp

/-- The entries of a message that are no charging plans do nothing. -/
theorem foldl_acceptTimeSeries_filter (entries : List TimeSeriesData) (u : CevcUsecase × Bool) :
    entries.foldl (acceptTimeSeries tool now) u =
      (entries.filter TimeSeriesData.isPlan).foldl (acceptTimeSeries tool now) u := by
  induction entries generalizing u with
  | nil => rfl
  | cons ts rest ih =>
    cases hts : ts.isPlan with
    | true =>
      rw [List.filter_cons_of_pos hts]
      exact ih _
    | false =>
      rw [List.filter_cons_of_neg (by simp [hts]), List.foldl_cons, acceptTimeSeries_other hts]
      exact ih u

/-- The last charging plan of a message is the one that is stored. -/
theorem foldl_acceptTimeSeries (tool : Toolchain) (now : ℤ) (s : CevcUsecase)
    {entries : List TimeSeriesData} (hplan : ∀ ts ∈ entries, ts.isPlan = true) (hentries : entries ≠ []) :
    entries.foldl (acceptTimeSeries tool now) (s, false) = ({ s with
        receivedChargingPlan := storedPlan tool (lastSlots entries)
        chargingPlanValid := !(lastSlots entries).isEmpty
        chargingPlanStartTime := startAfter tool now entries s.chargingPlanStartTime },
      !(planSlots entries).isEmpty) := by
  induction entries using List.reverseRecOn with
  | nil => exact absurd rfl hentries
  | append_singleton entries ts ih =>
    have hts : ts.isPlan = true := hplan ts (by simp)
    rw [List.foldl_append, List.foldl_cons, List.foldl_nil]
    rcases eq_or_ne entries [] with rfl | hne
    · rw [List.foldl_nil, acceptTimeSeries_plan hts]
      simp [lastSlots, startAfter, planSlots]
    · rw [ih (fun t ht => hplan t (List.mem_append_left _ ht)) hne, acceptTimeSeries_plan hts]
      have hempty : ∀ xs ys : List TimeSeriesSlot,
          (!xs.isEmpty || !ys.isEmpty) = !(xs ++ ys).isEmpty := by
        intro xs ys
        cases xs <;> cases ys <;> rfl
      simp [lastSlots, startAfter, planSlots, hempty]

/-- A plan write is answered as it should be: if it is rejected nothing changes, and otherwise
the plan is the one of the message. -/
def PlanAnswered (tool : Toolchain) (now : ℤ) (s : CevcUsecase)
    (data : Option TimeSeriesListData) : Prop :=
  let result := writeTimeSeriesList tool now s data
  (result.2 = .commandRejected → result.1 = s) ∧
    (result.2 = .noError → result.1.chargingPlanValid = true ∧ result.1.receivedChargingPlan =
        (planSlots (planEntries data)).map (TimeSeriesSlot.planSlot tool))

/-- Without slots there is no charging plan in the message, or there was none before and the start
time stays. -/
def NothingToClear (tool : Toolchain) (now : ℤ) (s : CevcUsecase) (entries : List TimeSeriesData) :
    Prop :=
  entries = [] ∨ s.receivedChargingPlan = [] ∧ s.chargingPlanValid = false ∧
    startAfter tool now entries s.chargingPlanStartTime = s.chargingPlanStartTime

/-- All slots are those of the last charging plan, and they are not too many. -/
def OnlyLastFits (entries : List TimeSeriesData) : Prop :=
  planSlots entries = lastSlots entries ∧ (planSlots entries).length ≤ maxTimeSeriesSlots

/-- When a plan write is answered as it should be. -/
def PlanFits (tool : Toolchain) (now : ℤ) (s : CevcUsecase) (data : Option TimeSeriesListData) :
    Prop :=
  if planSlots (planEntries data) = [] then NothingToClear tool now s (planEntries data)
  else OnlyLastFits (planEntries data)

theorem planEntries_isPlan (data : Option TimeSeriesListData) :
    ∀ ts ∈ planEntries data, ts.isPlan = true :=
  fun _ h => (List.mem_filter.mp h).2

/-- A plan write without a charging plan is rejected and does nothing. -/
theorem writeTimeSeriesList_none {data : Option TimeSeriesListData} (h : planEntries data = []) :
    writeTimeSeriesList tool now s data = (s, .commandRejected) := by
  unfold planEntries at h
  unfold writeTimeSeriesList
  cases hdata : data.bind TimeSeriesListData.timeSeriesData with
  | none => rfl
  | some entries =>
    rw [hdata, Option.getD_some] at h
    simp only [foldl_acceptTimeSeries_filter entries, h]
    rfl

/-- The use case after the charging plans of a message. -/
def withPlan (tool : Toolchain) (now : ℤ) (s : CevcUsecase) (entries : List TimeSeriesData) :
    CevcUsecase :=
  { s with
    receivedChargingPlan := storedPlan tool (lastSlots entries)
    chargingPlanValid := !(lastSlots entries).isEmpty
    chargingPlanStartTime := startAfter tool now entries s.chargingPlanStartTime }

/-- A plan write is accepted if the charging plans of the message have any slots. -/
theorem writeTimeSeriesList_some {data : Option TimeSeriesListData} (h : planEntries data ≠ []) :
    writeTimeSeriesList tool now s data =
      if planSlots (planEntries data) = [] then
        (withPlan tool now s (planEntries data), .commandRejected)
      else ((withPlan tool now s (planEntries data)).updateApiState tool now, .noError) := by
  have hfold := foldl_acceptTimeSeries tool now s (planEntries_isPlan data) h
  unfold writeTimeSeriesList
  cases hdata : data.bind TimeSeriesListData.timeSeriesData with
  | none =>
    unfold planEntries at h
    rw [hdata] at h
    exact absurd rfl h
  | some entries =>
    have hentries : planEntries data = entries.filter TimeSeriesData.isPlan := by
      unfold planEntries
      rw [hdata, Option.getD_some]
    simp only [foldl_acceptTimeSeries_filter entries, ← hentries, hfold]
    cases hslots : planSlots (planEntries data) with
    | nil | cons slot rest => rfl

theorem length_lastSlots_le (entries : List TimeSeriesData) :
    (lastSlots entries).length ≤ (planSlots entries).length := by
  rcases List.eq_nil_or_concat entries with rfl | ⟨entries, ts, rfl⟩
  · rfl
  · simp [lastSlots, planSlots]

/-- If as many slots are stored as the message has, they are the last ones and fit. -/
theorem onlyLastFits_iff (tool : Toolchain) (entries : List TimeSeriesData) :
    storedPlan tool (lastSlots entries) =
        (planSlots entries).map (TimeSeriesSlot.planSlot tool) ↔ OnlyLastFits entries := by
  constructor
  · intro h
    have hlength := congrArg List.length h
    rw [storedPlan, List.length_take, List.length_map, List.length_map] at hlength
    refine ⟨?_, by omega⟩
    rcases List.eq_nil_or_concat entries with rfl | ⟨entries, ts, rfl⟩
    · rfl
    · have hempty : (entries.flatMap TimeSeriesData.slots).length = 0 := by
        simp only [lastSlots, planSlots, List.concat_eq_append, List.getLast?_append,
          List.flatMap_append, List.length_append, List.flatMap_cons, List.flatMap_nil,
          List.append_nil, List.getLast?_singleton, Option.some_or, Option.map_some,
          Option.getD_some] at hlength
        omega
      rw [List.length_eq_zero_iff] at hempty
      simp [planSlots, lastSlots, hempty]
  · rintro ⟨hlast, hlength⟩
    rw [storedPlan, ← hlast, List.take_of_length_le]
    rwa [List.length_map]

/-- A plan write is answered as it should be exactly if its plan fits. -/
theorem planAnswered_iff (data : Option TimeSeriesListData) :
    PlanAnswered tool now s data ↔ PlanFits tool now s data := by
  unfold PlanAnswered PlanFits
  rcases eq_or_ne (planEntries data) [] with hnone | hsome
  · have hslots : planSlots (planEntries data) = [] := by rw [hnone, planSlots, List.flatMap_nil]
    rw [writeTimeSeriesList_none hnone, if_pos hslots]
    refine iff_of_true ⟨fun _ => rfl, fun h => ?_⟩ (.inl hnone)
    cases h
  rw [writeTimeSeriesList_some hsome]
  by_cases hslots : planSlots (planEntries data) = []
  · have hlast : lastSlots (planEntries data) = [] := by
      have hle := length_lastSlots_le (planEntries data)
      rw [hslots] at hle
      exact List.length_eq_zero_iff.mp (Nat.le_zero.mp hle)
    rw [if_pos hslots, if_pos hslots]
    constructor
    · rintro ⟨hkept, _⟩
      have heq := hkept rfl
      refine .inr ⟨?_, ?_, congrArg CevcUsecase.chargingPlanStartTime heq⟩
      · rw [← congrArg CevcUsecase.receivedChargingPlan heq, withPlan, hlast]
        rfl
      · rw [← congrArg CevcUsecase.chargingPlanValid heq, withPlan, hlast]
        rfl
    · rintro (hnone | ⟨hplan, hvalid, hstart⟩)
      · exact absurd hnone hsome
      · refine ⟨fun _ => ?_, fun h => (nomatch h)⟩
        unfold withPlan
        rw [hlast, hstart]
        cases s
        cases hplan
        cases hvalid
        rfl
  · rw [if_neg hslots, if_neg hslots, ← onlyLastFits_iff tool]
    constructor
    · rintro ⟨_, hstored⟩
      exact (hstored rfl).2
    · intro hstored
      refine ⟨fun h => (nomatch h), fun _ => ⟨?_, hstored⟩⟩
      have hlast := ((onlyLastFits_iff tool _).mp hstored).1
      change (!(lastSlots (planEntries data)).isEmpty) = true
      rw [← hlast]
      simpa using hslots

end

section

/-- The interval of an incentive slot. -/
def IncentiveSlotEntry.interval (entry : IncentiveSlotEntry) : ℤ × ℤ :=
  (entry.startTime, entry.endTime)

/-- The incentive slots of a message. -/
def incentiveEntries (tool : Toolchain) (data : Option IncentiveTableData) :
    List IncentiveSlotEntry :=
  ((data.bind IncentiveTableData.incentiveTable).getD []).flatMap fun table =>
    (table.incentiveSlot.getD []).map (IncentiveTableIncentiveSlot.entry tool)

theorem updateExisting_eq_replace (entry : IncentiveSlotEntry)
    (incentives : List IncentiveSlotEntry) :
    updateExisting entry incentives = replace IncentiveSlotEntry.interval entry incentives := by
  induction incentives with
  | nil => rfl
  | cons existing rest ih =>
    rw [updateExisting, replace, ih]
    by_cases h : existing.interval = entry.interval
    · have htimes := Prod.mk.injEq .. ▸ h
      have hentry : { existing with tiers := entry.tiers } = entry := by
        cases existing
        cases entry
        obtain ⟨rfl, rfl⟩ := htimes
        rfl
      rw [if_pos htimes, if_pos h, hentry]
    · have htimes : ¬ (existing.startTime = entry.startTime ∧
          existing.endTime = entry.endTime) := fun h' => h (Prod.ext h'.1 h'.2)
      rw [if_neg htimes, if_neg h]

theorem storeIncentive_eq_put (incentives : List IncentiveSlotEntry) (entry : IncentiveSlotEntry) :
    storeIncentive incentives entry =
      put IncentiveSlotEntry.interval maxIncentiveSlots incentives entry := by
  unfold storeIncentive put
  rw [updateExisting_eq_replace]
  cases replace IncentiveSlotEntry.interval entry incentives with
  | none | some incentives => rfl

/-- The use case stores incentives in a table of bounded size. -/
theorem foldl_storeIncentive (tables : List IncentiveTable) (incentives : List IncentiveSlotEntry) :
    tables.foldl (fun incentives table =>
        (table.incentiveSlot.getD []).foldl (fun incentives slot =>
          storeIncentive incentives (slot.entry tool)) incentives) incentives =
      putAll IncentiveSlotEntry.interval maxIncentiveSlots incentives
        (tables.flatMap fun table =>
          (table.incentiveSlot.getD []).map (IncentiveTableIncentiveSlot.entry tool)) := by
  unfold putAll
  induction tables generalizing incentives with
  | nil => rfl
  | cons table rest ih =>
    rw [List.foldl_cons, ih, List.flatMap_cons, List.foldl_append, List.foldl_map]
    simp only [storeIncentive_eq_put]

/-- An incentive write is answered as it should be: if it is rejected nothing changes, and
otherwise every slot of the message is stored for its interval. -/
def IncentivesAnswered (tool : Toolchain) (now : ℤ) (s : CevcUsecase)
    (data : Option IncentiveTableData) : Prop :=
  let result := writeIncentiveTableData tool now s data
  (result.2 = .commandRejected → result.1 = s) ∧
    (result.2 = .noError → result.1.incentivesValid = true ∧ ∀ entry ∈ incentiveEntries tool data,
        find IncentiveSlotEntry.interval result.1.receivedIncentives entry.interval = some entry)

/-- Incentive slots of a message with the same interval are the same, and there is room for the
intervals that are not stored yet. -/
def IncentivesFit (tool : Toolchain) (s : CevcUsecase) (data : Option IncentiveTableData) : Prop :=
  (∀ a ∈ incentiveEntries tool data, ∀ b ∈ incentiveEntries tool data,
    a.interval = b.interval → a = b) ∧
    (newKeys IncentiveSlotEntry.interval s.receivedIncentives
      (incentiveEntries tool data)).card ≤ maxIncentiveSlots - s.receivedIncentives.length

/-- The use case after the incentive slots of a message. -/
def withIncentives (s : CevcUsecase) (entries : List IncentiveSlotEntry) : CevcUsecase :=
  { s with
    receivedIncentives :=
      putAll IncentiveSlotEntry.interval maxIncentiveSlots s.receivedIncentives entries }

/-- An empty table stays empty only if nothing is put into it. -/
theorem withIncentives_eq_nil {entries : List IncentiveSlotEntry}
    (h : (withIncentives s entries).receivedIncentives = []) :
    s.receivedIncentives = [] ∧ entries = [] := by
  have hnil : ∀ (table items : List IncentiveSlotEntry),
      putAll IncentiveSlotEntry.interval maxIncentiveSlots table items = [] → table = [] := by
    intro table items hput
    obtain ⟨extra, hkeys, _⟩ := keys_putAll IncentiveSlotEntry.interval maxIncentiveSlots table
      items
    rw [hput, List.map_nil, eq_comm, List.append_eq_nil_iff, List.map_eq_nil_iff] at hkeys
    exact hkeys.1
  have hempty : s.receivedIncentives = [] := hnil _ _ h
  refine ⟨hempty, ?_⟩
  cases entries with
  | nil => rfl
  | cons entry rest =>
    have hput : put IncentiveSlotEntry.interval maxIncentiveSlots s.receivedIncentives entry =
        [entry] := by
      rw [hempty]
      rfl
    have hfirst := hnil _ rest h
    rw [hput] at hfirst
    cases hfirst

section

variable {data : Option IncentiveTableData}

theorem writeIncentiveTableData_none (h : data.bind IncentiveTableData.incentiveTable = none) :
    writeIncentiveTableData tool now s data = (s, .commandRejected) := by
  unfold writeIncentiveTableData
  rw [h]

theorem writeIncentiveTableData_some {tables}
    (h : data.bind IncentiveTableData.incentiveTable = some tables) :
    writeIncentiveTableData tool now s data =
      if (withIncentives s (incentiveEntries tool data)).receivedIncentives = [] then
        (s, .commandRejected)
      else
        (({ withIncentives s (incentiveEntries tool data) with
          incentivesValid := true } : CevcUsecase).updateApiState tool now, .noError) := by
  have hentries : incentiveEntries tool data = tables.flatMap fun table =>
      (table.incentiveSlot.getD []).map (IncentiveTableIncentiveSlot.entry tool) := by
    unfold incentiveEntries
    rw [h, Option.getD_some]
  unfold writeIncentiveTableData
  rw [h]
  simp only [foldl_storeIncentive, List.isEmpty_iff, ← hentries]
  by_cases hempty : (withIncentives s (incentiveEntries tool data)).receivedIncentives = []
  · have hsame : withIncentives s (incentiveEntries tool data) = s := by
      rw [(withIncentives_eq_nil hempty).2]
      rfl
    rw [if_pos hempty]
    exact (if_pos hempty).trans (congrArg (·, _) hsame)
  · rw [if_neg hempty]
    exact if_neg hempty

theorem incentivesFit_of_nil (h : incentiveEntries tool data = []) : IncentivesFit tool s data := by
  unfold IncentivesFit
  rw [h]
  exact ⟨fun _ ha => absurd ha List.not_mem_nil, by simp [newKeys]⟩

end

/-- An incentive write is answered as it should be exactly if its slots fit. -/
theorem incentivesAnswered_iff (data : Option IncentiveTableData) :
    IncentivesAnswered tool now s data ↔ IncentivesFit tool s data := by
  unfold IncentivesAnswered
  cases htables : data.bind IncentiveTableData.incentiveTable with
  | none =>
    have hentries : incentiveEntries tool data = [] := by
      unfold incentiveEntries
      rw [htables]
      rfl
    rw [writeIncentiveTableData_none htables]
    exact iff_of_true ⟨fun _ => rfl, fun h => nomatch h⟩ (incentivesFit_of_nil hentries)
  | some tables =>
    rw [writeIncentiveTableData_some htables]
    by_cases hempty : (withIncentives s (incentiveEntries tool data)).receivedIncentives = []
    · rw [if_pos hempty]
      exact iff_of_true ⟨fun _ => rfl, fun h => nomatch h⟩
        (incentivesFit_of_nil (withIncentives_eq_nil hempty).2)
    · rw [if_neg hempty]
      constructor
      · rintro ⟨_, hstored⟩
        exact find_putAll_iff.mp (hstored rfl).2
      · intro hfits
        exact ⟨fun h => (nomatch h), fun _ => ⟨rfl, find_putAll_iff.mpr hfits⟩⟩

end

section

/-- The slot of the stored plan for a time, counted from the stored start time. -/
def Contains (s : CevcUsecase) (time : ℤ) (slot : ChargingPlanSlot) : Prop :=
  ∃ before after, s.receivedChargingPlan = before ++ slot :: after ∧
    s.chargingPlanStartTime + (before.map ChargingPlanSlot.duration).sum ≤ time ∧
    time < s.chargingPlanStartTime + (before.map ChargingPlanSlot.duration).sum + slot.duration

/-- The target power at a time is that of the slot for this time, and -1 exactly if there is no
valid plan or no such slot. -/
structure TargetFor (s : CevcUsecase) (time : ℤ) (power : Int32) : Prop where
  eq_slot : ∀ slot, s.chargingPlanValid = true → Contains s time slot → power = slot.powerW
  none_iff : power = -1 ↔ ¬ (s.chargingPlanValid = true ∧ ∃ slot, Contains s time slot)

/-- The target power is right at every time; 0 asks for the current one. -/
def TargetRight (tool : Toolchain) (s : CevcUsecase) : Prop :=
  ∀ now queryTime, TargetFor s (if queryTime = 0 then now else queryTime)
    (s.getTargetPowerW tool now queryTime)

/-- A slot whose duration fits an `int` and whose power does not look like none. -/
structure ChargingPlanSlot.InRange (slot : ChargingPlanSlot) : Prop where
  nonneg : 0 ≤ slot.duration
  fits : slot.duration < 2 ^ 31
  power : slot.powerW = -1 → slot.duration = 0

/-- The slot of a plan with a start time that contains a time. -/
def ContainsFrom (start : ℤ) (plan : List ChargingPlanSlot) (time : ℤ) (slot : ChargingPlanSlot) :
    Prop :=
  ∃ before after, plan = before ++ slot :: after ∧
    start + (before.map ChargingPlanSlot.duration).sum ≤ time ∧
    time < start + (before.map ChargingPlanSlot.duration).sum + slot.duration

variable {start time : ℤ} {slot : ChargingPlanSlot} {plan : List ChargingPlanSlot}

theorem containsFrom_cons_iff {first : ChargingPlanSlot} {rest : List ChargingPlanSlot} :
    ContainsFrom start (first :: rest) time slot ↔
      (slot = first ∧ start ≤ time ∧ time < start + first.duration) ∨
        ContainsFrom (start + first.duration) rest time slot := by
  constructor
  · rintro ⟨before, after, hsplit, hstart, hend⟩
    cases before with
    | nil =>
      obtain ⟨rfl, rfl⟩ := List.cons_eq_cons.mp hsplit
      rw [List.map_nil, List.sum_nil, add_zero] at hstart hend
      exact .inl ⟨rfl, hstart, hend⟩
    | cons b before =>
      obtain ⟨rfl, rfl⟩ := List.cons_eq_cons.mp hsplit
      rw [List.map_cons, List.sum_cons, ← add_assoc] at hstart hend
      exact .inr ⟨before, after, rfl, hstart, hend⟩
  · rintro (⟨rfl, hstart, hend⟩ | ⟨before, after, rfl, hstart, hend⟩)
    · refine ⟨[], rest, rfl, ?_, ?_⟩
      · rwa [List.map_nil, List.sum_nil, add_zero]
      · rwa [List.map_nil, List.sum_nil, add_zero]
    · refine ⟨first :: before, after, rfl, ?_, ?_⟩
      · rwa [List.map_cons, List.sum_cons, ← add_assoc]
      · rwa [List.map_cons, List.sum_cons, ← add_assoc]

theorem ContainsFrom.start_le (h : ContainsFrom start plan time slot)
    (hplan : ∀ p ∈ plan, p.InRange) : start ≤ time := by
  obtain ⟨before, after, rfl, hstart, _⟩ := h
  have hsum : 0 ≤ (before.map ChargingPlanSlot.duration).sum := by
    apply List.sum_nonneg
    intro d hd
    obtain ⟨p, hp, rfl⟩ := List.mem_map.mp hd
    exact (hplan p (List.mem_append_left _ hp)).nonneg
  omega

/-- The loop over the slots finds the one for the time. -/
theorem slotPower_spec (tool : Toolchain) (start time : ℤ) (hplan : ∀ p ∈ plan, p.InRange) :
    (∀ slot, ContainsFrom start plan time slot →
        CevcUsecase.slotPower tool time start plan = slot.powerW) ∧
      (CevcUsecase.slotPower tool time start plan = -1 ↔
        ¬ ∃ slot, ContainsFrom start plan time slot) := by
  induction plan generalizing start with
  | nil =>
    have hnone : ∀ slot, ¬ ContainsFrom start [] time slot := by
      rintro slot ⟨before, after, hsplit, _⟩
      exact absurd hsplit (by simp)
    exact ⟨fun slot h => absurd h (hnone slot), iff_of_true rfl fun ⟨slot, h⟩ => hnone slot h⟩
  | cons first rest ih =>
    have hfirst := hplan first List.mem_cons_self
    have hrest : ∀ p ∈ rest, p.InRange := fun p hp => hplan p (List.mem_cons_of_mem _ hp)
    rw [CevcUsecase.slotPower, tool.asInt_of_fits _ hfirst.nonneg hfirst.fits]
    by_cases hin : time ≥ start ∧ time < start + first.duration
    · rw [if_pos hin]
      have hpower : first.powerW ≠ -1 := fun h => by
        have := hfirst.power h
        omega
      constructor
      · intro slot hslot
        rcases containsFrom_cons_iff.mp hslot with ⟨rfl, _⟩ | hlater
        · rfl
        · have hstart := hlater.start_le hrest
          omega
      · refine iff_of_false hpower fun h => h ⟨first, ?_⟩
        exact containsFrom_cons_iff.mpr (.inl ⟨rfl, hin⟩)
    · have hcons : ∀ slot, ContainsFrom start (first :: rest) time slot ↔
          ContainsFrom (start + first.duration) rest time slot := by
        intro slot
        rw [containsFrom_cons_iff, or_iff_right fun h => hin h.2]
      rw [if_neg hin]
      simp only [hcons]
      exact ih _ hrest

theorem targetRight_of_inRange (hplan : ∀ slot ∈ s.receivedChargingPlan, slot.InRange) :
    TargetRight tool s := by
  intro now queryTime
  unfold CevcUsecase.getTargetPowerW
  cases hvalid : s.chargingPlanValid with
  | false =>
    constructor
    · intro slot h
      rw [hvalid] at h
      cases h
    · rw [hvalid]
      simp
  | true =>
    cases hs : s.receivedChargingPlan with
    | nil =>
      have hnone : ∀ time slot, ¬ Contains s time slot := by
        rintro time slot ⟨before, after, hsplit, _⟩
        rw [hs] at hsplit
        exact absurd hsplit (by simp)
      constructor
      · exact fun slot _ h => absurd h (hnone _ slot)
      · exact iff_of_true rfl fun h => h.2.elim fun slot => hnone _ slot
    | cons first rest =>
      rw [hs] at hplan
      obtain ⟨hslot, hnone⟩ := slotPower_spec tool s.chargingPlanStartTime
        (if queryTime = 0 then now else queryTime) hplan
      have hcontains : ∀ time slot, Contains s time slot ↔
          ContainsFrom s.chargingPlanStartTime (first :: rest) time slot := by
        intro time slot
        rw [← hs]
        rfl
      constructor
      · intro slot _ h
        exact hslot slot ((hcontains _ _).mp h)
      · simp only [hcontains, hvalid, true_and]
        exact hnone

end

/-- An event goes right: a write is answered as it should be. -/
def EventRight (tool : Toolchain) (now : ℤ) (s : CevcUsecase) : Event → Prop
  | .writeTimeSeriesList data => PlanAnswered tool now s data
  | .writeIncentiveTableData data => IncentivesAnswered tool now s data
  | .heartbeatTimeout => True
  | .brokerFound => True

/-- What a message must be like for everything to go right. -/
def EventFits (tool : Toolchain) (now : ℤ) (s : CevcUsecase) : Event → Prop
  | .writeTimeSeriesList data => PlanFits tool now s data ∧
      ∀ slot ∈ planSlots (planEntries data), (slot.planSlot tool).InRange
  | .writeIncentiveTableData data => IncentivesFit tool s data
  | .heartbeatTimeout => True
  | .brokerFound => True

theorem eventRight_of_fits {e : Event} (h : EventFits tool now s e) : EventRight tool now s e := by
  cases e with
  | writeTimeSeriesList data => exact (planAnswered_iff data).mpr h.1
  | writeIncentiveTableData data => exact (incentivesAnswered_iff data).mpr h
  | heartbeatTimeout | brokerFound => trivial

theorem lastSlots_subset (entries : List TimeSeriesData) :
    lastSlots entries ⊆ planSlots entries := by
  rcases List.eq_nil_or_concat entries with rfl | ⟨entries, ts, rfl⟩
  · exact List.Subset.refl _
  · intro slot hslot
    simp only [lastSlots, planSlots, List.concat_eq_append, List.getLast?_append,
      List.getLast?_singleton, Option.some_or, Option.map_some, Option.getD_some,
      List.flatMap_append, List.mem_append, List.flatMap_cons, List.flatMap_nil,
      List.append_nil] at hslot ⊢
    exact .inr hslot

/-- The slots of the stored plan stay in range. -/
theorem inRange_step {e : Event} (hplan : ∀ slot ∈ s.receivedChargingPlan, slot.InRange)
    (h : EventFits tool now s e) :
    ∀ slot ∈ (step tool now s e).1.receivedChargingPlan, slot.InRange := by
  cases e with
  | writeTimeSeriesList data =>
    change ∀ slot ∈ (writeTimeSeriesList tool now s data).1.receivedChargingPlan, slot.InRange
    rcases eq_or_ne (planEntries data) [] with hnone | hsome
    · rw [writeTimeSeriesList_none hnone]
      exact hplan
    · have hstored : (writeTimeSeriesList tool now s data).1.receivedChargingPlan =
          storedPlan tool (lastSlots (planEntries data)) := by
        rw [writeTimeSeriesList_some hsome]
        split <;> rfl
      rw [hstored]
      intro slot hslot
      obtain ⟨given, hgiven, rfl⟩ := List.mem_map.mp (List.mem_of_mem_take hslot)
      exact h.2 given (lastSlots_subset _ hgiven)
  | writeIncentiveTableData data =>
    change ∀ slot ∈ (writeIncentiveTableData tool now s data).1.receivedChargingPlan, slot.InRange
    cases htables : data.bind IncentiveTableData.incentiveTable with
    | none =>
      rw [writeIncentiveTableData_none htables]
      exact hplan
    | some tables =>
      rw [writeIncentiveTableData_some htables]
      split <;> exact hplan
  | heartbeatTimeout =>
    change ∀ slot ∈ (receiveHeartbeatTimeout tool now s).receivedChargingPlan, slot.InRange
    have hcleared : (receiveHeartbeatTimeout tool now s).receivedChargingPlan =
        if s.chargingPlanValid then [] else s.receivedChargingPlan := by
      unfold receiveHeartbeatTimeout invalidateBrokerData CevcUsecase.updateApiState
      cases s.chargingPlanValid <;> cases s.incentivesValid <;> rfl
    rw [hcleared]
    split
    · exact fun _ h => absurd h List.not_mem_nil
    · exact hplan
  | brokerFound => exact hplan

/-- In a run of events that fit, every write is answered as it should be and the target power is
right at every time. -/
theorem broker_run_right (tool : Toolchain) (events : List (ℤ × Event))
    (h : Meets (advance tool) (fun s e => EventFits tool e.1 s e.2) {} events) :
    Meets (advance tool) (fun s e => EventRight tool e.1 s e.2) {} events ∧
      ∀ before after, events = before ++ after →
        TargetRight tool (run (advance tool) {} before) := by
  constructor
  · exact h.mono fun _ _ => eventRight_of_fits
  · rintro before after rfl
    apply targetRight_of_inRange
    have hstep : ∀ (s : CevcUsecase) (e : ℤ × Event),
        (∀ slot ∈ s.receivedChargingPlan, slot.InRange) → EventFits tool e.1 s e.2 →
        ∀ slot ∈ (advance tool s e).receivedChargingPlan, slot.InRange :=
      fun _ _ hplan hfits => inRange_step hplan hfits
    exact h.append.1.invariant hstep fun _ hslot => absurd hslot List.not_mem_nil

/-- A plan with some powers, a quarter of an hour each. -/
def planWrite (powers : List Int32) : Event :=
  .writeTimeSeriesList (some ⟨some [{
    timeSeriesId := some 3
    timePeriod := some ⟨some "1970-01-02T00:00:00Z"⟩
    timeSeriesSlot := some (powers.map fun power => { value := some ⟨some power, none⟩ }) }]⟩)

/-- An incentive slot for each of some tier boundaries, without an interval. -/
def incentiveWrite (bounds : List Int32) : Event :=
  .writeIncentiveTableData (some ⟨some [⟨some (bounds.map fun bound =>
    { tier := some [{ boundary := some [⟨some ⟨some bound, none⟩, none⟩] }] })⟩]⟩)

theorem planSlot_inRange {power : Int32} (hpower : power ≠ -1) :
    (TimeSeriesSlot.planSlot tool { value := some ⟨some power, none⟩ }).InRange where
  nonneg := by change (0 : ℤ) ≤ 900; decide
  fits := by change (900 : ℤ) < 2 ^ 31; decide
  power h := absurd h hpower

theorem broker_run_right_two :
    Meets (advance utcToolchain) (fun s e => EventRight utcToolchain e.1 s e.2) {}
        [(86400, planWrite [5000, 7000]), (86500, incentiveWrite [1000])] ∧
      ∀ before after, [(86400, planWrite [5000, 7000]), (86500, incentiveWrite [1000])] =
        before ++ after → TargetRight utcToolchain (run (advance utcToolchain) {} before) := by
  apply broker_run_right utcToolchain
  refine ⟨⟨?_, ?_⟩, ⟨?_, ?_⟩, trivial⟩
  · exact ⟨rfl, by decide⟩
  · intro slot hslot
    change slot ∈ [5000, 7000].map (fun power => { value := some ⟨some power, none⟩ }) ++ []
      at hslot
    rw [List.append_nil] at hslot
    obtain ⟨power, hpower, rfl⟩ := List.mem_map.mp hslot
    apply planSlot_inRange
    rcases List.mem_pair.mp hpower with rfl | rfl <;> decide
  · intro a ha b hb _
    rw [List.mem_singleton.mp ha, List.mem_singleton.mp hb]
  · decide

/-- The use case with a plan of one slot. -/
def plannedUsecase : CevcUsecase := advance utcToolchain {} (86400, planWrite [5000])

/-- A plan without slots is rejected, but clears the plan stored before. Of two incentive slots
without an interval only the second is stored, although the write is accepted. -/
theorem writes_not_atomic :
    (plannedUsecase.receivedChargingPlan = [⟨900, 5000⟩] ∧
        (step utcToolchain 86500 plannedUsecase (planWrite [])).2 = some .commandRejected ∧
        (step utcToolchain 86500 plannedUsecase (planWrite [])).1.receivedChargingPlan = []) ∧
      (step utcToolchain 86400 {} (incentiveWrite [1000, 2000])).2 = some .noError ∧
      ¬ EventRight utcToolchain 86400 {} (incentiveWrite [1000, 2000]) := by
  refine ⟨⟨by decide, by decide, by decide⟩, by decide, ?_⟩
  intro hright
  have hsame := ((incentivesAnswered_iff _).mp hright).1 _ List.mem_cons_self _
    (List.mem_cons_of_mem _ List.mem_cons_self) rfl
  exact absurd hsame (by decide)

end Esp32Firmware.Eebus.CoordinatedCharging
