import Esp32Firmware.Eco.Update

/-!
# Which chargers the plan of a charger depends on

The loop of `update` shares the remaining time and the buffer of cheap quarter hours. The
buffer never reaches another charger. The remaining time does: the park time of a charger
shortens it for every later one. A charger is planned independently exactly if the
earlier ones leave it the same number of quarter hours.
-/

namespace Esp32Firmware.Eco

variable {env : Env} {prices : DayAheadPrices} {eco : State} {done : Option ChargeDecision}
  {endTime : UInt32}

/-- The loop plans cheap quarter hours for this charger. -/
def IsPlanned (env : Env) (eco : State) (endTime1m : UInt32) (c : Charger) : Prop :=
  c.start ≠ 0 ∧ ¬ desiredAmount1m eco.chargePlan ≤ c.amount ∧
    yieldForecastAbove env eco.config c.start endTime1m = false

instance (c : Charger) : Decidable (IsPlanned env eco endTime c) :=
  inferInstanceAs (Decidable (_ ∧ _ ∧ _))

/-- The shared remaining time after one charger. -/
def afterCharger (env : Env) (eco : State) (endTime1m : UInt32) (durationRemaining1m : UInt32)
    (c : Charger) : UInt32 :=
  if IsPlanned env eco endTime1m c then limitToParkTime env eco.config c durationRemaining1m
  else durationRemaining1m

/-- The remaining time for charger `i`: until the departure, and limited by the park time
of every planned charger up to `i`. -/
def remainingFor (env : Env) (eco : State) (chargers : List Charger) (endTime1m : UInt32)
    (i : Nat) : UInt32 :=
  (((chargers.map (updateCharge env)).take (i + 1)).foldl (afterCharger env eco endTime1m)
    (endTime1m - env.timestampMinutes))

/-- Two remaining times are the same number of quarter hours; a charger that keeps the
decision to charge fast also sees whether any time is left. -/
def SameRemaining (env : Env) (c : Charger) (a b : UInt32) : Prop :=
  durationSlots a = durationSlots b ∧
    (c.lastCharge15m = env.timestampMinutes / 15 → c.lastChargeDecision = .fast → (a = 0 ↔ b = 0))

/-- The chargers before `i` leave it the same time in both lists of chargers. -/
def LeavesSameTime (env : Env) (eco : State) (others : List Charger) (i : Nat) : Prop :=
  eco.config.enable = true → eco.chargePlan.enable = true →
    ∀ endTime1m, Eco.endTime1m env eco = .ahead endTime1m →
      ∀ c, eco.chargers[i]? = some c → IsPlanned env eco endTime1m (updateCharge env c) →
        SameRemaining env (updateCharge env c)
          (remainingFor env eco eco.chargers endTime1m i)
          (remainingFor env eco others endTime1m i)

/-- The decision and the chart of charger `i`. -/
def visible (eco : State) (i : Nat) : Option (ChargeDecision × List Bool) :=
  eco.chargers[i]?.map fun c => (c.chargeDecision, c.chart)

def State.withThresholds (eco : State) (t : PriceThresholds) : State :=
  { eco with config := { eco.config with toPriceThresholds := t } }

def State.withChargers (eco : State) (chargers : List Charger) : State :=
  { eco with chargers := chargers }

/-- The buffer of cheap quarter hours is only written by queries that succeed. -/
def GoodBuffer (prices : DayAheadPrices) (cheapHours : Slots) : Prop :=
  prices.pricesSortedAvailable = false → cheapHours = Slots.empty

theorem goodBuffer_empty : GoodBuffer prices Slots.empty := by
  intro _
  rfl

variable {buffer : Slots} {duration : UInt8} {c : Charger} {i n : Nat}

/-- The entries of the window after a query, whatever the buffer held before. -/
theorem getCheap15m_window (hgood : GoodBuffer prices buffer) (startTime : Int)
    (duration amount : UInt8) {k : Nat} (hk : k < duration.toNat) :
    (prices.getCheap15m startTime duration amount buffer).2 k
      = (prices.getCheap15m startTime duration amount Slots.empty).2 k := by
  cases havail : prices.pricesSortedAvailable with
  | false => rw [hgood havail]
  | true =>
    have hok : ∀ hours : Slots, (prices.getCheap15m startTime duration amount hours).1 = true := by
      intro hours
      rw [DayAheadPrices.getCheap15m, DayAheadPrices.getSlots15m_fst, havail]
      simpa using by omega
    rw [DayAheadPrices.getCheap15m, DayAheadPrices.getSlots15m_apply (hok buffer) hk,
      DayAheadPrices.getSlots15m_apply (hok Slots.empty) hk]

theorem getCheap15m_fst (prices : DayAheadPrices) (buffer : Slots) (startTime : Int) (duration amount : UInt8) :
    (prices.getCheap15m startTime duration amount buffer).1
      = (prices.getCheap15m startTime duration amount Slots.empty).1 := by
  rw [DayAheadPrices.getCheap15m, DayAheadPrices.getSlots15m_fst, DayAheadPrices.getSlots15m_fst]

/-- A query that succeeds looks at a window of at least one quarter hour. -/
theorem window_pos_of_ok {startTime : Int} {amount : UInt8}
    (hok : (prices.getCheap15m startTime duration amount buffer).1 = true) :
    0 < duration.toNat := by
  rw [DayAheadPrices.getCheap15m, DayAheadPrices.getSlots15m_fst] at hok
  simp only [Bool.and_eq_true, decide_eq_true_eq] at hok
  exact hok.2

section

variable (hgood : GoodBuffer prices buffer) (startTime : Int) (duration amount : UInt8)
include hgood

theorem goodBuffer_getCheap15m :
    GoodBuffer prices (prices.getCheap15m startTime duration amount buffer).2 := by
  intro havail
  have hfail : (prices.getCheap15m startTime duration amount buffer).1 = false := by
    rw [DayAheadPrices.getCheap15m, DayAheadPrices.getSlots15m_fst, havail, Bool.false_and]
  rw [DayAheadPrices.getCheap15m] at hfail ⊢
  rw [DayAheadPrices.getSlots15m_failed hfail]
  exact hgood havail

/-- The first decision on the current quarter hour does not read the buffer's past. -/
theorem isCheap_eq : ((prices.getCheap15m startTime duration amount buffer).1
        && (prices.getCheap15m startTime duration amount buffer).2 0)
      = ((prices.getCheap15m startTime duration amount Slots.empty).1
        && (prices.getCheap15m startTime duration amount Slots.empty).2 0) := by
  cases hok : (prices.getCheap15m startTime duration amount buffer).1 with
  | false =>
    have hempty := getCheap15m_fst prices buffer startTime duration amount
    rw [← hempty, hok, Bool.false_and, Bool.false_and]
  | true =>
    have hempty := getCheap15m_fst prices buffer startTime duration amount
    rw [← hempty, hok, getCheap15m_window hgood _ _ _ (window_pos_of_ok hok)]

end

/-- A chart only reads the entries it is given the length of. -/
theorem chartData_congr {a b : Slots} {count : Nat} (h : ∀ k < count, a k = b k)
    (useDefault : Bool) :
    chartData env prices eco a count useDefault = chartData env prices eco b count useDefault := by
  have hinput : (fun k => if k < count then a k else false)
      = (fun k => if k < count then b k else false) := by
    funext k
    split
    · next hk => exact h k hk
    · rfl
  simp only [chartData, hinput]

/-- A charger as the loop plans it with a remaining time and an unused buffer. -/
def plannedWith (env : Env) (prices : DayAheadPrices) (eco : State)
    (priceDecision : Option ChargeDecision) (endTime1m durationRemaining1m : UInt32)
    (c : Charger) : Charger :=
  (planCharger env prices eco priceDecision endTime1m ⟨durationRemaining1m, Slots.empty⟩ c).1

/-- The remaining time does not matter for a charger that is not planned. -/
theorem planCharger_of_not_planned (hc : ¬ IsPlanned env eco endTime c) (shared : Shared)
    (durationRemaining1m : UInt32) :
    planCharger env prices eco done endTime shared c
      = (plannedWith env prices eco done endTime durationRemaining1m c, shared) := by
  rw [plannedWith]
  by_cases hstart : c.start = 0
  · simp [planCharger, hstart]
  · by_cases hamount : desiredAmount1m eco.chargePlan ≤ c.amount
    · simp [planCharger, hstart, hamount]
    · have hforecast : yieldForecastAbove env eco.config c.start endTime = true := by
        by_contra hno
        exact hc ⟨hstart, hamount, by simpa using hno⟩
      simp [planCharger, hstart, hforecast]

theorem plannedWith_of_not_planned (hc : ¬ IsPlanned env eco endTime c) (a b : UInt32) :
    plannedWith env prices eco done endTime a c = plannedWith env prices eco done endTime b c := by
  rw [plannedWith, planCharger_of_not_planned hc _ b]

/-- The query of a planned charger. -/
def queryOf (env : Env) (prices : DayAheadPrices) (eco : State) (durationRemaining1m : UInt32)
    (c : Charger) (buffer : Slots) : Bool × Slots :=
  prices.getCheap15m (asInt32 env.timestampMinutes) (durationSlots durationRemaining1m)
    (amountSlots (desiredAmount1m eco.chargePlan / 15 - c.amount / 15)) buffer

/-- The decision for a planned charger. -/
def decided (env : Env) (priceDecision : Option ChargeDecision) (durationRemaining1m : UInt32)
    (c : Charger) (isCheap : Bool) : Charger :=
  match priceDecision with
  | some decision => { c with chargeDecision := decision }
  | none => slotDecision env c durationRemaining1m isCheap

/-- What one iteration does for a planned charger. -/
theorem planCharger_planned (hc : IsPlanned env eco endTime c) (shared : Shared) :
    planCharger env prices eco done endTime shared c
      = let d := limitToParkTime env eco.config c shared.durationRemaining1m
        let query := queryOf env prices eco d c shared.cheapHours
        ({ decided env done d c (query.1 && query.2 0) with
            chart := chartData env prices eco query.2 (durationSlots d).toNat false },
          ⟨d, query.2⟩) := by
  obtain ⟨hstart, hamount, hforecast⟩ := hc
  simp only [planCharger, if_neg hstart, if_neg hamount, hforecast]
  cases done with
  | none | some decision => rfl

/-- One iteration, with any buffer that earlier iterations can have left: the charger
comes out as with an unused one, and only the remaining time is passed on. -/
theorem planCharger_spec {shared : Shared} (hgood : GoodBuffer prices shared.cheapHours)
    (c : Charger) :
    (planCharger env prices eco done endTime shared c).1
        = plannedWith env prices eco done endTime shared.durationRemaining1m c ∧
      (planCharger env prices eco done endTime shared c).2.durationRemaining1m
        = afterCharger env eco endTime shared.durationRemaining1m c ∧
      GoodBuffer prices (planCharger env prices eco done endTime shared c).2.cheapHours := by
  by_cases hc : IsPlanned env eco endTime c
  · rw [plannedWith, planCharger_planned hc, planCharger_planned hc, afterCharger, if_pos hc]
    refine ⟨?_, rfl, goodBuffer_getCheap15m hgood _ _ _⟩
    dsimp only [queryOf]
    rw [isCheap_eq hgood]
    congr 1
    apply chartData_congr
    intro k hk
    exact getCheap15m_window hgood _ _ _ hk
  · rw [planCharger_of_not_planned hc shared shared.durationRemaining1m, afterCharger, if_neg hc]
    exact ⟨rfl, rfl, hgood⟩

/-- Every charger of the loop is planned with the time that the chargers up to it leave. -/
theorem planChargers_get (chargers : List Charger) {shared : Shared}
    (hgood : GoodBuffer prices shared.cheapHours) (i : Nat) :
    (planChargers env prices eco done endTime shared chargers)[i]?
      = chargers[i]?.map (plannedWith env prices eco done endTime
          ((chargers.take i).foldl (afterCharger env eco endTime) shared.durationRemaining1m)) := by
  induction chargers generalizing shared i with
  | nil => simp [planChargers]
  | cons c rest ih =>
    obtain ⟨hfst, hduration, hgood'⟩ := @planCharger_spec env prices eco done endTime _ hgood c
    rw [planChargers]
    cases i with
    | zero => simp [hfst]
    | succ i =>
      simp only [List.getElem?_cons_succ, List.take_succ_cons, List.foldl_cons]
      rw [ih hgood' i, hduration]

theorem foldl_take_succ {chargers : List Charger} (hget : chargers[i]? = some c) (d : UInt32) :
    (chargers.take (i + 1)).foldl (afterCharger env eco endTime) d = afterCharger env eco endTime
          ((chargers.take i).foldl (afterCharger env eco endTime) d) c := by
  rw [List.take_add_one, hget, Option.toList_some, List.foldl_append, List.foldl_cons,
    List.foldl_nil]

/-- A planned charger with the time that is left for it. -/
def plannedFor (env : Env) (prices : DayAheadPrices) (eco : State)
    (priceDecision : Option ChargeDecision) (c : Charger) (d : UInt32) : Charger :=
  let query := queryOf env prices eco d c Slots.empty
  { decided env priceDecision d c (query.1 && query.2 0) with
    chart := chartData env prices eco query.2 (durationSlots d).toNat false }

/-- The loop gives a planned charger the time `remainingFor` it. -/
theorem planChargers_planned (chargers : List Charger) (hget : chargers[i]? = some c)
    (hc : IsPlanned env eco endTime (updateCharge env c)) :
    (planChargers env prices eco done endTime ⟨endTime - env.timestampMinutes, Slots.empty⟩
        (chargers.map (updateCharge env)))[i]?
      = some (plannedFor env prices eco done (updateCharge env c)
          (remainingFor env eco chargers endTime i)) := by
  have hupdated : (chargers.map (updateCharge env))[i]? = some (updateCharge env c) := by
    rw [List.getElem?_map, hget, Option.map_some]
  rw [planChargers_get _ goodBuffer_empty, hupdated, Option.map_some, plannedWith,
    planCharger_planned hc, remainingFor, foldl_take_succ hupdated, afterCharger, if_pos hc]
  rfl

/-- The same number of quarter hours gives the same decision and chart. -/
theorem plannedFor_visible {c : Charger} {a b : UInt32} (h : SameRemaining env c a b) :
    (plannedFor env prices eco done c a).chargeDecision
        = (plannedFor env prices eco done c b).chargeDecision ∧
      (plannedFor env prices eco done c a).chart = (plannedFor env prices eco done c b).chart := by
  obtain ⟨hslots, hkeeps⟩ := h
  have hquery : queryOf env prices eco a c Slots.empty = queryOf env prices eco b c Slots.empty := by
    rw [queryOf, queryOf, hslots]
  refine ⟨?_, by simp only [plannedFor, hquery, hslots]⟩
  -- the decision also reads whether any time is left
  have hzero : durationSlots 0 = 0 := by decide
  have hempty : ∀ d : UInt32, durationSlots d = 0 →
      (queryOf env prices eco d c Slots.empty).1 = false := by
    intro d hd
    rw [queryOf, DayAheadPrices.getCheap15m, DayAheadPrices.getSlots15m_fst, hd]
    simp
  simp only [plannedFor, ← hquery]
  cases done with
  | some decision => rfl
  | none =>
    simp only [decided, slotDecision]
    by_cases hover : c.lastCharge15m = env.timestampMinutes / 15
    · simp only [hover]
      cases hlast : c.lastChargeDecision with
      | normal => by_cases ha : a = 0 <;> by_cases hb : b = 0 <;> simp [hb]
      | fast =>
        have hiff := hkeeps hover hlast
        by_cases ha : a = 0
        · simp [ha, hiff.mp ha]
        · have hb : b ≠ 0 := fun hb => ha (hiff.mpr hb)
          simp [ha, hb]
    · simp only [hover]
      by_cases ha : a = 0
      · subst ha
        have hq : (queryOf env prices eco 0 c Slots.empty).1 = false := hempty 0 hzero
        by_cases hb : b = 0 <;> simp [hb, hq]
      · by_cases hb : b = 0
        · have hq : (queryOf env prices eco a c Slots.empty).1 = false :=
            hempty a (by rw [hslots, hb, hzero])
          simp [ha, hb, hq]
        · simp [ha, hb]

/-- The way `update` takes. -/
inductive Course where
  | disabled
  | withoutPlan (priceDecision : Option ChargeDecision)
  | planned (priceDecision : Option ChargeDecision) (endTime1m : UInt32)

def courseOf (env : Env) (prices : DayAheadPrices) (eco : State) : Course :=
  if eco.config.enable = false then
    .disabled
  else
    match prices.currentPrice with
    | none => .withoutPlan none
    | some currentPrice =>
      if eco.chargePlan.enable = false then
        .withoutPlan (priceDecision eco.config currentPrice)
      else
        match Eco.endTime1m env eco with
        | .ahead endTime1m => .planned (priceDecision eco.config currentPrice) endTime1m
        | _ => .withoutPlan (priceDecision eco.config currentPrice)

/-- The chargers after an update. -/
def chargersAfter (env : Env) (prices : DayAheadPrices) (eco : State) : Course → List Charger
  | .disabled => eco.chargers
  | .withoutPlan done =>
    (eco.chargers.map (updateCharge env)).map (withoutPlan env prices eco done)
  | .planned done endTime1m =>
    planChargers env prices eco done endTime1m ⟨endTime1m - env.timestampMinutes, Slots.empty⟩
      (eco.chargers.map (updateCharge env))

theorem update_chargers (env : Env) (prices : DayAheadPrices) (eco : State) :
    (update env prices eco).chargers = chargersAfter env prices eco (courseOf env prices eco) := by
  rw [update, courseOf]
  cases eco.config.enable with
  | false => rfl
  | true =>
    cases prices.currentPrice with
    | none => rfl
    | some currentPrice =>
      cases eco.chargePlan.enable with
      | false => rfl
      | true =>
        cases Eco.endTime1m env eco with
        | midnightNotAvailable | passed endTime1m | ahead endTime1m => rfl

theorem courseOf_planned {endTime1m : UInt32} (h : courseOf env prices eco = .planned done endTime1m) :
    eco.config.enable = true ∧ eco.chargePlan.enable = true ∧
      Eco.endTime1m env eco = .ahead endTime1m := by
  rw [courseOf] at h
  cases henable : eco.config.enable with
  | false => simp [henable] at h
  | true =>
    cases hplan : eco.chargePlan.enable with
    | false => cases hprice : prices.currentPrice <;> simp [henable, hplan, hprice] at h
    | true =>
      cases hprice : prices.currentPrice with
      | none => simp [henable, hprice] at h
      | some currentPrice =>
        cases hend : Eco.endTime1m env eco with
        | midnightNotAvailable | passed other => simp [henable, hprice, hend] at h
        | ahead other =>
          simp only [henable, hplan, hprice, hend, Bool.true_eq_false, if_false,
            Course.planned.injEq] at h
          exact ⟨rfl, rfl, by rw [h.2]⟩

/-- A planned charger after an update. -/
theorem visible_planned (hcourse : courseOf env prices eco = .planned done endTime)
    (hget : eco.chargers[i]? = some c) (hc : IsPlanned env eco endTime (updateCharge env c)) :
    visible (update env prices eco) i = some
        ((plannedFor env prices eco done (updateCharge env c)
            (remainingFor env eco eco.chargers endTime i)).chargeDecision,
          (plannedFor env prices eco done (updateCharge env c)
            (remainingFor env eco eco.chargers endTime i)).chart) := by
  rw [visible, update_chargers, hcourse, chargersAfter, planChargers_planned _ hget hc,
    Option.map_some]

/-- The result of `update` for charger `i` depends on the other chargers through the time
they leave it, and on nothing else. -/
theorem visible_update_of_same_time (prices : DayAheadPrices) {others : List Charger}
    (hown : others[i]? = eco.chargers[i]?) (hsame : LeavesSameTime env eco others i) :
    visible (update env prices eco) i = visible (update env prices (eco.withChargers others)) i := by
  have hcourse : courseOf env prices (eco.withChargers others) = courseOf env prices eco := rfl
  cases hway : courseOf env prices eco with
  | disabled =>
    rw [visible, visible, update_chargers, update_chargers, hcourse, hway]
    simp [chargersAfter, State.withChargers, hown]
  | withoutPlan done =>
    have hwithout : withoutPlan env prices (eco.withChargers others) done
        = withoutPlan env prices eco done := rfl
    rw [visible, visible, update_chargers, update_chargers, hcourse, hway, chargersAfter,
      chargersAfter, hwithout]
    simp [State.withChargers, hown]
  | planned done endTime1m =>
    obtain ⟨henable, hplan, hend⟩ := courseOf_planned hway
    cases hget : eco.chargers[i]? with
    | none =>
      rw [visible, visible, update_chargers, update_chargers, hcourse, hway, chargersAfter,
        chargersAfter, planChargers_get _ goodBuffer_empty, planChargers_get _ goodBuffer_empty,
        List.getElem?_map, List.getElem?_map, hget]
      simp [State.withChargers, hown, hget]
    | some c =>
      have hget' : (eco.withChargers others).chargers[i]? = some c := hown.trans hget
      by_cases hc : IsPlanned env eco endTime1m (updateCharge env c)
      · have hc' : IsPlanned env (eco.withChargers others) endTime1m (updateCharge env c) := hc
        obtain ⟨hdecision, hchart⟩ := @plannedFor_visible env prices eco done _ _ _
          (hsame henable hplan endTime1m hend c hget hc)
        rw [visible_planned hway hget hc, visible_planned (hcourse.trans hway) hget' hc',
          hdecision, hchart]
        rfl
      · have hc' : ¬ IsPlanned env (eco.withChargers others) endTime1m (updateCharge env c) :=
          hc
        rw [visible, visible, update_chargers, update_chargers, hcourse, hway, chargersAfter,
          chargersAfter, planChargers_get _ goodBuffer_empty,
          planChargers_get _ goodBuffer_empty, List.getElem?_map, List.getElem?_map, hget, hget']
        simp only [Option.map_some]
        rw [plannedWith_of_not_planned hc _ 0, plannedWith_of_not_planned hc' _ 0]
        rfl

def noThresholds : PriceThresholds where
  chargeBelow := false
  chargeBelowThreshold := 0
  blockAbove := false
  blockAboveThreshold := 0

/-- Prices from now on of which quarter hour `n` is the cheapest and the last. -/
def lastCheapest (now : UInt32) (n : Nat) : DayAheadPrices :=
  DayAheadPrices.updateCurrentPrice now (DayAheadPrices.updatePricesSorted
    { prices := List.replicate n 1 ++ [0]
      resolution := .min15
      firstDate := now
      currentPrice := none
      pricesSortedAvailable := false
      pricesSorted := []
      pricesSortedFirstDate := 0 })

variable (now : UInt32)

theorem lastCheapest_available (n : Nat) :
    (lastCheapest now n).pricesSortedAvailable = true := by
  simp [lastCheapest, DayAheadPrices.updateCurrentPrice, DayAheadPrices.updatePricesSorted]

theorem lastCheapest_firstDate (n : Nat) :
    (lastCheapest now n).pricesSortedFirstDate = asInt32 now := by
  simp [lastCheapest, DayAheadPrices.updateCurrentPrice, DayAheadPrices.updatePricesSorted]

theorem lastCheapest_currentPrice (n : Nat) :
    ∃ currentPrice, (lastCheapest now n).currentPrice = some currentPrice := by
  have hprice : (lastCheapest now n).currentPrice = (List.replicate n (1 : Int) ++ [0])[0]? := by
    simp [lastCheapest, DayAheadPrices.updateCurrentPrice, DayAheadPrices.updatePricesSorted]
  rw [hprice]
  cases n with
  | zero => exact ⟨0, rfl⟩
  | succ n => exact ⟨1, rfl⟩

theorem lastCheapest_sorted (hn : n < dayAheadPriceMaxAmount) :
    ∃ rest, (lastCheapest now n).pricesSorted = (n, 0) :: rest := by
  have hsorted : (lastCheapest now n).pricesSorted = ((List.range (n + 1)).map fun i =>
          (i, (List.replicate n (1 : Int) ++ [0]).getD i 0)).insertionSort
            (fun a b => a.2 ≤ b.2) := by
    have hcount : min (n + 1) dayAheadPriceMaxAmount = n + 1 := by omega
    simp [lastCheapest, DayAheadPrices.updateCurrentPrice, DayAheadPrices.updatePricesSorted,
      DayAheadPrices.pricesUnsorted, DayAheadPrices.priceAt, DayAheadPrices.resolutionMul, hcount]
  generalize hl : ((List.range (n + 1)).map fun i =>
    (i, (List.replicate n (1 : Int) ++ [0]).getD i 0)) = unsorted at hsorted
  have hmem : (n, (0 : Int)) ∈ unsorted := by
    rw [← hl]
    exact List.mem_map.mpr ⟨n, by simp, by simp⟩
  -- only quarter hour `n` has a price of 0 or less
  have honly : ∀ e ∈ unsorted, e.2 ≤ 0 → e = (n, 0) := by
    rw [← hl]
    intro e he hle
    obtain ⟨i, hi, rfl⟩ := List.mem_map.mp he
    rw [List.mem_range] at hi
    by_cases hin : i < n
    · simp [List.getElem?_append, hin] at hle
    · have : i = n := by omega
      subst this
      simp
  have hpair := List.pairwise_insertionSort (fun a b : Nat × Int => a.2 ≤ b.2) unsorted
  rw [hsorted]
  cases hhead : unsorted.insertionSort (fun a b => a.2 ≤ b.2) with
  | nil =>
    have hin := (List.mem_insertionSort (fun a b : Nat × Int => a.2 ≤ b.2)).mpr hmem
    rw [hhead] at hin
    cases hin
  | cons first rest =>
    have hin := (List.mem_insertionSort (fun a b : Nat × Int => a.2 ≤ b.2)).mpr hmem
    have hfirst : first ∈ unsorted := by
      rw [← List.mem_insertionSort (fun a b : Nat × Int => a.2 ≤ b.2), hhead]
      exact List.mem_cons_self
    rw [hhead] at hin hpair
    have hle : first.2 ≤ 0 := by
      rcases List.mem_cons.mp hin with heq | htail
      · rw [← heq]
      · exact (List.pairwise_cons.mp hpair).1 _ htail
    exact ⟨rest, by rw [honly first hfirst hle]⟩

theorem durationSlots_le (d : UInt32) : (durationSlots d).toNat ≤ maxChartSlots15m := by
  rw [durationSlots, UInt8.toNat_ofNat']
  omega

theorem amountSlots_pos {plan : ChargePlan} {amount : UInt32}
    (h : ¬ desiredAmount1m plan ≤ amount) :
    0 < (amountSlots (desiredAmount1m plan / 15 - amount / 15)).toNat := by
  have hplan : plan.amount.toNat < 65536 := plan.amount.toNat_lt
  have hdesired : (desiredAmount1m plan).toNat = plan.amount.toNat * 60 := by
    rw [desiredAmount1m, UInt32.toNat_mul]
    simp
    omega
  rw [UInt32.le_iff_toNat_le, hdesired] at h
  have hsub : (desiredAmount1m plan / 15 - amount / 15).toNat
      = plan.amount.toNat * 60 / 15 - amount.toNat / 15 := by
    rw [UInt32.toNat_sub_of_le, UInt32.toNat_div, UInt32.toNat_div, hdesired]
    · rfl
    · rw [UInt32.le_iff_toNat_le, UInt32.toNat_div, UInt32.toNat_div, hdesired]
      show amount.toNat / 15 ≤ plan.amount.toNat * 60 / 15
      omega
  rw [amountSlots, UInt8.toNat_ofNat', hsub]
  simp only [maxChartSlots15m]
  omega

/-- A query that reaches the cheapest quarter hour marks it. -/
theorem lastCheapest_getCheap {amount : UInt8} (hn : n < duration.toNat)
    (hmax : n < dayAheadPriceMaxAmount) (hamount : 0 < amount.toNat) :
    ((lastCheapest now n).getCheap15m (asInt32 now) duration amount Slots.empty).2 n = true := by
  have hok : ((lastCheapest now n).getCheap15m (asInt32 now) duration amount
      Slots.empty).1 = true := by
    rw [DayAheadPrices.getCheap15m, DayAheadPrices.getSlots15m_fst, lastCheapest_available]
    simpa using by omega
  obtain ⟨rest, hsorted⟩ := lastCheapest_sorted now hmax
  rw [DayAheadPrices.getCheap15m, DayAheadPrices.getSlots15m_apply hok hn, hsorted,
    lastCheapest_firstDate, decide_eq_true_eq, DayAheadPrices.marked]
  obtain ⟨more, hmore⟩ : ∃ more, amount.toNat = more + 1 := ⟨amount.toNat - 1, by omega⟩
  simp [hmore, hn]

theorem chartData_noThresholds (prices : DayAheadPrices) (chart : Slots) (count : Nat) :
    chartData env prices (eco.withThresholds noThresholds) chart count false
      = (List.range (8 * ((count + 7) / 8))).map fun k => decide (k < count) && chart k := by
  simp only [State.withThresholds, noThresholds]
  apply List.map_congr_left
  intro k _
  by_cases hk : k < count
  · simp [hk]
  · simp [hk]

/-- More quarter hours give another chart when the cheapest one is the first of them. -/
theorem plannedFor_chart_ne (hc : IsPlanned env eco endTime c) {a b : UInt32}
    (hab : (durationSlots a).toNat < (durationSlots b).toNat) :
    (plannedFor env (lastCheapest env.timestampMinutes (durationSlots a).toNat)
        (eco.withThresholds noThresholds) none c a).chart
      ≠ (plannedFor env (lastCheapest env.timestampMinutes (durationSlots a).toNat)
        (eco.withThresholds noThresholds) none c b).chart := by
  intro heq
  have hmax : (durationSlots a).toNat < dayAheadPriceMaxAmount := by
    have hle := durationSlots_le a
    simp only [maxChartSlots15m, dayAheadPriceMaxAmount] at hle ⊢
    omega
  have hmark := lastCheapest_getCheap env.timestampMinutes hab hmax (amountSlots_pos hc.2.1)
  simp only [plannedFor, chartData_noThresholds, queryOf] at heq
  have hentry := congrArg (fun chart : List Bool => chart.getD (durationSlots a).toNat false) heq
  have hinside : (durationSlots a).toNat < 8 * (((durationSlots b).toNat + 7) / 8) := by omega
  have hmark' : (DayAheadPrices.getCheap15m
      (lastCheapest env.timestampMinutes (durationSlots a).toNat) (asInt32 env.timestampMinutes)
      (durationSlots b)
      (amountSlots (desiredAmount1m (eco.withThresholds noThresholds).chargePlan / 15
        - c.amount / 15)) Slots.empty).2 (durationSlots a).toNat = true := hmark
  by_cases hpad : (durationSlots a).toNat < 8 * (((durationSlots a).toNat + 7) / 8)
  · simp [hinside, hpad, hab, hmark'] at hentry
  · simp [hinside, hpad, hab, hmark'] at hentry

/-- A charger that keeps the decision to charge fast stops only when no time is left. -/
theorem plannedFor_decision_ne (hover : c.lastCharge15m = env.timestampMinutes / 15)
    (hlast : c.lastChargeDecision = .fast) {b : UInt32} (hb : b ≠ 0) :
    (plannedFor env prices eco none c 0).chargeDecision
      ≠ (plannedFor env prices eco none c b).chargeDecision := by
  simp [plannedFor, decided, slotDecision, hover, hlast, hb]

theorem sameRemaining_of_visible {c : Charger} (hc : IsPlanned env eco endTime c) {a b : UInt32}
    (h : ∀ n, (plannedFor env (lastCheapest env.timestampMinutes n)
          (eco.withThresholds noThresholds) none c a).chargeDecision
        = (plannedFor env (lastCheapest env.timestampMinutes n)
          (eco.withThresholds noThresholds) none c b).chargeDecision ∧
      (plannedFor env (lastCheapest env.timestampMinutes n)
          (eco.withThresholds noThresholds) none c a).chart
        = (plannedFor env (lastCheapest env.timestampMinutes n)
          (eco.withThresholds noThresholds) none c b).chart) :
    SameRemaining env c a b := by
  constructor
  · rw [← UInt8.toNat_inj]
    by_contra hne
    rcases Nat.lt_or_gt_of_ne hne with hlt | hlt
    · exact plannedFor_chart_ne hc hlt (h _).2
    · exact plannedFor_chart_ne hc hlt (h _).2.symm
  · intro hover hlast
    constructor
    · intro ha
      by_contra hb
      subst ha
      exact plannedFor_decision_ne hover hlast hb (h 0).1
    · intro hb
      by_contra ha
      subst hb
      exact plannedFor_decision_ne hover hlast ha (h 0).1.symm

/-- Whatever the prices and their thresholds, the other chargers do not change the decision
or the chart of charger `i`, exactly if they leave it the same remaining time. -/
theorem planned_independently_iff (env : Env) (eco : State) (others : List Charger) (i : Nat)
    (hown : others[i]? = eco.chargers[i]?) :
    (∀ (prices : DayAheadPrices) (thresholds : PriceThresholds),
      visible (update env prices (eco.withThresholds thresholds)) i = visible (update env prices
            ((eco.withChargers others).withThresholds thresholds)) i) ↔
      LeavesSameTime env eco others i := by
  constructor
  · intro hall henable hplan endTime1m hend c hget hc
    apply sameRemaining_of_visible hc
    intro n
    have hsame := hall (lastCheapest env.timestampMinutes n) noThresholds
    obtain ⟨currentPrice, hprice⟩ := lastCheapest_currentPrice env.timestampMinutes n
    have hcourse : courseOf env (lastCheapest env.timestampMinutes n)
        (eco.withThresholds noThresholds) = .planned none endTime1m := by
      have henable' : (eco.withThresholds noThresholds).config.enable = true := henable
      have hplan' : (eco.withThresholds noThresholds).chargePlan.enable = true := hplan
      have hend' : Eco.endTime1m env (eco.withThresholds noThresholds) = .ahead endTime1m := hend
      rw [courseOf]
      simp only [henable', hplan', hend', hprice]
      rfl
    have hcourse' : courseOf env (lastCheapest env.timestampMinutes n)
        ((eco.withChargers others).withThresholds noThresholds) = .planned none endTime1m := hcourse
    have hget' : ((eco.withChargers others).withThresholds noThresholds).chargers[i]? = some c :=
      hown.trans hget
    rw [visible_planned hcourse hget hc, visible_planned hcourse' hget' hc] at hsame
    have hpair := Option.some.inj hsame
    exact ⟨congrArg Prod.fst hpair, congrArg Prod.snd hpair⟩
  · intro hsame prices thresholds
    have hsame' : LeavesSameTime env (eco.withThresholds thresholds) others i := hsame
    exact visible_update_of_same_time prices hown hsame'

/-- 10:00 on a day in UTC, without a forecast. -/
def tenOClock : Env where
  nowUs := 90000000000
  timestampMinutes := 29000760
  todayMidnight := some 29000160
  localtimeMidnight := fun seconds => toMinutes (seconds / 86400 * 86400 * 1000000)
  whRange := fun _ _ => none

/-- One expensive hour, then seven cheap ones. -/
def expensiveHour : DayAheadPrices :=
  DayAheadPrices.updateCurrentPrice 29000760 (DayAheadPrices.updatePricesSorted
    { prices := List.replicate 4 100 ++ List.replicate 28 10
      resolution := .min15
      firstDate := 29000760
      currentPrice := none
      pricesSortedAvailable := false
      pricesSorted := []
      pricesSortedFirstDate := 0 })

/-- A charger whose car was plugged in at `start` and has not charged. -/
def parkedSince (start : UInt32) : Charger where
  chargerState := some ⟨0, 1⟩
  start := start
  amount := 0
  chart := []
  chargeDecision := .normal
  lastCharge15m := 0
  lastSeenPlugIn := 1
  lastChargeDecision := .normal

/-- A charger without a car. -/
def unplugged : Charger :=
  { parkedSince 0 with chargerState := some ⟨0, 0⟩ }

/-- Four hours until 20:00 with a park time of eight hours. The first car has been parked
for seven hours, the second one for a minute. -/
def parkedCars : State where
  config :=
    { toPriceThresholds := noThresholds
      enable := true
      parkTime := true
      parkTimeDuration := 8
      yieldForecast := false
      yieldForecastThreshold := 0 }
  chargePlan := { enable := true, departure := .daily, time := 1200, amount := 4 }
  lastSave := 29000000
  chargers := [parkedSince 29000340, parkedSince 29000759]

/-- Without the first car the second one waits for the cheap hours, with it the second one
charges in the expensive hour. -/
theorem parked_car_changes_decision :
    [unplugged, parkedSince 29000759][1]? = parkedCars.chargers[1]? ∧
      (visible (update tenOClock expensiveHour parkedCars) 1).map Prod.fst = some .fast ∧
      (visible (update tenOClock expensiveHour
        (parkedCars.withChargers [unplugged, parkedSince 29000759])) 1).map Prod.fst
          = some .normal := by
  refine ⟨rfl, ?_, ?_⟩
  · decide
  · decide

theorem parkedCars_planned_independently_iff :
    (∀ (prices : DayAheadPrices) (thresholds : PriceThresholds),
      visible (update tenOClock prices (parkedCars.withThresholds thresholds)) 1
        = visible (update tenOClock prices ((parkedCars.withChargers
            [unplugged, parkedSince 29000759]).withThresholds thresholds)) 1) ↔
      LeavesSameTime tenOClock parkedCars [unplugged, parkedSince 29000759] 1 :=
  planned_independently_iff tenOClock parkedCars [unplugged, parkedSince 29000759] 1 rfl

end Esp32Firmware.Eco
