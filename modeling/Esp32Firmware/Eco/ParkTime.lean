import Esp32Firmware.Eco.Independence

/-!
# The park time of a charger

A planned charger may charge until the departure and until its park time is over, whichever is
first. All differences of the code are unsigned: a departure that has passed and a park time that
is over leave more than four billion minutes. The shared remaining time hides this only where the
departure or an earlier charger leaves little time.
-/

namespace Esp32Firmware.Eco

variable {env : Env} {prices : DayAheadPrices} {eco : State} {done : Option ChargeDecision}
  {endTime start d : UInt32} {c : Charger} {i : ℕ}

/-- The minutes of the park time of a car that are left: at most the configured ones. -/
def parkTimeLeft (env : Env) (config : Config) (start1m : UInt32) : ℕ :=
  (parkTimeDuration1m config).toNat - (env.timestampMinutes.toNat - start1m.toNat)

/-- A number of minutes to plan with is right. -/
structure RightDuration (env : Env) (config : Config) (endTime1m start1m d : UInt32) : Prop where
  departure : d.toNat ≤ endTime1m.toNat - env.timestampMinutes.toNat
  configured : config.parkTime = true → d ≤ parkTimeDuration1m config
  left : config.parkTime = true → d.toNat ≤ parkTimeLeft env config start1m
  elapsed : config.parkTime = true →
    (parkTimeDuration1m config).toNat ≤ env.timestampMinutes.toNat - start1m.toNat → d = 0

/-- The end of the charge plan that the default chart is drawn for. -/
def defaultEndTime (env : Env) (eco : State) : EndTime :=
  getEndTime1m env eco.chargePlan.departure eco.chargePlan.time (env.timestampMinutes.toNat * 60)

/-- The loop plans cheap quarter hours for charger `i`, whose car is there since `start1m`. -/
def InLoop (env : Env) (prices : DayAheadPrices) (eco : State) (i : ℕ)
    (endTime1m start1m : UInt32) : Prop :=
  ∃ done c, courseOf env prices eco = .planned done endTime1m ∧ eco.chargers[i]? = some c ∧
    IsPlanned env eco endTime1m (updateCharge env c) ∧ (updateCharge env c).start = start1m

/-- Charger `i` has no car and gets the default chart. -/
def HasDefaultChart (env : Env) (prices : DayAheadPrices) (eco : State) (i : ℕ)
    (endTime1m : UInt32) : Prop :=
  ∃ done loopEnd c, courseOf env prices eco = .planned done loopEnd ∧
    eco.chargers[i]? = some c ∧ (updateCharge env c).start = 0 ∧
    defaultEndTime env eco = .ahead endTime1m

/-- The minutes `update` plans with for charger `i` are right. -/
def AccountsForParkTime (env : Env) (prices : DayAheadPrices) (eco : State) (i : ℕ) : Prop :=
  (∀ endTime1m start1m, InLoop env prices eco i endTime1m start1m →
    RightDuration env eco.config endTime1m start1m
      (remainingFor env eco eco.chargers endTime1m i)) ∧
  ∀ endTime1m, HasDefaultChart env prices eco i endTime1m →
    RightDuration env eco.config endTime1m env.timestampMinutes
      (defaultDuration env eco.config endTime1m)

/-- What the unsigned difference says about the park time of a car that is left. -/
def parkLimit (env : Env) (config : Config) (start1m : UInt32) : UInt32 :=
  parkTimeDuration1m config - (env.timestampMinutes - start1m)

/-- The departure or the park time of one of these chargers leaves at most `n` minutes. -/
def LimitedTo (env : Env) (eco : State) (endTime1m : UInt32) (chargers : List Charger)
    (n : ℕ) : Prop :=
  (endTime1m - env.timestampMinutes).toNat ≤ n ∨
    eco.config.parkTime = true ∧ ∃ c ∈ chargers, IsPlanned env eco endTime1m c ∧
      (parkLimit env eco.config c.start).toNat ≤ n

/-- The first chargers after the update of their charged amounts. -/
def firstChargers (env : Env) (eco : State) (i : ℕ) : List Charger :=
  (eco.chargers.map (updateCharge env)).take i

/-- The differences do not wrap, or what they limit is short anyway. -/
def NothingWraps (env : Env) (prices : DayAheadPrices) (eco : State) (i : ℕ) : Prop :=
  (∀ endTime1m start1m, InLoop env prices eco i endTime1m start1m →
    (env.timestampMinutes ≤ endTime1m ∨
      LimitedTo env eco endTime1m (firstChargers env eco (i + 1)) 0) ∧
    (eco.config.parkTime = true → env.timestampMinutes - start1m ≤ parkTimeDuration1m eco.config ∨
        LimitedTo env eco endTime1m (firstChargers env eco i)
          (parkTimeLeft env eco.config start1m))) ∧
  ∀ endTime1m, HasDefaultChart env prices eco i endTime1m → env.timestampMinutes ≤ endTime1m ∨
      eco.config.parkTime = true ∧ parkTimeDuration1m eco.config = 0

/-- After an update charger `i` has the default chart, which looks for cheap quarter hours in the
next `d` minutes. -/
def ShowsDefaultChart (env : Env) (prices : DayAheadPrices) (eco : State) (i : ℕ)
    (d : UInt32) : Prop :=
  (∃ decision, visible (update env prices eco) i =
      some (decision, chartData env prices eco Slots.empty 0 true)) ∧
    ∀ chart count, defaultChart env prices eco chart count =
      ((prices.getCheap15m (asInt32 env.timestampMinutes) (durationSlots d)
        (amountSlots (desiredAmount1m eco.chargePlan / 15)) chart).2, (durationSlots d).toNat)

section

/-- The minutes of the default chart are those `update` plans with for a charger without a car. -/
theorem HasDefaultChart.shows (h : HasDefaultChart env prices eco i endTime) :
    ShowsDefaultChart env prices eco i (defaultDuration env eco.config endTime) := by
  obtain ⟨done, loopEnd, c, hcourse, hget, hstart, hend⟩ := h
  have hupdated : (eco.chargers.map (updateCharge env))[i]? = some (updateCharge env c) := by
    rw [List.getElem?_map, hget, Option.map_some]
  constructor
  · refine ⟨done.getD .normal, ?_⟩
    rw [visible, update_chargers, hcourse, chargersAfter, planChargers_get _ goodBuffer_empty,
      hupdated, Option.map_some, plannedWith, planCharger, if_pos hstart]
    rfl
  · intro chart count
    rw [defaultEndTime] at hend
    rw [defaultChart, hend]

theorem rightDuration_iff : RightDuration env eco.config endTime start d ↔
    d.toNat ≤ endTime.toNat - env.timestampMinutes.toNat ∧
      (eco.config.parkTime = true → d.toNat ≤ parkTimeLeft env eco.config start) := by
  constructor
  · intro h
    exact ⟨h.departure, h.left⟩
  · rintro ⟨hdeparture, hleft⟩
    constructor
    · exact hdeparture
    · intro hpark
      have := hleft hpark
      unfold parkTimeLeft at this
      rw [UInt32.le_iff_toNat_le]
      omega
    · exact hleft
    · intro hpark helapsed
      have := hleft hpark
      unfold parkTimeLeft at this
      rw [← UInt32.toNat_inj, UInt32.toNat_zero]
      omega

/-- The difference to a departure that has not passed. -/
theorem toNat_sub_le_iff (a b : UInt32) : (a - b).toNat ≤ a.toNat - b.toNat ↔ b ≤ a := by
  have ha := a.toNat_lt
  have hb := b.toNat_lt
  rw [UInt32.toNat_sub, UInt32.le_iff_toNat_le]
  omega

/-- The limit is the park time that is left exactly if the park time is not over. -/
theorem parkLimit_le_iff :
    (parkLimit env eco.config start).toNat ≤ parkTimeLeft env eco.config start ↔
    env.timestampMinutes - start ≤ parkTimeDuration1m eco.config := by
  have hnow := env.timestampMinutes.toNat_lt
  have hstart := start.toNat_lt
  have hduration := (parkTimeDuration1m eco.config).toNat_lt
  rw [UInt32.le_iff_toNat_le]
  unfold parkLimit parkTimeLeft
  rw [UInt32.toNat_sub, UInt32.toNat_sub]
  omega

end

section

variable {chargers : List Charger}

theorem toNat_min_le_iff (a b : UInt32) (n : ℕ) :
    (min a b).toNat ≤ n ↔ a.toNat ≤ n ∨ b.toNat ≤ n := by
  rw [show min a b = if a ≤ b then a else b from rfl]
  split
  next hle =>
    have := UInt32.le_iff_toNat_le.mp hle
    omega
  next hle =>
    have := UInt32.le_iff_toNat_le.not.mp hle
    omega

theorem afterCharger_le_iff (d : UInt32) (c : Charger) (n : ℕ) :
    (afterCharger env eco endTime d c).toNat ≤ n ↔
      d.toNat ≤ n ∨ eco.config.parkTime = true ∧ IsPlanned env eco endTime c ∧
        (parkLimit env eco.config c.start).toNat ≤ n := by
  unfold afterCharger limitToParkTime
  by_cases hplanned : IsPlanned env eco endTime c
  · cases hpark : eco.config.parkTime with
    | false => simp [hplanned]
    | true => simp [hplanned, toNat_min_le_iff, parkLimit]
  · simp [hplanned]

/-- The shared remaining time is the least of its limits. -/
theorem foldl_afterCharger_le_iff (chargers : List Charger) (d : UInt32) (n : ℕ) :
    (chargers.foldl (afterCharger env eco endTime) d).toNat ≤ n ↔
      d.toNat ≤ n ∨ eco.config.parkTime = true ∧ ∃ c ∈ chargers, IsPlanned env eco endTime c ∧
        (parkLimit env eco.config c.start).toNat ≤ n := by
  induction chargers generalizing d with
  | nil => simp
  | cons c rest ih =>
    rw [List.foldl_cons, ih, afterCharger_le_iff, or_assoc, ← and_or_left]
    simp only [List.mem_cons, exists_eq_or_imp]

theorem remainingFor_le_iff (n : ℕ) :
    (remainingFor env eco eco.chargers endTime i).toNat ≤ n ↔
      LimitedTo env eco endTime (firstChargers env eco (i + 1)) n :=
  foldl_afterCharger_le_iff _ _ n

/-- The own park time of a planned charger is one limit, and the others are those before it. -/
theorem remainingFor_le_iff_own (hpark : eco.config.parkTime = true)
    (hget : eco.chargers[i]? = some c) (hc : IsPlanned env eco endTime (updateCharge env c))
    (n : ℕ) :
    (remainingFor env eco eco.chargers endTime i).toNat ≤ n ↔
      (parkLimit env eco.config (updateCharge env c).start).toNat ≤ n ∨
        LimitedTo env eco endTime (firstChargers env eco i) n := by
  have hupdated : (eco.chargers.map (updateCharge env))[i]? = some (updateCharge env c) := by
    rw [List.getElem?_map, hget, Option.map_some]
  rw [remainingFor, foldl_take_succ hupdated, afterCharger_le_iff, foldl_afterCharger_le_iff,
    or_comm, LimitedTo, firstChargers]
  simp only [hpark, hc, true_and]

/-- The remaining time of the loop does not go beyond the departure. -/
theorem remainingFor_departure_iff :
    (remainingFor env eco eco.chargers endTime i).toNat ≤
        endTime.toNat - env.timestampMinutes.toNat ↔
      env.timestampMinutes ≤ endTime ∨
        LimitedTo env eco endTime (firstChargers env eco (i + 1)) 0 := by
  rw [remainingFor_le_iff]
  by_cases hle : env.timestampMinutes ≤ endTime
  · exact iff_of_true (.inl ((toNat_sub_le_iff _ _).mpr hle)) (.inl hle)
  · rw [or_iff_right hle]
    have hpassed := UInt32.le_iff_toNat_le.not.mp hle
    rw [show endTime.toNat - env.timestampMinutes.toNat = 0 by omega]

theorem rightDuration_loop_iff (hloop : InLoop env prices eco i endTime start) :
    RightDuration env eco.config endTime start (remainingFor env eco eco.chargers endTime i) ↔
      (env.timestampMinutes ≤ endTime ∨
        LimitedTo env eco endTime (firstChargers env eco (i + 1)) 0) ∧
      (eco.config.parkTime = true → env.timestampMinutes - start ≤ parkTimeDuration1m eco.config ∨
          LimitedTo env eco endTime (firstChargers env eco i)
            (parkTimeLeft env eco.config start)) := by
  obtain ⟨done, c, -, hget, hc, rfl⟩ := hloop
  rw [rightDuration_iff, remainingFor_departure_iff]
  apply and_congr_right
  intro _
  apply imp_congr_right
  intro hpark
  rw [remainingFor_le_iff_own hpark hget hc, parkLimit_le_iff]

theorem rightDuration_default_iff :
    RightDuration env eco.config endTime env.timestampMinutes
        (defaultDuration env eco.config endTime) ↔
      env.timestampMinutes ≤ endTime ∨
        eco.config.parkTime = true ∧ parkTimeDuration1m eco.config = 0 := by
  rw [rightDuration_iff]
  have hdeparture := toNat_sub_le_iff endTime env.timestampMinutes
  have hnone : endTime.toNat - env.timestampMinutes.toNat = 0 ∨ env.timestampMinutes ≤ endTime := by
    rw [UInt32.le_iff_toNat_le]
    omega
  unfold defaultDuration parkTimeLeft
  cases hpark : eco.config.parkTime with
  | false => simpa using hdeparture
  | true =>
    simp only [if_true, toNat_min_le_iff, hdeparture, ← UInt32.toNat_inj, UInt32.toNat_zero,
      Nat.sub_self, Nat.sub_zero, forall_const, true_and, le_refl, true_or, and_true]
    obtain hnone | hle := hnone
    · rw [hnone, Nat.le_zero, or_comm]
    · exact iff_of_true (.inr hle) (.inl hle)

/-- The minutes `update` plans with for a charger never wrap around, stay within the configured
park time and within what is left of it, and are none after it, exactly if the end of the plan has
not passed and the car is not longer there than it may be, or else another limit is no larger than
what is left. A charger without a car shows those of the default chart. -/
theorem accountsForParkTime_iff (env : Env) (prices : DayAheadPrices) (eco : State) (i : ℕ) :
    (AccountsForParkTime env prices eco i ↔ NothingWraps env prices eco i) ∧
      ∀ endTime1m, HasDefaultChart env prices eco i endTime1m →
        ShowsDefaultChart env prices eco i (defaultDuration env eco.config endTime1m) := by
  refine ⟨?_, fun _ => HasDefaultChart.shows⟩
  unfold AccountsForParkTime NothingWraps
  apply and_congr
  · apply forall₃_congr
    intro endTime start hloop
    exact rightDuration_loop_iff hloop
  · apply forall₂_congr
    intro endTime _
    exact rightDuration_default_iff

end

/-- A car that has been parked for nine hours with a park time of eight hours, ten hours before
the departure. -/
def overdueCar : State where
  config :=
    { toPriceThresholds := noThresholds
      enable := true
      parkTime := true
      parkTimeDuration := 8
      yieldForecast := false
      yieldForecastThreshold := 0 }
  chargePlan := { enable := true, departure := .daily, time := 1200, amount := 8 }
  lastSave := 29000000
  chargers := [parkedSince 29000220]

/-- The car is planned with all the ten hours and charges. -/
theorem overdue_car_charges :
    ¬AccountsForParkTime tenOClock expensiveHour overdueCar 0 ∧
      (visible (update tenOClock expensiveHour overdueCar) 0).map Prod.fst = some .fast := by
  constructor
  · rintro ⟨hloop, -⟩
    have hprice : expensiveHour.currentPrice = some 100 := by decide
    have hend : endTime1m tenOClock overdueCar = .ahead 29001360 := by decide
    have hcourse : courseOf tenOClock expensiveHour overdueCar = .planned none 29001360 := by
      simp only [courseOf, hprice, hend]
      rfl
    have hplanned : InLoop tenOClock expensiveHour overdueCar 0 29001360 29000220 :=
      ⟨none, parkedSince 29000220, hcourse, rfl, by decide, by decide⟩
    have hright := (hloop _ _ hplanned).elapsed rfl (by decide)
    revert hright
    decide
  · decide

end Esp32Firmware.Eco
