import Esp32Firmware.Heating.Plan

/-!
# The outputs of the heating controller

A decision never leaves both outputs on and respects the grid operator. Updates that
return before the decision keep the extended output as it was.
-/

namespace Esp32Firmware.Heating

variable {cfg : Config} {input : UpdateInput} {s : State}

/-- Both outputs are switched on. -/
def State.bothOn (cfg : Config) (s : State) : Bool := s.blockingOn cfg && s.extendedOn cfg

/-- The outputs are safe while the grid operator's control is on or off. -/
def State.Safe (cfg : Config) (p14enwgOn : Bool) (s : State) : Prop :=
  s.bothOn cfg = false ∧ (p14enwgOn → s.extendedOn cfg = false)

/-- The fetched data holds the outputs as they are. -/
def State.Fetched (s : State) : Prop :=
  s.fetchedOutput0 = s.output0 ∧ s.fetchedOutput1 = s.output1

/-- Whether an update obeys the grid operator before it returns. -/
def State.controls (input : UpdateInput) (s : State) : Bool :=
  !input.hasSgrAutomation && input.clockSynced && !s.startupDelay

/-- Whether the minimum hold time is over and a decision can be made. -/
def State.holdOver (cfg : Config) (input : UpdateInput) (s : State) : Bool :=
  remainingHoldingTime cfg input s == 0 &&
    (isDisabled cfg (effectiveHours cfg input) || decide (input.minutesSinceMidnight < 1440))

/-- Whether an update gets to its decision. -/
def State.decides (cfg : Config) (input : UpdateInput) (s : State) : Bool :=
  s.controls input && s.holdOver cfg input

section

theorem switchExtended_output1 (hfetched : s.fetchedOutput1 = s.output1) (now : Nat) (on : Bool) :
    (switchExtended cfg now on s).output1 =
      if on then cfg.sgrExtendedType.onValue else !cfg.sgrExtendedType.onValue := by
  obtain ⟨newValue, hnew⟩ : ∃ newValue,
      (if on then cfg.sgrExtendedType.onValue else !cfg.sgrExtendedType.onValue) = newValue :=
    ⟨_, rfl⟩
  rw [switchExtended, hnew]
  dsimp only
  split
  · rfl
  · next heq => exact hfetched.symm.trans (not_not.mp heq)

theorem switchBlocking_output0 (hfetched : s.fetchedOutput0 = s.output0) (now : Nat) (on : Bool) :
    (switchBlocking cfg now on s).output0 =
      if on then cfg.sgrBlockingType.onValue else !cfg.sgrBlockingType.onValue := by
  obtain ⟨newValue, hnew⟩ : ∃ newValue,
      (if on then cfg.sgrBlockingType.onValue else !cfg.sgrBlockingType.onValue) = newValue :=
    ⟨_, rfl⟩
  rw [switchBlocking, hnew]
  dsimp only
  split
  · rfl
  · next heq => exact hfetched.symm.trans (not_not.mp heq)

/-- Switching the extended output leaves it as wanted. -/
theorem switchExtended_on (hfetched : s.fetchedOutput1 = s.output1) (now : Nat) (on : Bool) :
    (switchExtended cfg now on s).extendedOn cfg = on := by
  rw [State.extendedOn, switchExtended_output1 hfetched]
  cases on <;> cases cfg.sgrExtendedType <;> rfl

/-- Switching the blocking output leaves it as wanted. -/
theorem switchBlocking_on (hfetched : s.fetchedOutput0 = s.output0) (now : Nat) (on : Bool) :
    (switchBlocking cfg now on s).blockingOn cfg = on := by
  rw [State.blockingOn, switchBlocking_output0 hfetched]
  cases on <;> cases cfg.sgrBlockingType <;> rfl

theorem switchExtended_blocking (now : Nat) (on : Bool) :
    (switchExtended cfg now on s).output0 = s.output0 ∧
      (switchExtended cfg now on s).fetchedOutput0 = s.fetchedOutput0 := by
  rw [switchExtended]
  generalize (if on then cfg.sgrExtendedType.onValue else !cfg.sgrExtendedType.onValue) = newValue
  dsimp only
  split <;> exact ⟨rfl, rfl⟩

theorem switchBlocking_extendedOn (now : Nat) (on : Bool) :
    (switchBlocking cfg now on s).extendedOn cfg = s.extendedOn cfg := by
  rw [switchBlocking]
  generalize (if on then cfg.sgrBlockingType.onValue else !cfg.sgrBlockingType.onValue) = newValue
  dsimp only
  split <;> rfl

theorem resetOverride_outputs (now : Nat) :
    (resetOverride now s).output0 = s.output0 ∧ (resetOverride now s).output1 = s.output1 ∧
      (resetOverride now s).fetchedOutput0 = s.fetchedOutput0 := by
  rw [resetOverride]
  split <;> exact ⟨rfl, rfl, rfl⟩

/-- A decision leaves the outputs safe. -/
theorem decideOutputs_safe (hfetched1 : s.fetchedOutput1 = s.output1)
    (hfetched0 : input.p14enwgOn = false → s.fetchedOutput0 = s.output0) :
    (decideOutputs cfg input s).Safe cfg input.p14enwgOn := by
  rw [decideOutputs]
  obtain ⟨wanted0, wanted1⟩ := wantedOutputs cfg input s.fetchedOutput1
  dsimp only
  obtain ⟨on, hon⟩ : ∃ on, (if input.p14enwgOn then false else wanted1) = on := ⟨_, rfl⟩
  have hext := @switchExtended_on cfg s hfetched1 input.timestampMinutes on
  obtain ⟨hkeep, hkeepFetched⟩ := @switchExtended_blocking cfg s input.timestampMinutes on
  rw [hon]
  generalize switchExtended cfg input.timestampMinutes on s = t at hext hkeep hkeepFetched
  obtain ⟨h0, h1, hf0⟩ := @resetOverride_outputs t input.timestampMinutes
  have hext' : (resetOverride input.timestampMinutes t).extendedOn cfg = on := by
    rw [← hext, State.extendedOn, h1, State.extendedOn]
  cases hp14 : input.p14enwgOn with
  | true =>
    -- the extended output is switched off, whatever is wanted
    rw [hp14, if_pos rfl] at hon
    subst hon
    rw [if_pos rfl]
    refine ⟨?_, fun _ => hext'⟩
    rw [State.bothOn, hext', Bool.and_false]
  | false =>
    rw [hp14, if_neg (by decide)] at hon
    subst hon
    rw [if_neg (by decide)]
    have hfetched : (resetOverride input.timestampMinutes t).fetchedOutput0 =
        (resetOverride input.timestampMinutes t).output0 := by
      rw [h0, hf0, hkeep, hkeepFetched]
      exact hfetched0 hp14
    refine ⟨?_, fun h => absurd h (by decide)⟩
    rw [State.bothOn, switchBlocking_on hfetched, switchBlocking_extendedOn, hext']
    cases wanted0 <;> cases wanted1 <;> simp

end

section

theorem checkAutomation_outputs : (checkAutomation input s).output0 = s.output0 ∧
    (checkAutomation input s).output1 = s.output1 ∧
    (checkAutomation input s).fetchedOutput0 = s.fetchedOutput0 ∧
    (checkAutomation input s).fetchedOutput1 = s.fetchedOutput1 ∧
    (checkAutomation input s).startupDelay = s.startupDelay := by
  rw [checkAutomation]
  split
  · exact ⟨rfl, rfl, rfl, rfl, rfl⟩
  · split <;> exact ⟨rfl, rfl, rfl, rfl, rfl⟩

/-- The hold time only restarts where automation rules take over. -/
theorem holdOver_checkAutomation (h : input.hasSgrAutomation = false) :
    (blockByP14enwg cfg input (checkAutomation input s)).holdOver cfg input =
      s.holdOver cfg input := by
  have hauto : (checkAutomation input s).lastSgReadyChange = s.lastSgReadyChange := by
    rw [checkAutomation, h]
    split <;> rfl
  have hblock : (blockByP14enwg cfg input (checkAutomation input s)).lastSgReadyChange =
      s.lastSgReadyChange := by
    rw [blockByP14enwg]
    split <;> exact hauto
  rw [State.holdOver, remainingHoldingTime, hblock, State.holdOver, remainingHoldingTime]

theorem blockByP14enwg_output1 : (blockByP14enwg cfg input s).output1 = s.output1 ∧
    (blockByP14enwg cfg input s).fetchedOutput1 = s.fetchedOutput1 ∧
    (blockByP14enwg cfg input s).fetchedOutput0 = s.fetchedOutput0 := by
  rw [blockByP14enwg]
  split <;> exact ⟨rfl, rfl, rfl⟩

/-- Safety is about the outputs only. -/
theorem safe_congr {t : State} {p14enwgOn : Bool} (h0 : t.output0 = s.output0)
    (h1 : t.output1 = s.output1) : t.Safe cfg p14enwgOn ↔ s.Safe cfg p14enwgOn := by
  rw [State.Safe, State.Safe, State.bothOn, State.bothOn, State.blockingOn, State.blockingOn,
    State.extendedOn, State.extendedOn, h0, h1]

/-- Blocking at once is safe where the extended output is off. -/
theorem blockByP14enwg_safe_iff :
    (blockByP14enwg cfg input s).Safe cfg input.p14enwgOn ↔ s.Safe cfg input.p14enwgOn := by
  cases hp14 : input.p14enwgOn with
  | false =>
    rw [blockByP14enwg, hp14, if_neg (by decide)]
    exact safe_congr rfl rfl
  | true =>
    have hext : (blockByP14enwg cfg input s).extendedOn cfg = s.extendedOn cfg := by
      rw [State.extendedOn, blockByP14enwg_output1.1, State.extendedOn]
    have hsafe : ∀ t : State, t.Safe cfg true ↔ t.extendedOn cfg = false := by
      intro t
      constructor
      · intro h
        exact h.2 rfl
      · intro h
        exact ⟨by rw [State.bothOn, h, Bool.and_false], fun _ => h⟩
    rw [hsafe, hsafe, hext]

theorem holdOrDecide_safe_iff (hfetched1 : s.fetchedOutput1 = s.output1)
    (hfetched0 : input.p14enwgOn = false → s.fetchedOutput0 = s.output0) :
    (holdOrDecide cfg input s).Safe cfg input.p14enwgOn ↔
      s.holdOver cfg input ∨ s.Safe cfg input.p14enwgOn := by
  rw [holdOrDecide, State.holdOver]
  dsimp only
  split
  · next hpos =>
      have hne : (remainingHoldingTime cfg input s == 0) = false := by
        simpa using (Nat.pos_iff_ne_zero.mp hpos)
      rw [hne, Bool.false_and]
      simp only [Bool.false_eq_true, false_or]
      split <;> exact safe_congr rfl rfl
  · next hzero =>
      have heq : (remainingHoldingTime cfg input s == 0) = true := by simpa using hzero
      rw [heq, Bool.true_and]
      split
      · next hearly =>
          simp only [Bool.and_eq_true, Bool.not_eq_true', decide_eq_true_eq] at hearly
          have hlate : decide (input.minutesSinceMidnight < 1440) = false := by simpa using hearly.2
          rw [hearly.1, hlate]
          simp only [Bool.or_self, Bool.false_eq_true, false_or]
          exact safe_congr rfl rfl
      · next hnow =>
          refine iff_of_true (decideOutputs_safe hfetched1 hfetched0) (Or.inl ?_)
          cases hdisabled : isDisabled cfg (effectiveHours cfg input) with
          | true => rfl
          | false => simpa [hdisabled] using hnow

/-- Before its decision an update leaves the extended output as it is. -/
theorem update_safe_iff (hfetched : s.Fetched) :
    (update cfg input s).Safe cfg input.p14enwgOn ↔
      s.decides cfg input ∨ s.Safe cfg input.p14enwgOn := by
  obtain ⟨h0, h1, hf0, hf1, hdelay⟩ := @checkAutomation_outputs input s
  have hkeep : ∀ t : State, t.output0 = (checkAutomation input s).output0 →
      t.output1 = (checkAutomation input s).output1 →
      (t.Safe cfg input.p14enwgOn ↔ s.Safe cfg input.p14enwgOn) := by
    intro t ht0 ht1
    exact safe_congr (ht0.trans h0) (ht1.trans h1)
  rw [State.decides, State.controls, update]
  cases hauto : input.hasSgrAutomation with
  | true => simpa using hkeep _ rfl rfl
  | false =>
    cases hsynced : input.clockSynced with
    | false =>
      have hunsynced := hkeep { checkAutomation input s with nextUpdate := 0 } rfl rfl
      simpa using hunsynced
    | true =>
      cases hstart : s.startupDelay with
      | true => simpa [hdelay, hstart] using hkeep _ rfl rfl
      | false =>
        obtain ⟨hb1, hbf1, hbf0⟩ :=
          @blockByP14enwg_output1 cfg input (checkAutomation input s)
        have hiff := @holdOrDecide_safe_iff cfg input
          (blockByP14enwg cfg input (checkAutomation input s))
          (by rw [hbf1, hb1, hf1, h1]; exact hfetched.2)
          (fun hp14 => by
            rw [hbf0, hf0, blockByP14enwg, hp14, if_neg (by decide)]
            exact hfetched.1.trans h0.symm)
        rw [holdOver_checkAutomation hauto, blockByP14enwg_safe_iff, hkeep _ rfl rfl] at hiff
        simpa [hdelay, hstart] using hiff

end

/-- The update a step makes, with the state it starts from. -/
def Label.updateOf (s : State) : Label → Option (State × UpdateInput)
  | .update input => some (s, input)
  | .resetHoldingTime input => some ({ s with lastSgReadyChange := 0 }, input)
  | .overrideUpdate overrideUntil input =>
    if overrideUntil ≤ input.timestampMinutes then none
    else
      some ({ s with
        overrideUntil := overrideUntil, overrideTask := false, lastSgReadyChange := 0 }, input)
  | .overrideOver input => some ({ s with overrideUntil := 0, lastSgReadyChange := 0 }, input)
  | .startupDelayOver input => some ({ s with startupDelay := false }, input)
  | .toggleBlocking _ _ | .toggleExtended _ _ | .fetch => none

/-- Every update reads fetched outputs, and gets to its decision when the extended output
is on under the grid operator's control. The commands that toggle an output do not switch
on the second one. -/
def Regular (cfg : Config) (s : State) (label : Label) : Prop :=
  match label.updateOf s with
  | some (t, input) =>
    t.Fetched ∧ (input.p14enwgOn → s.extendedOn cfg → t.decides cfg input)
  | none => (step cfg s label).bothOn cfg = false

/-- A step leaves the outputs as its update does. -/
theorem step_outputs {t : State} {label : Label} (h : label.updateOf s = some (t, input)) :
    (step cfg s label).output0 = (update cfg input t).output0 ∧
      (step cfg s label).output1 = (update cfg input t).output1 ∧
      t.output0 = s.output0 ∧ t.output1 = s.output1 := by
  cases label with
  | update input' | resetHoldingTime input' | overrideOver input' | startupDelayOver input' =>
    simp only [Label.updateOf, Option.some.injEq, Prod.mk.injEq] at h
    obtain ⟨rfl, rfl⟩ := h
    exact ⟨rfl, rfl, rfl, rfl⟩
  | overrideUpdate overrideUntil input' =>
    rw [Label.updateOf] at h
    split at h
    · simp at h
    · next hlater =>
        simp only [Option.some.injEq, Prod.mk.injEq] at h
        obtain ⟨rfl, rfl⟩ := h
        rw [step, if_neg hlater]
        exact ⟨rfl, rfl, rfl, rfl⟩
  | toggleBlocking _ _ | toggleExtended _ _ | fetch => simp [Label.updateOf] at h

/-- A regular step never switches both outputs on, and its update obeys the grid
operator. -/
theorem Regular.safe {label : Label} (h : Regular cfg s label) (hs : s.bothOn cfg = false) :
    (step cfg s label).bothOn cfg = false ∧ ∀ t input, label.updateOf s = some (t, input) →
      (step cfg s label).Safe cfg input.p14enwgOn := by
  rw [Regular] at h
  cases hupdate : label.updateOf s with
  | none =>
    rw [hupdate] at h
    exact ⟨h, fun t input heq => by simp at heq⟩
  | some pair =>
    obtain ⟨t, input⟩ := pair
    rw [hupdate] at h
    obtain ⟨hfetched, hdecides⟩ := h
    obtain ⟨h0, h1, ht0, ht1⟩ := @step_outputs cfg input s t label hupdate
    have hsafe : (step cfg s label).Safe cfg input.p14enwgOn := by
      apply (safe_congr h0 h1).mpr
      apply (update_safe_iff hfetched).mpr
      by_cases hext : input.p14enwgOn ∧ s.extendedOn cfg
      · exact Or.inl (hdecides hext.1 hext.2)
      · refine Or.inr ((safe_congr ht0 ht1).mpr ⟨hs, fun hp14 => ?_⟩)
        simpa using fun hon => hext ⟨hp14, hon⟩
    refine ⟨hsafe.1, ?_⟩
    intro t' input' heq
    obtain ⟨-, rfl⟩ : t = t' ∧ input = input' := by simpa using heq
    exact hsafe

/-- After every update of a regular run the outputs are safe. -/
theorem run_safe {labels : List Label} {label : Label} {t : State} (hs : s.bothOn cfg = false)
    (h : Meets (step cfg) (Regular cfg) s (labels ++ [label]))
    (hupdate : label.updateOf (run (step cfg) s labels) = some (t, input)) :
    (run (step cfg) s (labels ++ [label])).Safe cfg input.p14enwgOn := by
  obtain ⟨hlabels, hlast, -⟩ := h.append
  have hbefore := hlabels.invariant (I := fun s => s.bothOn cfg = false)
    (fun _ _ hs hregular => (hregular.safe hs).1) hs
  rw [run_append]
  exact (hlast.safe hbefore).2 t input hupdate

/-- Extended operation during cheap hours, held for 15 minutes. -/
def CheapHours.config : Config where
  sgrBlockingType := .activeClosed
  sgrExtendedType := .activeClosed
  minHoldTime := 15
  controlPeriod := .hours24
  enableHeatingCurve := false
  enableDaytimeExtension := false
  yieldForecast := false
  yieldForecastThreshold := 0
  extended := true
  extendedHours := 4
  extendedHoursWarm := 3
  extendedHoursCold := 8
  blocking := false
  blockingHours := 0
  blockingHoursWarm := 8
  blockingHoursCold := 0
  pvExcessControl := false
  pvExcessControlThreshold := 0

def CheapHours.inputAt (p14enwgOn : Bool) (minute : Nat) : UpdateInput where
  hasSgrAutomation := false
  clockSynced := true
  p14aEnwg := ⟨⟨true, false, true⟩, ⟨p14enwgOn, 4200⟩⟩
  timestampMinutes := 30000000 + minute
  minutesSinceMidnight := 600 + minute
  midnight := some 29999400
  cheapHours := fun _ _ _ _ => some fun _ => true
  expensiveHours := fun _ _ _ _ => none
  gridPower := none
  whToday := none
  todayAvg := none

def State.initial : State where
  output0 := false
  output1 := false
  fetchedOutput0 := false
  fetchedOutput1 := false
  lastSgReadyChange := 0
  startupDelay := false
  overrideUntil := 0
  overrideTask := false
  automationOverride := false
  sgrBlocking := false
  sgrExtended := false
  p14enwg := false
  nextUpdate := 0
  enabled := false

/-- A control that starts after the hold time is obeyed. -/
theorem control_after_hold_safe :
    (run (step CheapHours.config) .initial ([.update (CheapHours.inputAt false 0), .fetch] ++
      [.update (CheapHours.inputAt true 15)])).Safe CheapHours.config true := by
  have hregular : Meets (step CheapHours.config) (Regular CheapHours.config) .initial
      ([.update (CheapHours.inputAt false 0), .fetch] ++ [.update (CheapHours.inputAt true 15)]) :=
    ⟨⟨⟨rfl, rfl⟩, by decide⟩, rfl, ⟨⟨rfl, rfl⟩, by decide⟩, trivial⟩
  exact run_safe rfl hregular rfl

/-- A control that starts during the hold time leaves both outputs on. -/
theorem control_during_hold_unsafe :
    ¬ (run (step CheapHours.config) .initial [.update (CheapHours.inputAt false 0), .fetch,
      .update (CheapHours.inputAt true 5)]).Safe CheapHours.config true := by
  intro h
  exact absurd h.1 (by decide)

end Esp32Firmware.Heating
