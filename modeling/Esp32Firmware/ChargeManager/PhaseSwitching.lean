import Esp32Firmware.ChargeManager.CurrentBound

/-!
# Phase switches

A charger may switch its contactors only if it can and its last switch is long enough ago.
Each stage keeps the phases of a charger or gives it some that respect this.

## Implementation notes

Vehicles that were just plugged in are left out: stage 2 starts them on one phase.
-/

namespace Esp32Firmware.ChargeManager

variable {n : Nat}

/-- The chargers keep their phases or get admissible ones. -/
def Rephased (env : StageEnv n) (sc sc' : StageContext n) : Prop :=
  ∀ i, (env.chargerState i).Settled → sc'.phaseAllocation i = sc.phaseAllocation i ∨
    Admissible env i (sc'.phaseAllocation i)

namespace Rephased

variable {env : StageEnv n} {i : Fin n} {a b c : StageContext n}

theorem of_eq (h : b.phaseAllocation = a.phaseAllocation) : Rephased env a b :=
  fun i _ => .inl (congrFun h i)

theorem refl (a : StageContext n) : Rephased env a a := of_eq rfl

theorem trans (h : Rephased env a b) (h' : Rephased env b c) : Rephased env a c := by
  intro i hi
  rcases h' i hi with heq | hnew
  · rw [heq]
    exact h i hi
  · exact .inr hnew

theorem update {phases : UInt8}
    (hphases : b.phaseAllocation = Function.update a.phaseAllocation i phases)
    (h : (env.chargerState i).Settled → Admissible env i phases) : Rephased env a b := by
  intro j hj
  rw [hphases]
  by_cases heq : j = i
  · subst heq
    rw [Function.update_self]
    exact .inr (h hj)
  · exact .inl (Function.update_of_ne heq _ _)

/-- Admissible phases are replaced by admissible ones. -/
theorem admissible (h : Rephased env a b) (hi : (env.chargerState i).Settled)
    (ha : Admissible env i (a.phaseAllocation i)) : Admissible env i (b.phaseAllocation i) := by
  rcases h i hi with heq | hnew
  · rwa [heq]
  · exact hnew

end Rephased

section

variable {env : StageEnv n} {sc : StageContext n} {i : Fin n}

/-- A charger is shut down, connected to the phases it reports, or keeps its phases since it can
switch. -/
def Rewired (env : StageEnv n) (sc : StageContext n) (i : Fin n) (sc' : StageContext n) : Prop :=
  ∃ phases, sc'.phaseAllocation = Function.update sc.phaseAllocation i phases ∧
    (phases = 0 ∨ phases = (env.chargerState i).phases ∨
      phases = sc.phaseAllocation i ∧ (env.chargerState i).phaseSwitchSupported = true)

theorem stage1Charger_rewired (rotationAllowed : Bool) (waiting : WaitingChargers) :
    Rewired env sc i (stage1Charger env rotationAllowed waiting sc i) := by
  have hkeep : sc.phaseAllocation = Function.update sc.phaseAllocation i (sc.phaseAllocation i) :=
    (Function.update_eq_self i _).symm
  unfold stage1Charger
  simp only
  refine iteInduction (motive := Rewired env sc i) (fun hzero => ⟨_, hkeep, .inl hzero⟩) fun _ => ?_
  refine iteInduction (motive := Rewired env sc i) (fun _ => ⟨0, ?_, .inl rfl⟩) fun _ => ?_
  · split_ifs <;> rfl
  · refine iteInduction (motive := Rewired env sc i) (fun _ => ⟨_, ?_, .inr (.inl rfl)⟩)
      fun hswitch => ⟨_, hkeep, .inr (.inr ⟨rfl, by simpa using hswitch⟩)⟩
    split_ifs <;> rfl

/-- Stage 1 leaves a charger that can not switch no other phases than those it reports. -/
theorem stage1_fixed (hcount : sc.chargerCount = n) (hzero : ∀ j, sc.currentAllocation j = 0)
    (hfixed : (env.chargerState i).phaseSwitchSupported = false) :
    Admissible env i ((stage1 env sc).phaseAllocation i) := by
  obtain ⟨rotationAllowed, waiting, c, _, hvisited, _⟩ := @stage1_visits _ env _ hcount hzero i
  obtain ⟨phases, hphases, hcases⟩ := @stage1Charger_rewired _ env c i rotationAllowed waiting
  rw [hvisited, hphases, Function.update_self]
  rcases hcases with hnone | hreported | ⟨_, hsupported⟩
  · exact .inl hnone
  · exact .inr (.inl hreported)
  · rw [hfixed] at hsupported
    cases hsupported

theorem AllocationStep.rephased {t : Period} {sc' : StageContext n}
    (h : AllocationStep env t i sc sc') : Rephased env sc sc' := by
  cases h with
  | keep writes | exceeds _ writes | minimum _ writes | refund _ writes | additional _ writes =>
    exact .of_eq (writes.phases.trans (Function.update_eq_self i _))
  | connect _ writes => exact .update writes.phases fun _ => .inr (.inl rfl)
  | setPhases _ _ writes _ _ _ admissible => exact .update writes.phases admissible
  | wake _ _ _ _ writes _ _ _ _ _ admissible => exact .update writes.phases admissible

theorem Steps.rephased {t : Period} {g : Fin n → Prop} {sc' : StageContext n}
    (h : Steps env t g sc sc') : Rephased env sc sc' :=
  h.invariant (P := Rephased env sc) (fun _ _ hphases _ _ ha => ha.trans (.of_eq hphases))
    (fun _ _ _ _ step ha => ha.trans step.rephased) (.refl sc)

theorem afterStage1_rephased (hsc : Fresh sc) :
    Rephased env (afterStage1 env sc) (runStages env sc) := by
  obtain ⟨_, hbefore⟩ := @beforeWakeUp_run _ env _ hsc
  obtain ⟨h9, h8, hpost, _⟩ := @runStages_run _ env _ hsc
  exact ((((@afterStage3_run _ env _ hsc).steps.rephased.trans hbefore.rephased).trans
    h9.steps.rephased).trans h8.steps.rephased).trans (.of_eq hpost.phases)

/-- A charger that can not switch gets no other phases than those it reports. -/
theorem runStages_fixed (hsc : Fresh sc) (hi : (env.chargerState i).Settled)
    (hfixed : (env.chargerState i).phaseSwitchSupported = false) :
    Admissible env i ((runStages env sc).phaseAllocation i) := by
  have hpre := sameBooks_decisionPreprocess env sc
  have hfirst : Admissible env i ((afterStage1 env sc).phaseAllocation i) :=
    stage1_fixed (hpre.count.trans hsc.count)
      (fun j => (congrFun hpre.current j).trans (hsc.current j)) hfixed
  exact (afterStage1_rephased hsc).admissible hi hfirst

end

variable (input : AllocatorInput n)

/-- The phase switch hysteresis of a charger is over when the allocator runs. -/
def AllocatorInput.phaseSwitchElapsed (i : Fin n) : Prop :=
  (input.chargerState i).lastPhaseSwitch + input.cfg.globalHysteresis < input.now

/-- Phases are switched only by chargers that can, and not before the hysteresis is over. -/
theorem phases_of_settled (i : Fin n) (hi : (input.chargerState i).Settled) :
    (¬ input.phaseSwitchElapsed i →
      ((allocateCurrent input).chargerAllocationState i).allocatedPhases.toUInt8 ∈
        [0, (input.chargerState i).phases,
          (input.chargerAllocationState i).allocatedPhases.toUInt8]) ∧
    ((input.chargerState i).phaseSwitchSupported = false →
      ((allocateCurrent input).chargerAllocationState i).allocatedPhases.toUInt8 ∈
        [0, (input.chargerState i).phases]) := by
  rw [allocatedPhases_eq]
  obtain ⟨off, hstate⟩ := env_chargerState input i
  have hsettled : (input.env.chargerState i).Settled := by
    rw [hstate]
    exact ⟨hi.phases, hi.justPluggedInTimestamp⟩
  constructor
  · intro helapsed
    have htoggle : input.env.mayToggle i = false := by
      rw [StageEnv.mayToggle, hstate]
      exact decide_eq_false helapsed
    have hfresh := initialContext_fresh input
    have hrephased := (@afterStage1_prepared _ input.env _ hfresh).steps.rephased.trans
      (afterStage1_rephased hfresh)
    rcases hrephased i hsettled with
      hkept | hzero | hreported | ⟨_, hmay⟩
    · rw [hkept]
      simp [AllocatorInput.initialContext]
    · simp [hzero]
    · rw [hreported, hstate]
      simp
    · rw [htoggle] at hmay
      cases hmay
  · intro hfixed
    have hsupported : (input.env.chargerState i).phaseSwitchSupported = false := by
      rw [hstate]
      exact hfixed
    rcases runStages_fixed (initialContext_fresh input) hsettled hsupported with
      hzero | hreported | ⟨hswitch, _⟩
    · simp [hzero]
    · rw [hreported, hstate]
      simp
    · rw [hsupported] at hswitch
      cases hswitch

/-- The charging vehicle of the installation with two chargers can not switch. -/
theorem phases_of_settled_first :
    ((TwoChargers.input 6000 (by decide) 32000).chargerState 0).Settled ∧
      ((allocateCurrent (TwoChargers.input 6000 (by decide) 32000)).chargerAllocationState
        0).allocatedPhases.toUInt8 ∈ [0, 1] := by
  have hsettled : ((TwoChargers.input 6000 (by decide) 32000).chargerState 0).Settled :=
    ⟨.inl rfl, rfl⟩
  exact ⟨hsettled, (phases_of_settled (TwoChargers.input 6000 (by decide) 32000) 0 hsettled).2 rfl⟩

end Esp32Firmware.ChargeManager
