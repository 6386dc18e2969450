import Esp32Firmware.ChargeManager.LimitAccounting
import Esp32Firmware.ChargeManager.MinimumCurrents

/-!
# The currents of a wake-up

Stage 9 looks neither at what user and charger allow nor at the 16 bits a current is stored in.
An input whose full vehicles have small enough enable currents never shows that.
-/

namespace Esp32Firmware.ChargeManager

variable {n : Nat}

/-- A full vehicle, or one that was woken up and wants to charge. -/
def ChargerState.MayWakeUp (state : ChargerState) : Prop :=
  state.wantsToChargeLowPriority = true ∨ state.wantsToCharge = true ∧ state.lastWakeup ≠ 0

section

variable {env : StageEnv n} {sc : StageContext n}

theorem stage9Charger_phases (haveActive : Bool) (i j : Fin n) :
    (stage9Charger env haveActive sc i).phaseAllocation j = sc.phaseAllocation j ∨
      j = i ∧ (phaseChoice env (env.chargerState i)).Tries
        ((stage9Charger env haveActive sc i).phaseAllocation j) := by
  unfold stage9Charger
  split
  · exact Or.inl rfl
  · split
    · exact Or.inl rfl
    · rename_i phases cost hwake
      obtain ⟨hphases, -⟩ := wakeUp_eq_some hwake
      have hupdate : Function.update sc.phaseAllocation i phases j = sc.phaseAllocation j ∨
          j = i ∧ (phaseChoice env (env.chargerState i)).Tries
            (Function.update sc.phaseAllocation i phases j) := by
        rcases eq_or_ne j i with rfl | hji
        · rw [Function.update_self]
          exact Or.inr ⟨rfl, hphases⟩
        · exact Or.inl (Function.update_of_ne hji _ _)
      simp only
      split <;> exact hupdate

/-- The phases of a charger are those it had, or those that stage 9 tries for a full vehicle. -/
def Rewoken (env : StageEnv n) (sc : StageContext n) (i : Fin n) (sc' : StageContext n) : Prop :=
  sc'.phaseAllocation i = sc.phaseAllocation i ∨
    i ∈ sc.group ∧ (env.chargerState i).MayWakeUp ∧
      (phaseChoice env (env.chargerState i)).Tries (sc'.phaseAllocation i)

/-- Stage 9 changes the phases of vehicles that may be woken up only, to ones that it tries. -/
theorem stage9_phases (hsc : Indexed sc) (i : Fin n) : Rewoken env sc i (stage9 env sc) := by
  have hfilter := filterChargers_selected (fun i => decide (sc.phaseAllocation i = 0) &&
    ((env.chargerState i).wantsToChargeLowPriority ||
      ((env.chargerState i).wantsToCharge && (env.chargerState i).lastWakeup != 0))) sc hsc.count_le
  have hsel := hfilter.sort (fun i => stage9Group env (env.chargerState i))
    (fun left right => stage9Sort env (env.chargerState left) (env.chargerState right))
    hsc.count_le
  have hloop : ∀ (haveActive : Bool) (l : List (Fin n)) (start : StageContext n),
      (i ∈ l → i ∈ sc.group ∧ (env.chargerState i).MayWakeUp) → Rewoken env sc i start →
        Rewoken env sc i (l.foldl (stage9Charger env haveActive) start) := by
    intro haveActive l
    induction l with
    | nil => exact fun start _ hstart => hstart
    | cons j rest ih =>
      intro start hl hstart
      refine ih _ (fun hi => hl (List.mem_cons_of_mem j hi)) ?_
      unfold Rewoken at hstart ⊢
      rcases @stage9Charger_phases _ env start haveActive j i with hkept | ⟨rfl, htries⟩
      · rwa [hkept]
      · obtain ⟨hgroup, hfull⟩ := hl List.mem_cons_self
        exact Or.inr ⟨hgroup, hfull, htries⟩
  unfold stage9
  simp only
  split
  · obtain ⟨idx, hidx⟩ := hfilter.context
    exact Or.inl (by rw [hidx])
  · refine hloop _ _ _ (fun hi => ?_) ?_
    · obtain ⟨hgroup, hp⟩ := hsel.mem_iff.mp hi
      exact ⟨hgroup, by simpa [ChargerState.MayWakeUp] using ((Bool.and_eq_true _ _).mp hp).2⟩
    · obtain ⟨idx, hidx⟩ := hsel.context
      exact Or.inl (by rw [hidx])

end

variable (input : AllocatorInput n)

/-- The enable current of a charger beside an active one. -/
def fullEnableCurrent (i : Fin n) (phases : UInt8) : Int :=
  (getEnableCost (input.chargerState i) (phases == 3) true input.cfg).enableCurrent

/-- A full vehicle at a charger that is not off, with phases that stage 9 tries and raw limits
that carry its enable current beside an active charger. -/
structure WakeUpCandidate (i : Fin n) (phases : UInt8) : Prop where
  on : (input.env.chargerState i).off = false
  full : (input.chargerState i).MayWakeUp
  tried : (phaseChoice input.env (input.chargerState i)).Tries phases
  carried : ∀ p, p ≠ .pv → MayUse phases (input.chargerState i).phaseRotation p →
    fullEnableCurrent input i phases ≤ input.limits.raw.get p

section

variable {input : AllocatorInput n} {i : Fin n} {phases : UInt8}

theorem wakeUpCurrent_of_active (hvalid : phases = 1 ∨ phases = 3)
    (hactive : haveActiveChargers input.env input.initialContext = true) :
    wakeUpCurrent input i phases = fullEnableCurrent input i phases := by
  rw [wakeUpCurrent, fullEnableCurrent, hactive, enableCurrent_eq hvalid, enableCurrent_eq hvalid]

/-- A charger that is woken up has its enable current left in the raw limits from the start. -/
theorem wakeUpCurrent_le_raw (hwakes : WakesUp input i phases) {p : GridPhase} (hp : p ≠ .pv)
    (hmay : MayUse phases (input.chargerState i).phaseRotation p) :
    (phases = 1 ∨ phases = 3) ∧ wakeUpCurrent input i phases ≤ input.limits.raw.get p := by
  have hfresh := initialContext_fresh input
  obtain ⟨hnot, -⟩ | ⟨phases', hvalid, hphases, hwakes', hlow, -⟩ := finished_cases input i
  · exact absurd hwakes (hnot phases)
  obtain rfl := (hwakes' phases).mp hwakes
  refine ⟨hvalid, ?_⟩
  have hrot : (input.env.chargerState i).phaseRotation = (input.chargerState i).phaseRotation := by
    obtain ⟨off, hoff⟩ := env_chargerState input i
    rw [hoff]
  have hpos : 0 < wakeUpCurrent input i phases :=
    (minimumCurrent_pos input.cfg phases).trans_le (enableCurrent_mem hvalid).1
  obtain ⟨-, -, hsupplied, -⟩ := @runStages_finished _ input.env _ hfresh
  have htotal := @runStages_total _ input.env _ hfresh (.raw, ⟨p, hp⟩)
  rw [total_initialContext, Ledger.total] at htotal
  generalize runStages input.env input.initialContext = last at *
  have hfactor : (last.factors input.env i).get p = 1 := by
    rw [StageContext.factors, hphases, hrot]
    exact (factor_eq_zero_or_one _ _ hp).resolve_left (factor_of_mayUse hvalid hp hmay)
  have hleft : 0 ≤ last.limits.raw.get p :=
    hsupplied.covered i (Or.inl (hpos.trans_le hlow)) p hp (by rwa [hphases, hrot])
  have hheld : ∀ j ∈ Finset.univ, 0 ≤ (accounts input.env last).held j (.raw, ⟨p, hp⟩) :=
    fun j _ => Int.mul_nonneg (factor_nonneg _ _ _) (hsupplied.nonneg j)
  calc wakeUpCurrent input i phases
      ≤ last.currentAllocation i := hlow
    _ = (accounts input.env last).held i (.raw, ⟨p, hp⟩) := by
        simp only [accounts, hfactor, one_mul]
    _ ≤ ∑ j, (accounts input.env last).held j (.raw, ⟨p, hp⟩) :=
        Finset.single_le_sum hheld (Finset.mem_univ i)
    _ ≤ last.limits.raw.get p + ∑ j, (accounts input.env last).held j (.raw, ⟨p, hp⟩) :=
        le_add_of_nonneg_left hleft
    _ = input.limits.raw.get p := htotal

/-- A charger that is woken up beside an active one was a candidate from the start. -/
theorem WakesUp.candidate (hwakes : WakesUp input i phases)
    (hactive : haveActiveChargers input.env input.initialContext = true) :
    WakeUpCandidate input i phases := by
  have hfresh := initialContext_fresh input
  obtain ⟨off, hoff⟩ := env_chargerState input i
  obtain ⟨hfront, -⟩ := @beforeWakeUp_run _ input.env _ hfresh
  obtain ⟨hbefore, hafter, hne⟩ := hwakes
  obtain hsame | ⟨hgroup, hfull, htries⟩ := @stage9_phases _ input.env _ (hfront.indexed le_rfl) i
  · exact absurd (hafter.symm.trans (hsame.trans hbefore)) hne
  rw [hafter] at htries
  have hwakes' : WakesUp input i phases := ⟨hbefore, hafter, hne⟩
  refine ⟨(hfront.mem_take i).mp hgroup, by rwa [hoff] at hfull, by rwa [hoff] at htries,
    fun p hp hmay => ?_⟩
  obtain ⟨hvalid, hle⟩ := wakeUpCurrent_le_raw hwakes' hp hmay
  rwa [wakeUpCurrent_of_active hvalid hactive] at hle

/-- What holds of the enable currents of all candidates and of all minimum currents holds of the
current of every wake-up. -/
theorem forall_wakeUpCurrent {Q : Fin n → UInt8 → Int → Prop}
    (hcandidates : ∀ i phases, WakeUpCandidate input i phases →
      Q i phases (fullEnableCurrent input i phases))
    (hminimum : ∀ i phases, Q i phases (minimumCurrent input.cfg phases)) (i : Fin n)
    (phases : UInt8) (hwakes : WakesUp input i phases) :
    Q i phases (wakeUpCurrent input i phases) := by
  obtain ⟨hnot, -⟩ | ⟨phases', hvalid, -, hwakes', -⟩ := finished_cases input i
  · exact absurd hwakes (hnot phases)
  obtain rfl := (hwakes' phases).mp hwakes
  by_cases hactive : haveActiveChargers input.env input.initialContext = true
  · rw [wakeUpCurrent_of_active hvalid hactive]
    exact hcandidates i phases (hwakes.candidate hactive)
  · rw [wakeUpCurrent, Bool.eq_false_iff.mpr hactive, enableCurrent_idle hvalid]
    exact hminimum i phases

end

theorem TwoChargers.fullEnableCurrent_eq (i : Fin 2) {phases : UInt8}
    (hvalid : phases = 1 ∨ phases = 3) :
    fullEnableCurrent (TwoChargers.input 6000 (by decide) 32000) i phases = 18000 := by
  rcases hvalid with rfl | rfl <;> revert i <;> decide

end Esp32Firmware.ChargeManager
