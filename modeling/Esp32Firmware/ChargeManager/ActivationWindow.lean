import Esp32Firmware.ChargeManager.PhaseWindow

/-!
# Activations fit the window

`can_activate` compares the min limit of a phase with the window and the new cost, both
raised by the enable factor. No rounding makes that less than the window with the new
minimum cost, so after stages 4 and 5 the window still fits the raw limits.
-/

namespace Esp32Firmware.ChargeManager

open Binary32

variable {n : Nat}

section

variable {env : StageEnv n} {sc : StageContext n} {i : Fin n} {req : ActivationRequest}
  {f : Float32.Model} {p : GridPhase}

/-- An activation is allowed only if the min limits cover the required current. -/
theorem requiredEnable_le_of_canActivate (h : (canActivate env sc i req).1 = true)
    (hp : p ≠ .pv) (hcheck : req.checkPhase p &&& checkMinWindowEnable ≠ 0)
    (hcost : 0 < req.newCost.get p) :
    (req.requiredEnable env.cfg.enableCurrentFactor.value p).toInt32.toInt ≤
      sc.limits.min.get p := by
  unfold canActivate at h
  simp only at h
  split at h
  · cases h
  · split at h
    · cases h
    · next hfind =>
        have hmem : p ∈ GridPhase.pv :: GridPhase.phases := by cases p <;> decide
        have hpass := List.find?_eq_none.mp hfind p hmem
        have hskip : req.skips (checkMinWindowMin ||| checkMinWindowEnable) p = false := by
          have hflags : req.checkPhase p &&& (checkMinWindowMin ||| checkMinWindowEnable) ≠ 0 := by
            intro hzero
            refine hcheck ?_
            have hsub : (checkMinWindowMin ||| checkMinWindowEnable) &&& checkMinWindowEnable =
              checkMinWindowEnable := rfl
            rw [← hsub, ← Nat.and_assoc, hzero, Nat.zero_and]
          simp [ActivationRequest.skips, hflags, hcost]
        have hpv : (p == GridPhase.pv) = false := beq_eq_false_iff_ne.mpr hp
        simpa [minimumFails, hskip, hpv, requiredMinimum, hcheck] using hpass

/-- The required current covers the window together with the new cost. -/
theorem le_requiredEnable {c : Int} (hf : Finite f) (h1 : 1 ≤ value f) (h3 : value f ≤ 3)
    (hwnd : 0 ≤ req.wndMin.get p) (hwnd' : req.wndMin.get p ≤ 64 * 32000) (hc : 0 ≤ c)
    (henable : c ≤ req.newEnableCost.get p) (henable' : req.newEnableCost.get p ≤ 96000) :
    req.wndMin.get p + c ≤ (req.requiredEnable f p).toInt32.toInt := by
  unfold ActivationRequest.requiredEnable
  generalize req.wndMin.get p = w at *
  generalize req.newEnableCost.get p = e at *
  obtain ⟨w, rfl⟩ := Int.eq_ofNat_of_zero_le hwnd
  obtain ⟨e, rfl⟩ := Int.eq_ofNat_of_zero_le (hc.trans henable)
  obtain ⟨hprod, hlow, hhigh⟩ := mul_ofInt_mem hf h1 h3 (show 3 * w < 2 ^ 24 by omega)
  obtain ⟨hfin, hval⟩ := ofInt_exact (show e < 2 ^ 24 by omega)
  have hw0 : (0 : ℚ) ≤ ((w : ℤ) : ℚ) := by exact_mod_cast hwnd
  have he0 : (0 : ℚ) ≤ value (Float32.Model.ofInt e) := by
    rw [hval]
    exact Nat.cast_nonneg e
  have hbound : value (Float32.Model.ofInt w * f) + value (Float32.Model.ofInt e) ≤
      ((3 * w + e : ℤ) : ℚ) := by
    rw [hval]
    push_cast at hhigh ⊢
    linarith
  have hbound' : ((3 * w + e : ℤ) : ℚ) < 2 ^ 24 := by exact_mod_cast (show 3 * (w : ℤ) + e < 2 ^ 24 by omega)
  obtain ⟨hsum, hround⟩ := add_isRounded hprod hfin (hw0.trans hlow) he0 (by linarith)
  have hle : ((w + c : ℤ) : ℚ) ≤ value (Float32.Model.ofInt w * f + Float32.Model.ofInt e) := by
    refine hround.int_le (by omega) ?_
    have hce : (c : ℚ) ≤ ((e : ℤ) : ℚ) := by exact_mod_cast henable
    rw [hval]
    push_cast at hlow hce ⊢
    linarith
  have hge := hround.le_int (n := 3 * w + e) (by omega) hbound
  have hc0 : (0 : ℚ) ≤ ((w + c : ℤ) : ℚ) := by exact_mod_cast (show 0 ≤ (w : ℤ) + c by omega)
  rw [toInt32_eq_floor hsum (hc0.trans hle) (by linarith)]
  exact Int.le_floor.mpr hle

end

/-- The control window is up to date, and the window fits the raw limits. -/
structure Windowed (env : StageEnv n) (sc : StageContext n) : Prop where
  known : ∀ p, sc.caState.controlWindowMin.get p = window env sc p
  fits : ∀ p, p ≠ .pv → Fits env sc p

section

variable {env : StageEnv n} {sc sc' : StageContext n} {i : Fin n} {p : GridPhase}

theorem Fits.mono (h : Fits env sc p) (hlimits : sc'.limits = sc.limits)
    (hwindow : window env sc' p ≤ window env sc p) : Fits env sc' p := by
  unfold Fits
  rw [hlimits]
  rcases h with hle | hzero
  · exact Or.inl (hwindow.trans hle)
  · exact Or.inr (le_antisymm (hwindow.trans_eq hzero) (window_nonneg env sc' p))

theorem minimumCost_le (env : StageEnv n) (sc : StageContext n) (i : Fin n) (hp : p ≠ .pv) :
    (sc.minimumCost env i).get p ≤ 32000 := by
  have hmin := minimumCurrent_mem env.cfg (sc.phaseAllocation i)
  rw [minimumCost_get]
  rcases factor_eq_zero_or_one (sc.phaseAllocation i) (env.chargerState i).phaseRotation hp with
    h | h
  · rw [StageContext.factors, h, zero_mul]
    decide
  · rw [StageContext.factors, h, one_mul]
    exact hmin.2

/-- Even with all chargers active the window is far below the precision of a float. -/
theorem window_le (env : StageEnv n) (sc : StageContext n) (hp : p ≠ .pv) :
    window env sc p ≤ 64 * 32000 := by
  have hdemand : ∀ i ∈ Finset.univ.filter (· ∈ sc.group), demand env sc i p ≤ 32000 := by
    intro i _
    unfold demand
    split_ifs
    · decide
    · exact minimumCost_le env sc i hp
  have hsum := Finset.sum_le_card_nsmul _ _ _ hdemand
  have hcard : (Finset.univ.filter (· ∈ sc.group)).card ≤ 64 :=
    (Finset.card_le_univ _).trans ((Fintype.card_fin n).trans_le env.cfg.chargerCount_le)
  unfold window
  rw [nsmul_eq_mul] at hsum
  have hcard' : ((Finset.univ.filter (· ∈ sc.group)).card : ℤ) ≤ 64 := by exact_mod_cast hcard
  omega

/-- An allowed activation leaves room for its new cost. -/
theorem Windowed.room {req : ActivationRequest} (hsc : Windowed env sc)
    (hmin : sc.limits.min.get p ≤ sc.limits.raw.get p) (hp : p ≠ .pv)
    (h : (canActivate env sc i req).1 = true) (hwnd : req.wndMin = sc.caState.controlWindowMin)
    (hcheck : req.checkPhase p &&& checkMinWindowEnable ≠ 0) (hcost : 0 < req.newCost.get p)
    (henable : req.newCost.get p ≤ req.newEnableCost.get p)
    (henable' : req.newEnableCost.get p ≤ 96000) :
    window env sc p + req.newCost.get p ≤ sc.limits.raw.get p := by
  obtain ⟨hfin, h1, h3⟩ := between_one_three env.cfg.enableCurrentFactor.one_le
    env.cfg.enableCurrentFactor.le_three
  have hknown : req.wndMin.get p = window env sc p := by
    rw [hwnd]
    exact hsc.known p
  have hrequired := requiredEnable_le_of_canActivate h hp hcheck hcost
  have hle := @le_requiredEnable req _ p _ hfin h1 h3 (hknown.trans_ge (window_nonneg env sc p))
    (hknown.trans_le (window_le env sc hp)) hcost.le henable henable'
  omega

/-- Calculating the window keeps the books. -/
theorem Windowed.of_calculateWindow (hidx : Indexed sc) (hfits : ∀ p, p ≠ .pv → Fits env sc p) :
    Windowed env (calculateWindow env sc) := by
  have hsame : ∀ q, window env (calculateWindow env sc) q = window env sc q :=
    fun q => window_congr (fun _ => Iff.rfl) rfl rfl
  constructor
  · intro q
    rw [hsame, calculateWindow_get hidx]
  · intro q hq
    exact (hfits q hq).mono rfl (hsame q).le

/-- Activating a charger, or switching its phases, keeps the window within the limits
if there is room for the cost added. -/
theorem Windowed.setPhases {phases : UInt8} (hsc : Windowed env sc) (hidx : Indexed sc)
    (hi : i ∈ sc.group) (idle : sc.currentAllocation i = 0)
    (hroom : ∀ p, p ≠ .pv → 0 < (getMinimumCost phases (env.chargerState i).phaseRotation env.cfg -
        sc.minimumCost env i).get p →
      window env sc p + (getMinimumCost phases (env.chargerState i).phaseRotation env.cfg -
        sc.minimumCost env i).get p ≤ sc.limits.raw.get p) :
    Windowed env (calculateWindow env (sc.setPhases i phases)) := by
  have hself : (sc.setPhases i phases).phaseAllocation i = phases := Function.update_self i _ _
  have hbefore : ∀ q, demand env sc i q = (sc.minimumCost env i).get q := by
    intro q
    unfold demand
    rw [idle, if_neg (lt_irrefl 0)]
  have hafter : ∀ q, demand env (sc.setPhases i phases) i q =
      (getMinimumCost phases (env.chargerState i).phaseRotation env.cfg).get q := by
    intro q
    have hidle : (sc.setPhases i phases).currentAllocation i = 0 := idle
    unfold demand StageContext.minimumCost
    rw [hidle, if_neg (lt_irrefl 0), hself]
  have hother : ∀ q j, j ≠ i → demand env (sc.setPhases i phases) j q = demand env sc j q := by
    intro q j hji
    have hphases : (sc.setPhases i phases).phaseAllocation j = sc.phaseAllocation j :=
      Function.update_of_ne hji _ _
    unfold demand StageContext.minimumCost
    rw [hphases]
    rfl
  have hwindow : ∀ q, window env (sc.setPhases i phases) q = window env sc q +
      (getMinimumCost phases (env.chargerState i).phaseRotation env.cfg -
        sc.minimumCost env i).get q := by
    intro q
    rw [@window_update _ env sc (sc.setPhases i phases) i q (fun _ => Iff.rfl) hi (hother q),
      hbefore, hafter, Cost.get_sub]
    ring
  refine .of_calculateWindow (hidx.setPhases i phases) fun q hq => ?_
  rcases lt_or_ge 0 ((getMinimumCost phases (env.chargerState i).phaseRotation env.cfg -
    sc.minimumCost env i).get q) with hpos | hneg
  · exact Or.inl ((hwindow q).trans_le (hroom q hq hpos))
  · exact (hsc.fits q hq).mono rfl (by rw [hwindow]; omega)

end

/-- What is left of the limits covers the minimum cost of a charger on top of the window. -/
def Room (env : StageEnv n) (sc : StageContext n) (i : Fin n) (phases : UInt8) : Prop :=
  ∀ p, p ≠ .pv → 0 < (getMinimumCost phases (env.chargerState i).phaseRotation env.cfg).get p →
    window env sc p + (getMinimumCost phases (env.chargerState i).phaseRotation env.cfg).get p ≤
      sc.limits.raw.get p

/-- The min limits of the grid phases are not above the raw limits. -/
def MinBelowRaw (sc : StageContext n) : Prop :=
  ∀ p, p ≠ .pv → sc.limits.min.get p ≤ sc.limits.raw.get p

section

variable {env : StageEnv n} {sc sc' : StageContext n} {i : Fin n} {phases : UInt8}
  {haveActiveChargers : Bool}

theorem tryActivate_room (hsc : Windowed env sc) (hmin : MinBelowRaw sc)
    (valid : phases = 1 ∨ phases = 3)
    (h : (tryActivate env sc i (phases == 3) haveActiveChargers).1 = true) :
    Room env sc i phases := by
  intro p hp hpos
  have hnew : (activationRequest env sc (env.chargerState i) (phases == 3)
      haveActiveChargers).newCost =
      getMinimumCost phases (env.chargerState i).phaseRotation env.cfg := by
    rcases valid with rfl | rfl <;> rfl
  have henable := @enable_get_phase _ env.cfg (env.chargerState i) phases haveActiveChargers p
    valid hp
  obtain ⟨hlow, hhigh⟩ := @enableCurrent_mem _ env.cfg (env.chargerState i) phases
    haveActiveChargers valid
  have hbound := minimumCurrent_mem env.cfg phases
  have hcost : (getMinimumCost phases (env.chargerState i).phaseRotation env.cfg).get p =
      (getPhaseFactors phases (env.chargerState i).phaseRotation).get p *
        minimumCurrent env.cfg phases := Cost.get_scale _ _ _
  have hfactor : (getPhaseFactors phases (env.chargerState i).phaseRotation).get p = 1 := by
    refine (factor_eq_zero_or_one phases _ hp).resolve_left fun hzero => ?_
    rw [hcost, hzero, zero_mul] at hpos
    exact absurd hpos (lt_irrefl 0)
  rw [hfactor, one_mul] at henable hcost
  have hcheck : (activationRequest env sc (env.chargerState i) (phases == 3)
      haveActiveChargers).checkPhase p &&& checkMinWindowEnable ≠ 0 := by
    unfold activationRequest
    cases p with
    | pv => exact absurd rfl hp
    | l1 | l2 | l3 =>
      simp only
      split_ifs <;> decide
  have hroom := @Windowed.room _ env sc i p _ hsc (hmin p hp) hp h rfl hcheck
    (by rw [hnew]; exact hpos) (by rw [hnew, hcost]; exact hlow.trans_eq henable.symm)
    (by exact henable.trans_le (by omega))
  rwa [hnew] at hroom

theorem Windowed.activate (hsc : Windowed env sc) (hidx : Indexed sc) (hi : i ∈ sc.group)
    (inactive : sc.phaseAllocation i = 0) (idle : sc.currentAllocation i = 0)
    (hroom : Room env sc i phases) : Windowed env (calculateWindow env (sc.setPhases i phases)) := by
  refine hsc.setPhases hidx hi idle fun p hp hcost => ?_
  rw [Cost.get_sub, minimumCost_zero inactive, sub_zero] at hcost ⊢
  exact hroom p hp hcost

end

variable {env : StageEnv n} {sc sc' : StageContext n} {i : Fin n} {p : GridPhase}

/-- The enable cost of a phase switch covers its new cost. -/
theorem phaseSwitch_enable (state : ChargerState) (checkPvMin : Nat) (hp : p ≠ .pv)
    (hcost : 0 < (phaseSwitchRequest env sc state checkPvMin).newCost.get p) :
    (phaseSwitchRequest env sc state checkPvMin).newCost.get p ≤
        (phaseSwitchRequest env sc state checkPvMin).newEnableCost.get p ∧
      (phaseSwitchRequest env sc state checkPvMin).newEnableCost.get p ≤ 96000 := by
  obtain ⟨hfin, h1, h3⟩ := between_one_three env.cfg.enableCurrentFactor.one_le
    env.cfg.enableCurrentFactor.le_three
  have hmin3 := env.cfg.minimumCurrent3p_mem
  have hone : Cost.get ⟨3, 1, 1, 1⟩ p = 1 := by
    cases p with
    | pv => exact absurd rfl hp
    | l1 | l2 | l3 => rfl
  have hold : 0 ≤ (getMinimumCost 1 state.phaseRotation env.cfg).get p := by
    rw [getMinimumCost, Cost.get_scale]
    exact Int.mul_nonneg (factor_nonneg _ _ p) (minimumCurrent_pos env.cfg 1).le
  have hnew : (phaseSwitchRequest env sc state checkPvMin).newCost.get p =
      env.cfg.minimumCurrent3p - (getMinimumCost 1 state.phaseRotation env.cfg).get p := by
    unfold phaseSwitchRequest
    rw [Cost.get_sub, Cost.get_scale, hone, one_mul]
  have henable : (phaseSwitchRequest env sc state checkPvMin).newEnableCost.get p =
      Cost.scaleFloat.truncMul (Float32.Model.ofInt env.cfg.minimumCurrent3p *
        env.cfg.enableCurrentFactor.value) 1 -
      Cost.scaleFloat.truncMul env.cfg.enableCurrentFactor.value
        ((getMinimumCost 1 state.phaseRotation env.cfg).get p) := by
    unfold phaseSwitchRequest
    rw [Cost.get_sub, Cost.get_scaleFloat, Cost.get_scaleFloat, hone]
  rw [hnew] at hcost ⊢
  rw [henable]
  obtain ⟨hlow, hhigh⟩ := truncMul_sub_mem hfin h1 h3 hold (by omega)
    (show 3 * env.cfg.minimumCurrent3p < 2 ^ 24 by omega)
  exact ⟨hlow, by omega⟩

/-- A switch to three phases that is allowed keeps the window within the limits. -/
theorem Windowed.switch (hsc : Windowed env sc) (hmin : MinBelowRaw sc) (hidx : Indexed sc)
    (hi : i ∈ sc.group) (hone : sc.phaseAllocation i = 1) (idle : sc.currentAllocation i = 0)
    {b : StageContext n} (hb : Explained i sc b) {checkPvMin : Nat} (hallowed : (canActivate env b i
      (phaseSwitchRequest env b (env.chargerState i) checkPvMin)).1 = true) :
    Windowed env (calculateWindow env (sc.setPhases i 3)) := by
  obtain ⟨f, rfl⟩ := hb
  have hcost : getMinimumCost 3 (env.chargerState i).phaseRotation env.cfg -
      sc.minimumCost env i =
        (phaseSwitchRequest env sc (env.chargerState i) checkPvMin).newCost := by
    rw [StageContext.minimumCost, hone]
    rfl
  refine hsc.setPhases hidx hi idle fun p hp hpos => ?_
  rw [hcost] at hpos ⊢
  obtain ⟨hlow, hhigh⟩ := phaseSwitch_enable (env.chargerState i) checkPvMin hp hpos
  have hcheck : (phaseSwitchRequest env sc (env.chargerState i) checkPvMin).checkPhase p &&&
      checkMinWindowEnable ≠ 0 := by
    unfold phaseSwitchRequest
    cases p with
    | pv => exact absurd rfl hp
    | l1 | l2 | l3 =>
      simp only
      split_ifs <;> decide
  have hknown : Windowed env (sc.modifyDecision i f) := ⟨hsc.known, hsc.fits⟩
  exact hknown.room (hmin p hp) hp hallowed rfl hcheck hpos hlow hhigh

/-- A property of what is allocated and of the control window. -/
def RespectsBooks (P : StageContext n → Prop) : Prop :=
  ∀ a b, (∀ i, i ∈ b.group ↔ i ∈ a.group) → b.phaseAllocation = a.phaseAllocation →
    b.currentAllocation = a.currentAllocation → b.limits = a.limits → b.caState = a.caState →
    P a → P b

section

variable {P : StageContext n → Prop}

theorem RespectsBooks.explained (hP : RespectsBooks P) (h : Explained i sc sc') (hsc : P sc) :
    P sc' := by
  obtain ⟨f, rfl⟩ := h
  exact hP sc _ (fun _ => Iff.rfl) rfl rfl rfl rfl hsc

theorem RespectsBooks.select (hP : RespectsBooks P) {p : Fin n → Bool} {matched : Nat}
    (h : Selected p sc sc' matched) (hsc : P sc) : P sc' := by
  have hgroup := fun i => @SameGroup.mem_iff _ _ _ h.sameGroup i
  obtain ⟨idx, rfl⟩ := h.context
  exact hP sc _ hgroup rfl rfl rfl rfl hsc

section

variable (hP : RespectsBooks P) (hidx : Indexed sc)
  (hzero : ∀ i ∈ sc.group, sc.currentAllocation i = 0)
include hP hidx hzero

/-- Stage 4 keeps a property that every activation keeps. -/
theorem stage4_induction
    (hactivate : ∀ c i phases b haveActive, PhaseRun env .middle (fun _ => True) sc c → P c →
      i ∈ sc.group → c.phaseAllocation i = 0 → c.currentAllocation i = 0 →
      (phases = 1 ∨ phases = 3) → Explained i c b →
      (tryActivate env b i (phases == 3) haveActive).1 = true →
      P (calculateWindow env (c.setPhases i phases)))
    (hstart : P (calculateWindow env sc)) : P (stage4 env sc) := by
  have hidx' : Indexed (calculateWindow env sc) := ⟨hidx.perm, hidx.count⟩
  have hsel := (filterChargers_selected (fun i => decide (sc.phaseAllocation i = 0) &&
    ((env.chargerState i).wantsToCharge || (env.chargerState i).isCharging))
    (calculateWindow env sc) hidx.count_le).sort (activationGroup env) (activationCompare env)
    hidx.count_le
  have hwindow : PhaseRun env .middle (fun _ => True) sc (calculateWindow env sc) :=
    .of_sameBooks (sameBooks_calculateWindow sc env)
  refine @PhaseRun.select_induction _ env .middle _ _ _ _ hsel hidx' hzero _ Prod.fst
    (stage4Charger env) (_, _) rfl _
    (fun acc i hi hsame hidle hrun hacc => ?_) (hP.select hsel hstart)
  have hinactive : acc.1.phaseAllocation i = 0 :=
    hsame.trans (of_decide_eq_true (Bool.and_eq_true _ _ |>.mp hi.2).1)
  refine ⟨stage4Charger_run acc rfl hidle, ?_⟩
  obtain ⟨c, hexplained, hcases⟩ := @stage4Charger_cases _ env i acc
  have hc := hP.explained hexplained hacc
  have hbooks : SameBooks (fun _ => True) acc.1 c := hexplained.sameBooks trivial
  have hinactive' : c.phaseAllocation i = 0 := (congrFun hbooks.phases i).trans hinactive
  obtain hkept | hnone | ⟨phases, b, htries, hb, hactivated, hset⟩ := hcases
  · rwa [hkept]
  · have hkept : c.setPhases i 0 = c := by
      rw [StageContext.setPhases, ← hinactive', Function.update_eq_self]
    rwa [hnone, hkept]
  · rw [hset]
    exact hactivate c i phases b acc.2 (hwindow.trans (hrun.trans (.of_sameBooks hbooks))) hc hi.1
      hinactive' ((congrFun hbooks.current i).trans hidle) htries.valid hb hactivated

/-- Stage 5 keeps a property that every switch to three phases keeps. -/
theorem stage5_induction
    (hswitch : ∀ c i b checkPvMin, PhaseRun env .middle (fun _ => True) sc c → P c →
      i ∈ sc.group → c.phaseAllocation i = 1 → c.currentAllocation i = 0 → Explained i c b →
      (canActivate env b i (phaseSwitchRequest env b (env.chargerState i) checkPvMin)).1 = true →
      P (calculateWindow env (c.setPhases i 3)))
    (hsc : P sc) : P (stage5 env sc) := by
  have hsel := (filterChargers_selected (fun i => decide (sc.phaseAllocation i = 1) &&
    (env.chargerState i).phaseSwitchSupported) sc hidx.count_le).sort (activationGroup env)
    (activationCompare env) hidx.count_le
  refine @PhaseRun.select_induction _ env .middle _ _ _ _ hsel hidx hzero _ id
    (stage5Charger env _) _ rfl _
    (fun c i hi hsame hidle hrun hc => ?_) (hP.select hsel hsc)
  obtain ⟨hone, hsupported⟩ := Bool.and_eq_true _ _ |>.mp hi.2
  refine ⟨stage5Charger_run _ rfl hsupported hidle, ?_⟩
  obtain ⟨d, hexplained, hcases⟩ := @stage5Charger_cases _ env c i _
  have hd := hP.explained hexplained hc
  have hbooks : SameBooks (fun _ => True) c d := hexplained.sameBooks trivial
  obtain hkept | ⟨_, hallowed, hset⟩ := hcases
  · exact hkept ▸ hd
  · rw [id, hset]
    exact hswitch d i c _ (hrun.trans (.of_sameBooks hbooks)) hd hi.1
      ((congrFun hbooks.phases i).trans (hsame.trans (of_decide_eq_true hone)))
      ((congrFun hbooks.current i).trans hidle) hexplained.symm hallowed

end

end

theorem windowed_respectsBooks (env : StageEnv n) : RespectsBooks (Windowed env) := by
  intro a b hgroup hphases hcurrent hlimits hstate ha
  have hsame : ∀ q, window env b q = window env a q :=
    fun q => window_congr hgroup hphases hcurrent
  refine ⟨fun q => ?_, fun q hq => (ha.fits q hq).mono hlimits (hsame q).le⟩
  rw [hsame, hstate]
  exact ha.known q

/-- Stage 4 keeps the window within the limits. -/
theorem stage4_windowed (hidx : Indexed sc) (hzero : ∀ i ∈ sc.group, sc.currentAllocation i = 0)
    (hmin : MinBelowRaw sc) (hfits : ∀ p, p ≠ .pv → Fits env sc p) :
    Windowed env (stage4 env sc) := by
  refine stage4_induction (windowed_respectsBooks env) hidx hzero
    (fun c i phases b haveActive hrun hc hi hinactive hidle hvalid hb hactivated => ?_)
    (.of_calculateWindow hidx hfits)
  have hmin' : MinBelowRaw c := by rwa [MinBelowRaw, hrun.limits]
  refine hc.activate (hrun.sameGroup.indexed hidx) (hrun.sameGroup.mem_iff.mpr hi) hinactive hidle ?_
  obtain ⟨f, rfl⟩ := hb
  have hknown : Windowed env (c.modifyDecision i f) := ⟨hc.known, hc.fits⟩
  have hroom := tryActivate_room hknown hmin' hvalid hactivated
  exact hroom

/-- Stage 5 keeps the window within the limits. -/
theorem stage5_windowed (hsc : Windowed env sc) (hidx : Indexed sc)
    (hzero : ∀ i ∈ sc.group, sc.currentAllocation i = 0) (hmin : MinBelowRaw sc) :
    Windowed env (stage5 env sc) := by
  refine stage5_induction (windowed_respectsBooks env) hidx hzero
    (fun c i b checkPvMin hrun hc hi hone hidle hb hallowed => ?_) hsc
  have hmin' : MinBelowRaw c := by rwa [MinBelowRaw, hrun.limits]
  exact hc.switch hmin' (hrun.sameGroup.indexed hidx) (hrun.sameGroup.mem_iff.mpr hi) hone hidle
    hb hallowed

end Esp32Firmware.ChargeManager
