import Esp32Firmware.ChargeManager.ActivationWindow
import Esp32Firmware.ChargeManager.CurrentBound
import Esp32Firmware.ChargeManager.RunAllocator

/-!
# Minimum currents

While the window fits the limits stage 6 serves every active charger, and stages 7 and 8
never take a minimum current back. So no cost exceeds the limits, and whoever has phases
before the wake-up has its minimum current.
-/

namespace Esp32Firmware.ChargeManager

variable {n : Nat}

/-- A charger has no phases or exactly the minimum current for them. -/
def Served (env : StageEnv n) (sc : StageContext n) (i : Fin n) : Prop :=
  sc.phaseAllocation i = 0 ∨ sc.currentAllocation i = minimumCurrent env.cfg (sc.phaseAllocation i)

/-- A charger has no phases or at least the minimum current for them. -/
def Complete (env : StageEnv n) (sc : StageContext n) (i : Fin n) : Prop :=
  sc.phaseAllocation i = 0 ∨ minimumCurrent env.cfg (sc.phaseAllocation i) ≤ sc.currentAllocation i

section

variable {env : StageEnv n} {sc sc' : StageContext n} {i : Fin n} {p : GridPhase}

theorem Served.complete (h : Served env sc i) : Complete env sc i := by
  rcases h with hzero | hmin
  · exact Or.inl hzero
  · exact Or.inr hmin.ge

theorem Served.congr (h : Served env sc i)
    (hphases : sc'.phaseAllocation i = sc.phaseAllocation i)
    (hcurrent : sc'.currentAllocation i = sc.currentAllocation i) : Served env sc' i := by
  rwa [Served, hphases, hcurrent]

theorem Complete.congr (h : Complete env sc i)
    (hphases : sc'.phaseAllocation i = sc.phaseAllocation i)
    (hcurrent : sc'.currentAllocation i = sc.currentAllocation i) : Complete env sc' i := by
  rwa [Complete, hphases, hcurrent]

theorem Served.minimumOnly (h : Served env sc i) (hsc : ActiveOnly sc) : MinimumOnly env sc i :=
  h.imp_left (hsc i)

/-- A served charger needs nothing. -/
theorem Served.demand_eq_zero (h : Served env sc i) : demand env sc i p = 0 := by
  rw [demand]
  rcases h with hzero | hmin
  · rw [minimumCost_zero hzero, ite_self]
  · rw [if_pos ((minimumCurrent_pos env.cfg _).trans_eq hmin.symm)]

theorem fits_of_served (h : ∀ i ∈ sc.group, Served env sc i) : Fits env sc p :=
  Or.inr (Finset.sum_eq_zero fun i hi => (h i (Finset.mem_filter.mp hi).2).demand_eq_zero)

/-- Moving an amount between the window and the limit keeps the window within it. -/
theorem Fits.transfer {c : Int} (h : Fits env sc p)
    (hraw : sc'.limits.raw.get p = sc.limits.raw.get p - c)
    (hwindow : window env sc' p = window env sc p - c) (hle : c ≤ window env sc p)
    (hcovered : c < 0 → 0 ≤ sc.limits.raw.get p) : Fits env sc' p := by
  rw [Fits, hraw, hwindow]
  rcases h with hfits | hzero <;> omega

end

section

variable {env : StageEnv n} {sc : StageContext n} {i : Fin n} {p : GridPhase}

/-- Setting a current changes the window by what the charger needs. -/
theorem window_setCurrent (hi : i ∈ sc.group) {sc' : StageContext n} {current : Int}
    (hidx : sc'.idxArray = sc.idxArray) (hcount : sc'.chargerCount = sc.chargerCount)
    (hphases : sc'.phaseAllocation = sc.phaseAllocation)
    (hcurrent : sc'.currentAllocation = Function.update sc.currentAllocation i current) :
    window env sc' p = window env sc p - demand env sc i p +
      if 0 < current then 0 else (sc.minimumCost env i).get p := by
  have hgroup : ∀ j, j ∈ sc'.group ↔ j ∈ sc.group := by
    intro j
    rw [StageContext.group, StageContext.group, hidx, hcount]
  have hother : ∀ j, j ≠ i → demand env sc' j p = demand env sc j p := by
    intro j hj
    rw [demand, demand, StageContext.minimumCost, StageContext.minimumCost, hphases, hcurrent,
      Function.update_of_ne hj]
  have hself : demand env sc' i p = if 0 < current then 0 else (sc.minimumCost env i).get p := by
    rw [demand, StageContext.minimumCost, hphases, hcurrent, Function.update_self]
    rfl
  rw [window_update hgroup hi hother, hself]

theorem demand_of_idle (idle : sc.currentAllocation i = 0) :
    demand env sc i p = (sc.minimumCost env i).get p := by
  rw [demand, idle, if_neg (lt_irrefl 0)]

/-- While the window fits the limits, so does every minimum cost in it. -/
theorem minimumCost_fits (hi : i ∈ sc.group) (idle : sc.currentAllocation i = 0)
    (hfits : ∀ p, p ≠ .pv → Fits env sc p) :
    phasesExceeded (sc.minimumCost env i) sc.limits.raw = false := by
  apply phasesExceeded_eq_false.mpr
  intro p hp hpos
  have hle := @demand_le_window _ env sc i p hi
  rw [demand_of_idle idle] at hle
  rcases hfits p hp with hwindow | hzero
  · exact hle.trans hwindow
  · omega

/-- The loop of stage 6 serves all its chargers. -/
theorem stage6_foldl_served {l : List (Fin n)} (hnodup : l.Nodup)
    (hl : ∀ i ∈ l, i ∈ sc.group ∧ sc.phaseAllocation i ≠ 0 ∧ sc.currentAllocation i = 0)
    (hfits : ∀ p, p ≠ .pv → Fits env sc p) :
    (l.foldl (stage6Charger env) sc).exceeded = sc.exceeded ∧
      ∀ i, (l.foldl (stage6Charger env) sc).currentAllocation i =
        if i ∈ l then minimumCurrent env.cfg (sc.phaseAllocation i)
        else sc.currentAllocation i := by
  induction l generalizing sc with
  | nil => simp
  | cons j rest ih =>
    obtain ⟨hnew, hrest⟩ := List.nodup_cons.mp hnodup
    obtain ⟨hgroup, hactive, hidle⟩ := hl j List.mem_cons_self
    have hcost := minimumCost_fits hgroup hidle hfits
    have hpos := minimumCurrent_pos env.cfg (sc.phaseAllocation j)
    rcases @stage6Charger_cases _ env sc j hactive with ⟨hexceeds, _⟩ | ⟨_, hmin⟩
    · rw [hcost] at hexceeds
      cases hexceeds
    · rw [List.foldl_cons, hmin]
      generalize hnext : ((sc.setCurrentDecision j .minimum).setCurrent j
        (minimumCurrent env.cfg (sc.phaseAllocation j))).applyCost (sc.minimumCost env j) = next
      have hcurrent : next.currentAllocation =
          Function.update sc.currentAllocation j (minimumCurrent env.cfg (sc.phaseAllocation j)) := by
        rw [← hnext]
        rfl
      have hphases : next.phaseAllocation = sc.phaseAllocation := by
        rw [← hnext]
        rfl
      have hsame : next.idxArray = sc.idxArray ∧ next.chargerCount = sc.chargerCount := by
        rw [← hnext]
        exact ⟨rfl, rfl⟩
      have hexceeded : next.exceeded = sc.exceeded := by
        rw [← hnext]
        rfl
      have hnextFits : ∀ p, p ≠ .pv → Fits env next p := by
        intro p hp
        have hwindow := @window_setCurrent _ env sc j p hgroup next _ hsame.1 hsame.2 hphases
          hcurrent
        rw [if_pos hpos, demand_of_idle hidle, add_zero] at hwindow
        apply (hfits p hp).transfer _ hwindow
        · rw [← demand_of_idle hidle]
          exact demand_le_window hgroup
        · intro hneg
          exact absurd (minimumCost_nonneg env sc j p) (not_le.mpr hneg)
        · rw [← hnext]
          exact Cost.get_sub _ _ p
      obtain ⟨ihexceeded, ihcurrent⟩ := ih hrest (fun k hk => by
        obtain ⟨hk1, hk2, hk3⟩ := hl k (List.mem_cons_of_mem j hk)
        have hkj : k ≠ j := fun h => hnew (h ▸ hk)
        rw [StageContext.group, hsame.1, hsame.2, hphases, hcurrent, Function.update_of_ne hkj]
        exact ⟨hk1, hk2, hk3⟩) hnextFits
      refine ⟨ihexceeded.trans hexceeded, fun i => (ihcurrent i).trans ?_⟩
      rw [hphases, hcurrent]
      rcases eq_or_ne i j with rfl | hij
      · simp
      · simp [hij]

/-- Stage 6 serves every charger of the group. -/
theorem stage6_served (hidx : Indexed sc) (hzero : ∀ i ∈ sc.group, sc.currentAllocation i = 0)
    (hfits : ∀ p, p ≠ .pv → Fits env sc p) :
    (stage6 env sc).exceeded = sc.exceeded ∧ ∀ i ∈ sc.group, Served env (stage6 env sc) i := by
  have hsel := filterChargers_selected
    (fun i => decide (sc.phaseAllocation i > 0) && decide (sc.currentAllocation i = 0)) sc
    hidx.count_le
  have hphases := fun i => (stage6_current env sc hidx i).1
  obtain ⟨selected, hselected⟩ : ∃ selected, selected = filterChargers (fun i =>
    decide (sc.phaseAllocation i > 0) && decide (sc.currentAllocation i = 0)) sc := ⟨_, rfl⟩
  rw [← hselected] at hsel
  have hstage : stage6 env sc = (selected.1.idxArray.take selected.2).foldl (stage6Charger env)
      selected.1 := by
    rw [hselected]
    rfl
  have hmem := fun i => @Selected.mem_iff _ _ _ _ _ hsel i
  have hgroup := fun i => @SameGroup.mem_iff _ _ _ hsel.sameGroup i
  obtain ⟨hsamePhases, hsameCurrent, hsameLimits, hsameExceeded⟩ := hsel.allocation_eq
  obtain ⟨hexceeded, hcurrent⟩ := @stage6_foldl_served _ env _ _ (hsel.nodup hidx) (fun i hi => by
    obtain ⟨hi', hp⟩ := (hmem i).mp hi
    rw [hsamePhases, hsameCurrent]
    exact ⟨(hgroup i).mpr hi', UInt8.pos_iff_ne_zero.mp (of_decide_eq_true
      (Bool.and_eq_true _ _ |>.mp hp).1), hzero i hi'⟩) (fun p hp =>
      (hfits p hp).mono hsameLimits (window_congr hgroup hsamePhases hsameCurrent).le)
  constructor
  · rw [hstage, hexceeded, hsameExceeded]
  · intro i hi
    rw [Served, hphases i]
    by_cases hinactive : sc.phaseAllocation i = 0
    · exact Or.inl hinactive
    · right
      have hin : i ∈ selected.1.idxArray.take selected.2 := by
        rw [hmem, Bool.and_eq_true, decide_eq_true_eq, decide_eq_true_eq]
        exact ⟨hi, UInt8.pos_iff_ne_zero.mpr hinactive, hzero i hi⟩
      rw [hstage, hcurrent, if_pos hin, hsamePhases]

/-- Taking minimum currents back raises the window no more than the limits. -/
theorem undoStage6_foldl_fits {l : List (Fin n)} (hnodup : l.Nodup)
    (hl : ∀ i ∈ l, i ∈ sc.group ∧ sc.currentAllocation i = minimumCurrent env.cfg (sc.phaseAllocation i))
    (hsupplied : Supplied env sc) (hfits : ∀ p, p ≠ .pv → Fits env sc p) :
    (l.foldl (undoStage6Charger env) sc).exceeded = sc.exceeded ∧
      ∀ p, p ≠ .pv → Fits env (l.foldl (undoStage6Charger env) sc) p := by
  induction l generalizing sc with
  | nil => exact ⟨rfl, hfits⟩
  | cons j rest ih =>
    obtain ⟨hnew, hrest⟩ := List.nodup_cons.mp hnodup
    obtain ⟨hgroup, hcurrent⟩ := hl j List.mem_cons_self
    have hpos := (minimumCurrent_pos env.cfg _).trans_eq hcurrent.symm
    have hstep := @undoStage6Charger_step _ env sc j hcurrent
    have hnext := hstep.supplied (by simp) hsupplied
    apply ih hrest _ hnext
    · intro p hp
      have hwindow := @window_setCurrent _ env sc j p hgroup (undoStage6Charger env sc j) 0 rfl rfl
        rfl rfl
      have hbefore : demand env sc j p = 0 := by rw [demand, if_pos hpos]
      rw [if_neg (lt_irrefl 0), hbefore, sub_zero] at hwindow
      have hcost := minimumCost_nonneg env sc j p
      apply @Fits.transfer _ _ _ _ _ (-(sc.minimumCost env j).get p) (hfits p hp)
      · rw [← Cost.get_neg]
        exact Cost.get_sub _ _ p
      · rw [hwindow, sub_neg_eq_add]
      · have := window_nonneg env sc p
        omega
      · intro hneg
        apply hsupplied.covered j (Or.inl hpos) p hp
        -- once its current is taken back the charger needs it again
        have hafter : demand env (undoStage6Charger env sc j) j p ≠ 0 := by
          have hidle : (undoStage6Charger env sc j).currentAllocation j = 0 :=
            Function.update_self j _ _
          have hsame : ((undoStage6Charger env sc j).minimumCost env j).get p =
            (sc.minimumCost env j).get p := rfl
          rw [demand_of_idle hidle, hsame]
          omega
        exact @mayUse_of_demand _ env (undoStage6Charger env sc j) j p hp hafter
    · intro k hk
      have hkj : k ≠ j := fun h => hnew (h ▸ hk)
      obtain ⟨hk1, hk2⟩ := hl k (List.mem_cons_of_mem j hk)
      have hsame : (undoStage6Charger env sc j).currentAllocation k = sc.currentAllocation k :=
        Function.update_of_ne hkj _ _
      exact ⟨hk1, hsame.trans hk2⟩

/-- Undoing stage 6 keeps the window within the limits. -/
theorem undoStage6_fits (hidx : Indexed sc) (hserved : ∀ i ∈ sc.group, Served env sc i)
    (hsupplied : Supplied env sc) :
    (undoStage6 env sc).exceeded = sc.exceeded ∧ ∀ p, p ≠ .pv → Fits env (undoStage6 env sc) p := by
  have hsel := filterChargers_selected (fun i => decide (sc.currentAllocation i > 0)) sc
    hidx.count_le
  obtain ⟨selected, hselected⟩ : ∃ selected, selected =
    filterChargers (fun i => decide (sc.currentAllocation i > 0)) sc := ⟨_, rfl⟩
  rw [← hselected] at hsel
  have hstage : undoStage6 env sc = (selected.1.idxArray.take selected.2).foldl
      (undoStage6Charger env) selected.1 := by
    rw [hselected]
    rfl
  have hmem := fun i => @Selected.mem_iff _ _ _ _ _ hsel i
  have hgroup := fun i => @SameGroup.mem_iff _ _ _ hsel.sameGroup i
  have hserved' : ∀ i ∈ selected.1.idxArray.take selected.2,
      i ∈ sc.group ∧ sc.currentAllocation i = minimumCurrent env.cfg (sc.phaseAllocation i) := by
    intro i hi
    obtain ⟨hi', hp⟩ := (hmem i).mp hi
    have hpos := of_decide_eq_true hp
    exact ⟨hi', (hserved i hi').resolve_left (hsupplied.active.ne_zero i hpos)⟩
  rw [hstage]
  obtain ⟨hsamePhases, hsameCurrent, hsameLimits, hsameExceeded⟩ := hsel.allocation_eq
  rw [← hsameExceeded]
  apply undoStage6_foldl_fits (hsel.nodup hidx) _
    (hsupplied.congr hsamePhases hsameCurrent hsameLimits)
  · intro p _
    apply fits_of_served
    intro i hi
    exact (hserved i ((hgroup i).mp hi)).congr (congrFun hsamePhases i) (congrFun hsameCurrent i)
  · intro i hi
    rw [hgroup, hsamePhases, hsameCurrent]
    exact hserved' i hi

end

section

variable {env : StageEnv n} {t : Period} {g : Fin n → Prop} {sc sc' : StageContext n} {i : Fin n}

/-- Sharing out what is left takes no minimum current back. -/
theorem AllocationStep.complete (h : AllocationStep env .share i sc sc')
    (hsupplied : Supplied env sc) (hsc : ∀ j, Complete env sc j) (j : Fin n) :
    Complete env sc' j := by
  rcases eq_or_ne j i with rfl | hj
  · cases h with
    | keep writes _ =>
      apply (hsc j).congr
      · rw [writes.phases, Function.update_self]
      · rw [writes.current, Function.update_self]
    | additional d writes _ active positive _ _ lower _ =>
      have hmin := (hsc j).resolve_left active
      have hbound := minimumCurrent_mem env.cfg (sc.phaseAllocation j)
      have hd := lower (hsupplied.covered j (Or.inl positive))
      right
      rw [writes.phases, writes.current, Function.update_self, Function.update_self]
      omega
    | setPhases _ early => exact early.elim
    | connect first => cases first
    | exceeds middle | minimum middle | refund middle => cases middle
    | wake _ _ _ last => cases last
  · exact (hsc j).congr (h.phases_of_ne hj) (h.current_of_ne hj)

theorem Steps.complete (h : Steps env .share g sc sc') (hsupplied : Supplied env sc)
    (hsc : ∀ j, Complete env sc j) : Supplied env sc' ∧ ∀ j, Complete env sc' j := by
  apply @Steps.invariant _ env .share g sc sc'
    (fun c => Supplied env c ∧ ∀ j, Complete env c j) _ _ h ⟨hsupplied, hsc⟩
  · intro a b hphases hcurrent hlimits ha
    exact ⟨ha.1.congr hphases hcurrent hlimits,
      fun j => (ha.2 j).congr (congrFun hphases j) (congrFun hcurrent j)⟩
  · intro a b i _ step ha
    exact ⟨step.supplied (by simp) ha.1, step.complete ha.1 ha.2⟩

/-- A cost is taken from the raw and the min limits alike. -/
theorem Steps.minBelowRaw (h : Steps env t g sc sc') (hsc : MinBelowRaw sc) : MinBelowRaw sc' := by
  apply @Steps.invariant _ env t g sc sc' MinBelowRaw _ _ h hsc
  · intro a b _ _ hlimits ha
    rwa [MinBelowRaw, hlimits]
  · intro a b i _ step ha p hp
    obtain ⟨cost, hraw, hmin, _⟩ := step.limits_eq
    have hle := ha p hp
    rw [hraw, hmin, Cost.get_sub, Cost.get_sub]
    omega

end

section

variable {env : StageEnv n} {sc : StageContext n} {count : Nat} {mode : ChargeMode}

/-- A charge mode logs no cost over the limits and leaves every charger complete. -/
theorem allocateMode_complete (hfront : Fronted env count sc) (hsupplied : Supplied env sc)
    (hmin : MinBelowRaw sc) (hserved : ∀ i, ModeGroup env mode i → Served env sc i)
    (hcomplete : ∀ i, Complete env sc i) :
    (allocateMode env count sc mode).exceeded = sc.exceeded ∧
      ∀ i, Complete env (allocateMode env count sc mode) i := by
  obtain ⟨hundo, hzero, hactivate⟩ := activateMode_run hfront fun i hi =>
    (hserved i hi).minimumOnly hsupplied.active
  have hidx := @enterMode_indexed _ _ _ _ mode hfront
  have hgroup := @mem_enterMode _ _ _ _ mode hfront
  have hundoGroup : ∀ i, i ∈ (undoStage6 env (enterMode env count sc mode)).group ↔
      ModeGroup env mode i := fun i => hundo.sameGroup.mem_iff.trans (hgroup i)
  have hsupplied0 : Supplied env (enterMode env count sc mode) := hsupplied.congr rfl rfl rfl
  have hmin0 : MinBelowRaw (enterMode env count sc mode) := hmin
  -- undoing stage 6 opens the window, stages 4 and 5 widen it
  obtain ⟨hexceeded1, hfits1⟩ := undoStage6_fits hidx (fun i hi =>
    (hserved i ((hgroup i).mp hi)).congr rfl rfl) hsupplied0
  have hmin1 := hundo.steps.minBelowRaw hmin0
  have hzero1 : ∀ i ∈ (undoStage6 env (enterMode env count sc mode)).group,
      (undoStage6 env (enterMode env count sc mode)).currentAllocation i = 0 :=
    fun i hi => hzero i ((hundoGroup i).mp hi)
  have hwindowed4 := stage4_windowed (hundo.indexed hidx) hzero1 hmin1 hfits1
  have h4 := @stage4_run _ env _ (hundo.indexed hidx) hzero1
  have hidx5 := hactivate.sameGroup.indexed (hundo.indexed hidx)
  have hwindowed5 : Windowed env (activateMode env count sc mode) := by
    apply stage5_windowed hwindowed4 (h4.sameGroup.indexed (hundo.indexed hidx))
    · intro i hi
      rw [h4.current]
      exact hzero1 i (h4.sameGroup.mem_iff.mp hi)
    · exact h4.steps.minBelowRaw hmin1
  -- stage 6 closes it again
  obtain ⟨hexceeded6, hserved6⟩ := stage6_served hidx5 (fun i hi => by
    rw [hactivate.current]
    exact hzero1 i (hactivate.sameGroup.mem_iff.mp hi)) hwindowed5.fits
  have h6 := @stage6_run _ env _ hidx5
  have hidx6 := h6.indexed hidx5
  have hgroup5 : ∀ i, i ∈ (activateMode env count sc mode).group ↔ ModeGroup env mode i :=
    fun i => hactivate.sameGroup.mem_iff.trans (hundoGroup i)
  have hsteps6 : Steps env .middle (ModeGroup env mode) (enterMode env count sc mode)
      (stage6 env (activateMode env count sc mode)) :=
    ((hundo.steps.mono fun i => (hgroup i).mp).trans hactivate.steps).trans
      (h6.steps.mono fun i => (hgroup5 i).mp)
  have hsupplied6 := hsteps6.supplied (by simp) hsupplied0
  have hcomplete6 : ∀ i, Complete env (stage6 env (activateMode env count sc mode)) i := by
    intro i
    by_cases hi : ModeGroup env mode i
    · exact (hserved6 i ((hgroup5 i).mpr hi)).complete
    · obtain ⟨hphases, hcurrent⟩ := hsteps6.outside hi
      exact (hcomplete i).congr hphases hcurrent
  -- stages 7 and 8 share out what is left
  have h7 := @stage7_run _ env .share _ (by simp) hidx6 hsupplied6.active.ne_zero
  obtain ⟨hsupplied7, hcomplete7⟩ := h7.steps.complete hsupplied6 hcomplete6
  have h8 := @stage8_run _ env .share _ false (h7.indexed hidx6) hsupplied7.active.ne_zero
  rw [allocateMode_eq]
  constructor
  · rw [h8.steps.exceeded_eq (by simp), h7.steps.exceeded_eq (by simp), hexceeded6,
      hactivate.exceeded, hexceeded1]
    rfl
  · exact (h8.steps.complete hsupplied7 hcomplete7).2

theorem allocateModes_complete {modes : List ChargeMode} (hnodup : modes.Nodup)
    (hmodes : ∀ mode ∈ modes, mode ∈ allocatedModes) (hfront : Fronted env count sc)
    (hsupplied : Supplied env sc) (hmin : MinBelowRaw sc)
    (hserved : ∀ mode ∈ modes, ∀ i, ModeGroup env mode i → Served env sc i)
    (hcomplete : ∀ i, Complete env sc i) :
    (modes.foldl (allocateMode env count) sc).exceeded = sc.exceeded ∧
      ∀ i, Complete env (modes.foldl (allocateMode env count) sc) i := by
  induction modes generalizing sc with
  | nil => exact ⟨rfl, hcomplete⟩
  | cons mode rest ih =>
    obtain ⟨hnew, hrest⟩ := List.nodup_cons.mp hnodup
    have hmode := hserved mode List.mem_cons_self
    rw [List.foldl_cons]
    obtain ⟨hfront', hsteps⟩ := allocateMode_run hfront hsupplied.active fun i hi =>
      (hmode i hi).minimumOnly hsupplied.active
    obtain ⟨hexceeded, hcomplete'⟩ := allocateMode_complete hfront hsupplied hmin hmode hcomplete
    obtain ⟨hexceededRest, hcompleteRest⟩ := ih hrest
      (fun m hm => hmodes m (List.mem_cons_of_mem mode hm)) hfront'
      (hsteps.supplied (by simp) hsupplied) (hsteps.minBelowRaw hmin) (fun m hm i hi => by
        obtain ⟨hphases, hcurrent⟩ := hsteps.otherMode (hmodes mode List.mem_cons_self)
          (hmodes m (List.mem_cons_of_mem mode hm)) (ne_of_mem_of_not_mem hm hnew) hi
        exact (hserved m (List.mem_cons_of_mem mode hm) i hi).congr hphases hcurrent) hcomplete'
    exact ⟨hexceededRest.trans hexceeded, hcompleteRest⟩

/-- No stage logs a cost over the limits, and before the wake-up every charger that has
phases has its minimum current. -/
theorem beforeWakeUp_complete (hsc : Fresh sc) (hmin : MinBelowRaw sc) :
    (beforeWakeUp env sc).exceeded = sc.exceeded ∧ ∀ i, Complete env (beforeWakeUp env sc) i := by
  have hprep := @afterStage1_prepared _ env _ hsc
  have h3 := @afterStage3_run _ env _ hsc
  obtain ⟨hidx, hzero, hgroup⟩ := @afterStage3_indexed _ env _ hsc
  have hfits : ∀ p, p ≠ .pv → Fits env (afterStage3 env sc) p := by
    intro p hp
    rcases @afterStage3_spec _ env _ hsc p hp with hle | hnone
    · exact Or.inl hle
    · right
      apply Finset.sum_eq_zero
      intro i _
      by_contra hne
      exact hnone i (mayUse_of_demand hp hne)
  obtain ⟨hexceeded, hserved⟩ := stage6_served hidx (fun i _ => hzero i) hfits
  have h6 := @stage6_run _ env _ hidx
  have hservedAll : ∀ i, Served env (stage6 env (afterStage3 env sc)) i := by
    intro i
    by_cases hi : i ∈ (afterStage3 env sc).group
    · exact hserved i hi
    · have hoff : (env.chargerState i).off = true := by
        by_contra hon
        exact hi ((hgroup i).mpr (Bool.eq_false_iff.mpr hon))
      have hout : ¬ i ∈ (afterStage1 env sc).group := fun h =>
        hi (h3.sameGroup.mem_iff.mpr h)
      left
      rw [(h6.steps.outside hi).1, (h3.steps.outside hout).1, hprep.off i hoff]
  have hmin3 : MinBelowRaw (afterStage3 env sc) := by
    rwa [MinBelowRaw, h3.limits, hprep.limits]
  obtain ⟨hexceededModes, hcompleteModes⟩ := @allocateModes_complete _ env _
    (afterStage1 env sc).chargerCount allocatedModes (by decide) (fun _ h => h)
    (hprep.fronted.sameGroup (h3.sameGroup.trans h6.sameGroup) le_rfl)
    (h6.steps.supplied (by simp) (afterStage3_supplied hsc)) (h6.steps.minBelowRaw hmin3)
    (fun _ _ i _ => hservedAll i) fun i => (hservedAll i).complete
  rw [beforeWakeUp_eq]
  generalize allocatedModes.foldl _ _ = last at hexceededModes hcompleteModes ⊢
  constructor
  · exact hexceededModes.trans (hexceeded.trans (h3.exceeded.trans hprep.exceeded))
  · intro i
    exact (hcompleteModes i).congr rfl rfl

theorem runStages_exceeded (hsc : Fresh sc) (hmin : MinBelowRaw sc) :
    (runStages env sc).exceeded = sc.exceeded := by
  obtain ⟨h9, h8, hpost, _⟩ := @runStages_run _ env _ hsc
  have hlast : wakeUpPeriod env sc ≠ .middle := by simp [wakeUpPeriod]
  rw [hpost.exceeded, h8.steps.exceeded_eq hlast, h9.steps.exceeded_eq hlast]
  exact (beforeWakeUp_complete hsc hmin).1

end

variable (input : AllocatorInput n)

/-- A charger without phases and current, or with phases and at least the minimum current
for them. -/
def ChargerAllocationState.FullyActivated (cfg : CurrentAllocatorConfig n)
    (alloc : ChargerAllocationState) : Prop :=
  (alloc.allocatedPhases = 0 ∧ alloc.allocatedCurrent = 0) ∨
    ((alloc.allocatedPhases = 1 ∨ alloc.allocatedPhases = 3) ∧
      minimumCurrent cfg alloc.allocatedPhases.toUInt8 ≤ (alloc.allocatedCurrent.toNat : Int))

theorem fullyActivated_of_le {cfg : CurrentAllocatorConfig n} {alloc : ChargerAllocationState}
    {phases : UInt8} (hvalid : phases = 1 ∨ phases = 3) (hphases : alloc.allocatedPhases = phases.toInt8)
    (hle : minimumCurrent cfg phases ≤ (alloc.allocatedCurrent.toNat : Int)) :
    alloc.FullyActivated cfg := by
  right
  rw [hphases]
  rcases hvalid with rfl | rfl
  · exact ⟨Or.inl rfl, hle⟩
  · exact ⟨Or.inr rfl, hle⟩

/-- No stage logs a cost over the limits. -/
theorem allocateCurrent_exceeded
    (hmin : ∀ p, p ≠ .pv → input.limits.min.get p ≤ input.limits.raw.get p) :
    (allocateCurrent input).exceeded = [] := by
  simp only [allocateCurrent]
  exact @runStages_exceeded _ input.env _ (initialContext_fresh input) hmin

/-- No charger is half-activated if stage 9 wakes up no charger with an enable current of more
than 16 bits. -/
theorem fullyActivated_of_wakeUps
    (hacc : Accounted input.env (runStages input.env input.initialContext))
    (hmin : ∀ p, p ≠ .pv → input.limits.min.get p ≤ input.limits.raw.get p)
    (hwakeUps : ∀ i phases, WakesUp input i phases → wakeUpCurrent input i phases < 65536)
    (i : Fin n) : ((allocateCurrent input).chargerAllocationState i).FullyActivated input.cfg := by
  obtain ⟨_, hcomplete⟩ := @beforeWakeUp_complete _ input.env _ (initialContext_fresh input) hmin
  have hcurrent := allocatedCurrent_eq input i
  have hstored : ((allocateCurrent input).chargerAllocationState i).allocatedPhases =
      ((runStages input.env input.initialContext).phaseAllocation i).toInt8 := rfl
  have hvalid := hacc.phases i
  have hactive := hacc.active i
  have hbefore := hcomplete i
  have hallowed := allowedByUser_lt (input.chargerState i)
  rcases finished_cases input i with ⟨_, hsame, hlow, hnonneg, hhigh⟩ |
    ⟨phases, hwoken, hsame, hwakes, hlow, hhigh⟩
  · rw [currentBound] at hhigh
    generalize runStages input.env input.initialContext = last at *
    rcases hvalid with hzero | hvalid
    · left
      rw [hactive hzero] at hcurrent
      rw [hstored, hzero]
      exact ⟨rfl, UInt16.toNat_inj.mp (Int.natCast_inj.mp hcurrent)⟩
    · apply fullyActivated_of_le hvalid hstored
      rw [hcurrent]
      have hle := hbefore.resolve_left fun h0 => by
        rw [hsame, h0] at hvalid
        exact absurd hvalid (by decide)
      have hbound := minimumCurrent_mem input.cfg (last.phaseAllocation i)
      rw [← hsame] at hle
      have hcfg : input.env.cfg = input.cfg := rfl
      rw [hcfg] at hle
      omega
  · have hwakeUp := hwakeUps i phases ((hwakes phases).mpr rfl)
    obtain ⟨henable, henable'⟩ := @enableCurrent_mem _ input.cfg (input.env.chargerState i) phases
      (haveActiveChargers input.env input.initialContext) hwoken
    rw [hsame] at hstored
    apply fullyActivated_of_le hwoken hstored
    rw [hcurrent]
    unfold wakeUpCurrent at *
    omega

end Esp32Firmware.ChargeManager
