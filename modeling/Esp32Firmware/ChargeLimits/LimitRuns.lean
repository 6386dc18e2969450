import Esp32Firmware.ChargeLimits.Limits

/-!
# When a limit is reached

After every tick the charger is blocked if and only if a limit of the running charge is reached.
This needs that the task sees a charge from its first second on: that it has seen the end of the
one before, that the meter can be read at the first tick and at a restart, and that nobody gives a
command for a charge that the task does not know yet or any longer.

## Implementation notes

The start of a charge that counts is the one that was recorded, or the last restart. A target that
has been passed long ago is taken for one in the future, as the times wrap.
-/

namespace Esp32Firmware.ChargeLimits

theorem mapDuration_le (val : Nat) : mapDuration val ≤ 43200000 := by
  rw [mapDuration.eq_def]
  split <;> omega

/-- A target that is not far away is compared correctly. -/
theorem aAfterB_iff {start duration uptime : Nat} (hstart : start ≤ uptime)
    (hduration : duration ≤ 43200000) (huptime : uptime < start + duration + 2147483647) :
    aAfterB (uptime % 2 ^ 32) ((start + duration) % 2 ^ 32) = true ↔ start + duration ≤ uptime := by
  rw [aAfterB, decide_eq_true_eq]
  omega

namespace State

variable {E : Type*}

/-- The start of the charge or the last restart, the limit and the uptime. -/
def durationReached (s : State E) : Bool :=
  match s.begun with
  | none => false
  | some (start, _) =>
    0 < s.activeLimits.duration && start + mapDuration s.activeLimits.duration ≤ s.uptime

def socReached (s : State E) : Bool :=
  0 < s.activeLimits.socPct && s.evMeterHasSoc &&
    s.soc.any fun soc => (s.activeLimits.socPct : Int) ≤ soc

variable (plusWh : E → Nat → E)

section

variable [LE E] [DecidableLE E]

/-- Both energies are known and the limit lies between them. -/
def reachesEnergy (startEnergy energy : Option E) (energyWh : Nat) : Bool :=
  match startEnergy, energy with
  | some start, some now => 0 < energyWh && plusWh start energyWh ≤ now
  | _, _ => false

def energyReached (s : State E) : Bool :=
  match s.begun with
  | none => false
  | some (_, startEnergy) => reachesEnergy plusWh startEnergy s.energy s.activeLimits.energyWh

/-- What the slot is to be. -/
def slotWanted (s : State E) : Nat :=
  if s.begun.isSome && (s.durationReached || s.energyReached plusWh || s.socReached) then 0
  else 32000

/-- The limits of a charge that starts now. -/
def limitsWanted (s : State E) : Limits where
  duration := s.overrides.duration.getD s.config.duration
  energyWh := s.overrides.energyWh.getD s.config.energyWh
  socPct := s.overrides.socPct.getD s.config.socPct

/-- What is claimed of an event. -/
def Right (s : State E) : Event E → Prop
  | .tick => (s.tick plusWh).slot = (s.tick plusWh).slotWanted plusWh
  | .startCharge _ _ => s.activeLimits = s.limitsWanted
  | _ => True

/-- The task has yet to see that the charge has ended. -/
def ending (s : State E) : Bool := s.wasCharging && s.charge.isNone

/-- A limit that was overridden is not taken for the default, which would be replaced. -/
def distinct (override : Option Nat) (active default new : Nat) : Bool :=
  override.isNone || active ≠ default || new = active

/-- The conditions on an event. -/
def Orderly (s : State E) : Event E → Bool
  | .startCharge _ _ => !s.wasCharging
  | .endCharge => s.wasCharging || s.charge.isNone || s.activeLimits = s.config
  | .overrideDuration _ => !s.ending
  | .overrideEnergy _ => !s.ending
  | .overrideSoc _ => !s.ending
  | .restart => s.charge.isNone || (s.wasCharging && (s.energy.isSome || s.startEnergyKwh.isNone))
  | .updateDefaults config =>
    distinct s.overrides.duration s.activeLimits.duration s.config.duration config.duration &&
    distinct s.overrides.energyWh s.activeLimits.energyWh s.config.energyWh config.energyWh &&
    distinct s.overrides.socPct s.activeLimits.socPct s.config.socPct config.socPct
  | .tick =>
    match s.charge, s.begun with
    | some charge, some (start, _) =>
      (s.wasCharging || s.activeLimits.energyWh = 0 || s.energy.isSome ||
        charge.meterStart.isNone) &&
      (s.activeLimits.duration = 0 ||
        s.uptime < start + mapDuration s.activeLimits.duration + 2147483647)
    | _, _ => true
  | _ => true

end

/-- The targets are those of the charge that the task has seen. -/
structure Targets (s : State E) (start : Nat) (startEnergy : Option E) : Prop where
  timestamp : s.startTimestampMs = start % 2 ^ 32
  energy : s.startEnergyKwh = startEnergy
  target_timestamp : 0 < s.activeLimits.duration →
    s.targetTimestampMs = (start + mapDuration s.activeLimits.duration) % 2 ^ 32
  target_energy : 0 < s.activeLimits.energyWh →
    s.targetEnergyKwh = startEnergy.map fun start => plusWh start s.activeLimits.energyWh

/-- What holds of the charge, of what the task has seen of it and of the targets. -/
structure Tracks (s : State E) : Prop where
  begun_iff : s.begun.isSome = s.charge.isSome
  begun_le : ∀ start startEnergy, s.begun = some (start, startEnergy) → start ≤ s.uptime
  unseen : s.wasCharging = false → ∀ charge start startEnergy, s.charge = some charge →
    s.begun = some (start, startEnergy) →
    charge.evseUptimeStart = start % 2 ^ 32 ∧ charge.meterStart = startEnergy
  idle : s.wasCharging = false → s.slot = 32000
  fresh : s.wasCharging = false → s.startEnergyKwh = none ∧ s.targetEnergyKwh = none
  seen : s.wasCharging = true → ∀ start startEnergy, s.begun = some (start, startEnergy) →
    Targets plusWh s start startEnergy

/-- The limits are the defaults or what they were overridden with. -/
structure Limited (s : State E) : Prop where
  limits : s.ending = false → s.activeLimits = s.limitsWanted
  overrides : s.ending = true → s.overrides = {}

variable {plusWh} {s : State E}

namespace Tracks

/-- A charge that the task has seen. -/
theorem ofSeen (hseen : s.wasCharging = true) (hcharge : s.charge.isSome = true) {start : Nat}
    {startEnergy : Option E} (hbegun : s.begun = some (start, startEnergy))
    (hle : start ≤ s.uptime) (htargets : Targets plusWh s start startEnergy) :
    s.Tracks plusWh where
  begun_iff := by rw [hbegun, hcharge]; rfl
  begun_le start' startEnergy' hbegun' := by
    obtain ⟨rfl, -⟩ := Prod.mk.inj (Option.some.inj (hbegun.symm.trans hbegun'))
    exact hle
  unseen hno := absurd (hno.symm.trans hseen) Bool.false_ne_true
  idle hno := absurd (hno.symm.trans hseen) Bool.false_ne_true
  fresh hno := absurd (hno.symm.trans hseen) Bool.false_ne_true
  seen _ start' startEnergy' hbegun' := by
    obtain ⟨rfl, rfl⟩ := Prod.mk.inj (Option.some.inj (hbegun.symm.trans hbegun'))
    exact htargets

section

variable (h : s.Tracks plusWh)
include h

theorem applyDurationOverride (duration : Nat) :
    (s.applyDurationOverride duration).Tracks plusWh where
  begun_iff := h.begun_iff
  begun_le := h.begun_le
  unseen := h.unseen
  idle := h.idle
  fresh := h.fresh
  seen hseen start startEnergy hbegun := by
    have htargets := h.seen hseen start startEnergy hbegun
    refine ⟨htargets.timestamp, htargets.energy, fun hpos => ?_, htargets.target_energy⟩
    have hpos : duration ≠ 0 := Nat.ne_of_gt hpos
    simp only [State.applyDurationOverride, if_neg hpos, htargets.timestamp]
    omega

theorem applyEnergyOverride (energyWh : Nat) :
    (s.applyEnergyOverride plusWh energyWh).Tracks plusWh where
  begun_iff := h.begun_iff
  begun_le := h.begun_le
  unseen := h.unseen
  idle := h.idle
  fresh hfresh := by
    obtain ⟨hstart, -⟩ := h.fresh hfresh
    refine ⟨hstart, ?_⟩
    simp only [State.applyEnergyOverride, hstart, Option.map_none, ite_self]
  seen hseen start startEnergy hbegun := by
    have htargets := h.seen hseen start startEnergy hbegun
    refine ⟨htargets.timestamp, htargets.energy, htargets.target_timestamp, fun hpos => ?_⟩
    have hpos : energyWh ≠ 0 := Nat.ne_of_gt hpos
    simp only [State.applyEnergyOverride, if_neg hpos, htargets.energy]

theorem applySocTargetOverride (socPct : Nat) :
    (s.applySocTargetOverride socPct).Tracks plusWh where
  begun_iff := h.begun_iff
  begun_le := h.begun_le
  unseen := h.unseen
  idle := h.idle
  fresh := h.fresh
  seen hseen start startEnergy hbegun := by
    have htargets := h.seen hseen start startEnergy hbegun
    exact ⟨htargets.timestamp, htargets.energy, htargets.target_timestamp, htargets.target_energy⟩

/-- Nothing that a charge depends on is different. -/
theorem keep {s' : State E} (hcharge : s'.charge = s.charge)
    (hbegun : s'.begun = s.begun) (huptime : s.uptime ≤ s'.uptime)
    (hseen : s'.wasCharging = s.wasCharging) (hslot : s'.slot = s.slot)
    (hstart : s'.startTimestampMs = s.startTimestampMs)
    (henergy : s'.startEnergyKwh = s.startEnergyKwh)
    (htimestamp : s'.targetTimestampMs = s.targetTimestampMs)
    (htarget : s'.targetEnergyKwh = s.targetEnergyKwh)
    (hlimits : s'.activeLimits = s.activeLimits) : s'.Tracks plusWh where
  begun_iff := by rw [hbegun, hcharge]; exact h.begun_iff
  begun_le start startEnergy hsome :=
    (h.begun_le start startEnergy (hbegun ▸ hsome)).trans huptime
  unseen := by rw [hseen, hcharge, hbegun]; exact h.unseen
  idle := by rw [hseen, hslot]; exact h.idle
  fresh := by rw [hseen, henergy, htarget]; exact h.fresh
  seen hyes start startEnergy hsome := by
    have htargets := h.seen (hseen ▸ hyes) start startEnergy (hbegun ▸ hsome)
    exact ⟨hstart.trans htargets.timestamp, henergy.trans htargets.energy,
      by rw [hlimits, htimestamp]; exact htargets.target_timestamp,
      by rw [hlimits, htarget]; exact htargets.target_energy⟩

theorem updateDefaults (config : Limits) : (s.updateDefaults plusWh config).Tracks plusWh := by
  have hduration : (s.updateDefaultDuration config).Tracks plusWh := by
    rw [updateDefaultDuration]
    split
    · exact h.applyDurationOverride config.duration
    · exact h
  have henergy : ((s.updateDefaultDuration config).updateDefaultEnergy plusWh config).Tracks
      plusWh := by
    rw [updateDefaultEnergy]
    split
    · exact hduration.applyEnergyOverride config.energyWh
    · exact hduration
  have hsoc : (((s.updateDefaultDuration config).updateDefaultEnergy plusWh config).updateDefaultSoc
      config).Tracks plusWh := by
    rw [updateDefaultSoc]
    split
    · exact henergy.applySocTargetOverride config.socPct
    · exact henergy
  exact hsoc.keep rfl rfl (Nat.le_refl _) rfl rfl rfl rfl rfl rfl rfl

/-- A charge that the task has seen starts anew, with an energy that is known if the one before
was. -/
theorem restart (hseen : s.charge.isNone = true ∨ (s.wasCharging = true ∧
    (s.energy.isSome = true ∨ s.startEnergyKwh = none))) : (s.restart plusWh).Tracks plusWh := by
  rw [State.restart]
  obtain hcharge | ⟨charge, hcharge⟩ := Option.eq_none_or_eq_some s.charge
  · rw [hcharge]
    exact h
  · rw [hcharge]
    have hseen := hseen.resolve_left (by rw [hcharge]; exact Bool.false_ne_true)
    obtain ⟨⟨start, startEnergy⟩, hbegun⟩ : ∃ begun, s.begun = some begun := by
      rw [← Option.isSome_iff_exists, h.begun_iff, hcharge]
      rfl
    have htargets := h.seen hseen.1 start startEnergy hbegun
    obtain henergy | ⟨energyNow, henergy⟩ := Option.eq_none_or_eq_some s.energy
    · have hnone : s.startEnergyKwh = none :=
        hseen.2.resolve_left (by rw [henergy]; exact Bool.false_ne_true)
      obtain rfl : startEnergy = none := htargets.energy.symm.trans hnone
      simp only [henergy]
      exact ofSeen hseen.1 rfl rfl (Nat.le_refl _)
        ⟨rfl, hnone, fun _ => by simp, htargets.target_energy⟩
    · simp only [henergy]
      exact ofSeen hseen.1 rfl rfl (Nat.le_refl _) ⟨rfl, rfl, fun _ => by simp, fun _ => rfl⟩

theorem startCharge (age : Nat) (meterStart : Option E) (hunseen : s.wasCharging = false) :
    ({ s with
      charge := some ⟨(s.uptime - age) % 2 ^ 32, meterStart⟩
      begun := some (s.uptime - age, meterStart) } : State E).Tracks plusWh where
  begun_iff := rfl
  begun_le start startEnergy hbegun := by
    obtain ⟨rfl, -⟩ := Prod.mk.inj (Option.some.inj hbegun)
    exact Nat.sub_le _ _
  unseen _ charge start startEnergy hcharge hbegun := by
    obtain rfl := Option.some.inj hcharge
    obtain ⟨rfl, rfl⟩ := Prod.mk.inj (Option.some.inj hbegun)
    exact ⟨rfl, rfl⟩
  idle := h.idle
  fresh := h.fresh
  seen hyes := absurd (hunseen.symm.trans hyes) Bool.false_ne_true

theorem endCharge :
    ({ s with charge := none, begun := none, overrides := {} } : State E).Tracks plusWh where
  begun_iff := rfl
  begun_le _ _ hbegun := absurd hbegun.symm (Option.some_ne_none _)
  unseen _ _ _ _ hcharge := absurd hcharge.symm (Option.some_ne_none _)
  idle := h.idle
  fresh := h.fresh
  seen _ _ _ hbegun := absurd hbegun.symm (Option.some_ne_none _)

theorem reset (hcharge : s.charge = none) : s.reset.Tracks plusWh where
  begun_iff := h.begun_iff
  begun_le := h.begun_le
  unseen _ _ _ _ hsome := absurd (hcharge.symm.trans hsome).symm (Option.some_ne_none _)
  idle _ := rfl
  fresh _ := ⟨rfl, rfl⟩
  seen hyes := absurd hyes Bool.false_ne_true

end

end Tracks

theorem checkDuration_core (s : State E) :
    s.checkDuration.1 = { s with targetTimestampMs := s.checkDuration.1.targetTimestampMs } := by
  rw [checkDuration]
  split <;> rfl

theorem checkSoc_core (s : State E) :
    s.checkSoc.1 = { s with targetSocPct := s.checkSoc.1.targetSocPct } := by
  rw [checkSoc]
  split <;> rfl

theorem checkSoc_spec (s : State E) : s.checkSoc.2 = s.socReached := by
  rw [checkSoc, socReached]
  split
  · next hyes => rw [hyes, Bool.true_and]
  · next hno =>
      rw [Bool.eq_false_iff.mpr hno]
      rfl

/-- The time limit is reached; its target is the one of the charge from then on. -/
theorem checkDuration_spec {s : State E} {start : Nat} (hle : start ≤ s.uptime)
    (hstart : s.startTimestampMs = start % 2 ^ 32)
    (hseen : s.wasCharging = true → 0 < s.activeLimits.duration →
      s.targetTimestampMs = (start + mapDuration s.activeLimits.duration) % 2 ^ 32)
    (hnear : s.activeLimits.duration = 0 ∨
      s.uptime < start + mapDuration s.activeLimits.duration + 2147483647) :
    (0 < s.activeLimits.duration → s.checkDuration.1.targetTimestampMs =
      (start + mapDuration s.activeLimits.duration) % 2 ^ 32) ∧
      s.checkDuration.2 = (0 < s.activeLimits.duration &&
        start + mapDuration s.activeLimits.duration ≤ s.uptime) := by
  rw [checkDuration]
  by_cases hpos : s.activeLimits.duration > 0
  · rw [if_pos hpos]
    have hnear := hnear.resolve_left (Nat.ne_of_gt hpos)
    have htarget : s.tickTargetTimestamp =
        (start + mapDuration s.activeLimits.duration) % 2 ^ 32 := by
      rw [tickTargetTimestamp]
      split
      · next hyes => exact hseen hyes hpos
      · rw [hstart]
        omega
    refine ⟨fun _ => htarget, ?_⟩
    rw [htarget, decide_eq_true hpos, Bool.true_and]
    exact Bool.eq_iff_iff.mpr ((aAfterB_iff hle (mapDuration_le _) hnear).trans
      (decide_eq_true_iff).symm)
  · rw [if_neg hpos]
    exact ⟨fun hyes => absurd hyes hpos, by rw [decide_eq_false hpos, Bool.false_and]⟩

theorem lookUpStart_eq (h : s.Tracks plusWh) {charge : Charge E} {start : Nat}
    {startEnergy : Option E} (hcharge : s.charge = some charge)
    (hbegun : s.begun = some (start, startEnergy)) :
    s.lookUpStart charge =
      { s with startTimestampMs := start % 2 ^ 32, startEnergyKwh := startEnergy } := by
  rw [lookUpStart]
  split
  · next hyes =>
      obtain ⟨htimestamp, henergy, -, -⟩ := h.seen hyes start startEnergy hbegun
      rw [← htimestamp, ← henergy]
  · next hno =>
      have hno := Bool.eq_false_iff.mpr hno
      obtain ⟨htimestamp, henergy⟩ := h.unseen hno charge start startEnergy hcharge hbegun
      rw [htimestamp, henergy, (h.fresh hno).1, Option.or_none]

section

variable [LE E] [DecidableLE E]

theorem checkEnergy_core (s : State E) :
    (s.checkEnergy plusWh).1 =
      { s with targetEnergyKwh := (s.checkEnergy plusWh).1.targetEnergyKwh } := by
  rw [checkEnergy]
  split
  · split <;> rfl
  · rfl

/-- The energy limit is reached. -/
theorem checkEnergy_spec {s : State E} {startEnergy : Option E}
    (hstart : s.startEnergyKwh = startEnergy)
    (hseen : s.wasCharging = true → 0 < s.activeLimits.energyWh → s.targetEnergyKwh =
      startEnergy.map fun start => plusWh start s.activeLimits.energyWh)
    (hfresh : s.wasCharging = false → s.targetEnergyKwh = none)
    (hknown : s.wasCharging = true ∨ s.activeLimits.energyWh = 0 ∨ s.energy.isSome = true ∨
      startEnergy = none) :
    (0 < s.activeLimits.energyWh → (s.checkEnergy plusWh).1.targetEnergyKwh =
      startEnergy.map fun start => plusWh start s.activeLimits.energyWh) ∧
      (s.checkEnergy plusWh).2 =
        reachesEnergy plusWh startEnergy s.energy s.activeLimits.energyWh := by
  rw [checkEnergy]
  by_cases hpos : s.activeLimits.energyWh > 0
  · rw [if_pos hpos]
    obtain henergy | ⟨now, henergy⟩ := Option.eq_none_or_eq_some s.energy
    · rw [henergy] at hknown ⊢
      refine ⟨fun _ => ?_, by cases startEnergy <;> rfl⟩
      cases hcharging : s.wasCharging with
      | true => exact hseen hcharging hpos
      | false =>
        obtain hyes | hzero | hsome | hnone := hknown
        · exact absurd (hcharging.symm.trans hyes) Bool.false_ne_true
        · omega
        · exact absurd hsome Bool.false_ne_true
        · rw [hnone]
          exact hfresh hcharging
    · have htarget : s.tickTargetEnergy plusWh =
          startEnergy.map fun start => plusWh start s.activeLimits.energyWh := by
        rw [tickTargetEnergy.eq_def, hstart]
        split
        · next hyes => exact hseen hyes hpos
        · next hno =>
            cases startEnergy with
            | none => exact hfresh (Bool.eq_false_iff.mpr hno)
            | some start => rfl
      rw [henergy]
      rw [htarget]
      refine ⟨fun _ => rfl, ?_⟩
      cases startEnergy with
      | none => rfl
      | some start => simp [reachesEnergy, hpos]
  · rw [if_neg hpos]
    refine ⟨fun hyes => absurd hyes hpos, ?_⟩
    rw [reachesEnergy.eq_def]
    split
    · rw [decide_eq_false hpos, Bool.false_and]
    · rfl

/-- A tick during a charge: the targets are those of the charge, and the slot follows. -/
theorem tick_during (h : s.Tracks plusWh) {charge : Charge E} {start : Nat}
    {startEnergy : Option E} (hcharge : s.charge = some charge)
    (hbegun : s.begun = some (start, startEnergy)) (hok : s.Orderly .tick = true) :
    ∃ timestamp energy soc triggered, s.tick plusWh = { s with
        startTimestampMs := start % 2 ^ 32
        startEnergyKwh := startEnergy
        targetTimestampMs := timestamp
        targetEnergyKwh := energy
        targetSocPct := soc
        wasTriggered := triggered
        slot := s.slotWanted plusWh
        wasCharging := true } ∧
      (0 < s.activeLimits.duration →
        timestamp = (start + mapDuration s.activeLimits.duration) % 2 ^ 32) ∧
      (0 < s.activeLimits.energyWh →
        energy = startEnergy.map fun start => plusWh start s.activeLimits.energyWh) := by
  have hle := h.begun_le start startEnergy hbegun
  simp only [Orderly, hcharge, hbegun, Bool.and_eq_true, Bool.or_eq_true, decide_eq_true_eq,
    Option.isNone_iff_eq_none] at hok
  obtain ⟨hknown, hnear⟩ := hok
  have hread : s.wasCharging = true ∨ s.activeLimits.energyWh = 0 ∨ s.energy.isSome = true ∨
      startEnergy = none := by
    obtain ((hyes | hzero) | hsome) | hnone := hknown
    · exact .inl hyes
    · exact .inr (.inl hzero)
    · exact .inr (.inr (.inl hsome))
    · cases hcharging : s.wasCharging with
      | true => exact .inl rfl
      | false =>
        have hstart := (h.unseen hcharging charge start startEnergy hcharge hbegun).2
        exact .inr (.inr (.inr (hstart.symm.trans hnone)))
  rw [tick.eq_def, hcharge]
  dsimp only
  rw [lookUpStart_eq h hcharge hbegun]
  obtain ⟨s₀, hs₀⟩ : ∃ s₀ : State E, s₀ =
      { s with startTimestampMs := start % 2 ^ 32, startEnergyKwh := startEnergy } := ⟨_, rfl⟩
  have hduration := @checkDuration_spec _ s₀ start (by rw [hs₀]; exact hle)
    (by rw [hs₀]) (fun hyes => by
      rw [hs₀] at hyes ⊢
      exact (h.seen hyes start startEnergy hbegun).target_timestamp) (by rw [hs₀]; exact hnear)
  have hd := checkDuration_core s₀
  rw [← hs₀]
  obtain ⟨timestamp, htimestamp⟩ : ∃ t, t = s₀.checkDuration.1.targetTimestampMs := ⟨_, rfl⟩
  rw [← htimestamp] at hd hduration
  rw [hd]
  obtain ⟨s₁, hs₁⟩ : ∃ s₁ : State E, s₁ = { s₀ with targetTimestampMs := timestamp } := ⟨_, rfl⟩
  have henergy := @checkEnergy_spec _ plusWh _ _ s₁ startEnergy
    (by rw [hs₁, hs₀]) (fun hyes => by
      rw [hs₁, hs₀] at hyes ⊢
      exact (h.seen hyes start startEnergy hbegun).target_energy)
    (fun hno => by
      rw [hs₁, hs₀] at hno ⊢
      exact (h.fresh hno).2) (by rw [hs₁, hs₀]; exact hread)
  have he := @checkEnergy_core _ plusWh _ _ s₁
  rw [← hs₁]
  obtain ⟨energy, henergy'⟩ : ∃ e, e = (s₁.checkEnergy plusWh).1.targetEnergyKwh := ⟨_, rfl⟩
  rw [← henergy'] at he henergy
  rw [he]
  obtain ⟨s₂, hs₂⟩ : ∃ s₂ : State E, s₂ = { s₁ with targetEnergyKwh := energy } := ⟨_, rfl⟩
  have hsoc := checkSoc_spec s₂
  have hc := checkSoc_core s₂
  rw [← hs₂]
  obtain ⟨soc, hsoc'⟩ : ∃ n, n = s₂.checkSoc.1.targetSocPct := ⟨_, rfl⟩
  rw [← hsoc'] at hc
  have hreached : (s₀.checkDuration.2 || (s₁.checkEnergy plusWh).2 || s₂.checkSoc.2) =
      (s.durationReached || s.energyReached plusWh || s.socReached) := by
    rw [hduration.2, henergy.2, hsoc, hs₂, hs₁, hs₀]
    simp only [durationReached, energyReached, hbegun, socReached]
  rw [hc, hreached]
  refine ⟨timestamp, energy, soc, s.wasTriggered ||
    (s.durationReached || s.energyReached plusWh || s.socReached), ?_, ?_, ?_⟩
  · have hslot : s.slotWanted plusWh =
        if s.durationReached || s.energyReached plusWh || s.socReached then 0 else 32000 := by
      rw [slotWanted, hbegun, Option.isSome_some, Bool.true_and]
    rw [hslot, hs₂, hs₁, hs₀]
    rw [hcharge]
  · intro hpos
    exact (hduration.1 (by rw [hs₀]; exact hpos)).trans (by rw [hs₀])
  · intro hpos
    exact (henergy.1 (by rw [hs₁, hs₀]; exact hpos)).trans (by rw [hs₁, hs₀])

theorem Tracks.tick (h : s.Tracks plusWh) (hok : s.Orderly .tick = true) :
    (s.tick plusWh).Tracks plusWh ∧ s.Right plusWh .tick := by
  obtain hcharge | ⟨charge, hcharge⟩ := Option.eq_none_or_eq_some s.charge
  · have hbegun : s.begun = none := by
      rw [← Option.not_isSome_iff_eq_none, h.begun_iff, hcharge]
      exact Bool.false_ne_true
    rw [Right, State.tick.eq_def, hcharge]
    dsimp only
    split
    · refine ⟨h.reset hcharge, ?_⟩
      exact (if_neg (by simp [State.reset, hbegun])).symm
    · next hno =>
        refine ⟨h, ?_⟩
        rw [slotWanted, hbegun]
        exact h.idle (Bool.eq_false_iff.mpr hno)
  · obtain ⟨⟨start, startEnergy⟩, hbegun⟩ : ∃ begun, s.begun = some begun := by
      rw [← Option.isSome_iff_exists, h.begun_iff, hcharge]
      rfl
    obtain ⟨timestamp, energy, soc, triggered, htick, htimestamp, henergy⟩ :=
      tick_during h hcharge hbegun hok
    rw [Right, htick]
    refine ⟨Tracks.ofSeen rfl (by rw [hcharge]; rfl) hbegun
      (h.begun_le start startEnergy hbegun) ⟨rfl, rfl, htimestamp, henergy⟩, rfl⟩

end

theorem limits_ext {l l' : Limits} (hduration : l.duration = l'.duration)
    (henergy : l.energyWh = l'.energyWh) (hsoc : l.socPct = l'.socPct) : l = l' := by
  obtain ⟨duration, energyWh, socPct⟩ := l
  obtain ⟨duration', energyWh', socPct'⟩ := l'
  obtain rfl : duration = duration' := hduration
  obtain rfl : energyWh = energyWh' := henergy
  obtain rfl : socPct = socPct' := hsoc
  rfl

namespace Limited

/-- Nothing that the limits depend on is different. -/
theorem keep (h : s.Limited) {s' : State E} (hlimits : s'.activeLimits = s.activeLimits)
    (hconfig : s'.config = s.config) (hoverrides : s'.overrides = s.overrides)
    (hending : s'.ending = s.ending) : s'.Limited where
  limits hno := by
    rw [hlimits, limitsWanted, hconfig, hoverrides]
    exact h.limits (hending ▸ hno)
  overrides hyes := hoverrides.trans (h.overrides (hending ▸ hyes))

/-- A limit is overridden for a charge that has not ended. -/
theorem override {s' : State E} (hlimits : s'.activeLimits = s'.limitsWanted)
    (hending : s'.ending = s.ending) (hno : s.ending = false) : s'.Limited where
  limits _ := hlimits
  overrides hyes := absurd (hno.symm.trans (hending.symm.trans hyes)) Bool.false_ne_true

theorem activeLimits_updateDefaults (s : State E) (config : Limits) :
    (s.updateDefaults plusWh config).activeLimits =
      ⟨if s.activeLimits.duration = s.config.duration then config.duration
        else s.activeLimits.duration,
      if s.activeLimits.energyWh = s.config.energyWh then config.energyWh
        else s.activeLimits.energyWh,
      if s.activeLimits.socPct = s.config.socPct then config.socPct
        else s.activeLimits.socPct⟩ ∧
    (s.updateDefaults plusWh config).overrides = s.overrides ∧
    (s.updateDefaults plusWh config).ending = s.ending := by
  obtain ⟨s₁, hs₁⟩ : ∃ s₁, s₁ = s.updateDefaultDuration config := ⟨_, rfl⟩
  obtain ⟨s₂, hs₂⟩ : ∃ s₂, s₂ = s₁.updateDefaultEnergy plusWh config := ⟨_, rfl⟩
  obtain ⟨hduration, henergy, hsoc, hconfig, hoverrides, hending⟩ :
      s₁.activeLimits.duration = (if s.activeLimits.duration = s.config.duration then
        config.duration else s.activeLimits.duration) ∧
      s₁.activeLimits.energyWh = s.activeLimits.energyWh ∧
      s₁.activeLimits.socPct = s.activeLimits.socPct ∧ s₁.config = s.config ∧
      s₁.overrides = s.overrides ∧ s₁.ending = s.ending := by
    rw [hs₁, updateDefaultDuration]
    split <;> exact ⟨rfl, rfl, rfl, rfl, rfl, rfl⟩
  obtain ⟨hduration', henergy', hsoc', hconfig', hoverrides', hending'⟩ :
      s₂.activeLimits.duration = s₁.activeLimits.duration ∧
      s₂.activeLimits.energyWh = (if s₁.activeLimits.energyWh = s₁.config.energyWh then
        config.energyWh else s₁.activeLimits.energyWh) ∧
      s₂.activeLimits.socPct = s₁.activeLimits.socPct ∧ s₂.config = s₁.config ∧
      s₂.overrides = s₁.overrides ∧ s₂.ending = s₁.ending := by
    rw [hs₂, updateDefaultEnergy]
    split <;> exact ⟨rfl, rfl, rfl, rfl, rfl, rfl⟩
  rw [henergy, hconfig] at henergy'
  have hsocs : s₂.activeLimits.socPct = s.activeLimits.socPct := hsoc'.trans hsoc
  have hconfigs : s₂.config = s.config := hconfig'.trans hconfig
  rw [← hduration, ← henergy', ← hduration', ← hsocs, ← hconfigs, ← hoverrides, ← hoverrides',
    ← hending, ← hending']
  rw [State.updateDefaults]
  rw [← hs₁, ← hs₂, updateDefaultSoc]
  split <;> exact ⟨rfl, rfl, rfl⟩

/-- A default replaces a limit that was not overridden, and no other one. -/
theorem replaced {override : Option Nat} {active default new : Nat}
    (hactive : active = override.getD default)
    (hdistinct : distinct override active default new = true) :
    (if active = default then new else active) = override.getD new := by
  cases override with
  | none => exact if_pos hactive
  | some value =>
    have hvalue : active = value := hactive
    simp only [distinct, Option.isNone_some, Bool.false_or, Bool.or_eq_true,
      decide_eq_true_eq] at hdistinct
    rw [Option.getD_some]
    obtain hne | heq := hdistinct
    · rw [if_neg hne, hvalue]
    · rw [heq, ite_self, hvalue]

theorem updateDefaults (h : s.Limited) (config : Limits)
    (hduration : distinct s.overrides.duration s.activeLimits.duration s.config.duration
      config.duration = true)
    (henergy : distinct s.overrides.energyWh s.activeLimits.energyWh s.config.energyWh
      config.energyWh = true)
    (hsoc : distinct s.overrides.socPct s.activeLimits.socPct s.config.socPct config.socPct =
      true) : (s.updateDefaults plusWh config).Limited := by
  obtain ⟨hlimits, hoverrides, hending⟩ := @activeLimits_updateDefaults _ plusWh s config
  refine ⟨fun hno => ?_, fun hyes => hoverrides.trans (h.overrides (hending ▸ hyes))⟩
  have hold := h.limits (hending ▸ hno)
  have hwanted : (s.updateDefaults plusWh config).limitsWanted =
      ⟨s.overrides.duration.getD config.duration, s.overrides.energyWh.getD config.energyWh,
        s.overrides.socPct.getD config.socPct⟩ := by
    rw [limitsWanted, hoverrides]
    rfl
  rw [hlimits, hwanted]
  exact limits_ext (replaced (congrArg Limits.duration hold) hduration)
    (replaced (congrArg Limits.energyWh hold) henergy)
    (replaced (congrArg Limits.socPct hold) hsoc)

theorem restart (h : s.Limited) : (s.restart plusWh).Limited := by
  rw [State.restart]
  obtain hcharge | ⟨charge, hcharge⟩ := Option.eq_none_or_eq_some s.charge
  · rw [hcharge]
    exact h
  · rw [hcharge]
    obtain henergy | ⟨energyNow, henergy⟩ := Option.eq_none_or_eq_some s.energy
    · simp only [henergy]
      exact h.keep rfl rfl rfl (by simp only [ending, hcharge])
    · simp only [henergy]
      exact h.keep rfl rfl rfl (by simp only [ending, hcharge])

end Limited

variable [LE E] [DecidableLE E]

theorem Limited.tick (h : s.Limited) (htracks : s.Tracks plusWh)
    (hok : s.Orderly .tick = true) : (s.tick plusWh).Limited := by
  obtain hcharge | ⟨charge, hcharge⟩ := Option.eq_none_or_eq_some s.charge
  · rw [State.tick.eq_def, hcharge]
    dsimp only
    split
    · next hyes =>
        have hnone : s.overrides = {} := h.overrides (by rw [ending, hyes, hcharge]; rfl)
        refine ⟨fun _ => ?_, fun hyes => absurd hyes Bool.false_ne_true⟩
        simp only [State.reset, hnone]
        rfl
    · exact h
  · obtain ⟨⟨start, startEnergy⟩, hbegun⟩ : ∃ begun, s.begun = some begun := by
      rw [← Option.isSome_iff_exists, htracks.begun_iff, hcharge]
      rfl
    obtain ⟨timestamp, energy, soc, triggered, htick, -⟩ := tick_during htracks hcharge hbegun hok
    rw [htick]
    refine h.keep rfl rfl rfl ?_
    simp [ending, hcharge]

def Invariant (plusWh : E → Nat → E) (s : State E) : Prop := s.Tracks plusWh ∧ s.Limited

theorem Invariant.step (h : s.Invariant plusWh) {event : Event E} (hok : s.Orderly event = true) :
    (s.step plusWh event).Invariant plusWh ∧ s.Right plusWh event := by
  obtain ⟨htracks, hlimited⟩ := h
  cases event with
  | wait ms =>
    exact ⟨⟨htracks.keep rfl rfl (Nat.le_add_right _ _) rfl rfl rfl rfl rfl rfl rfl,
      hlimited.keep rfl rfl rfl rfl⟩, trivial⟩
  | meter energy | vehicleMeter | soc soc =>
    exact ⟨⟨htracks.keep rfl rfl (Nat.le_refl _) rfl rfl rfl rfl rfl rfl rfl,
      hlimited.keep rfl rfl rfl rfl⟩, trivial⟩
  | startCharge age meterStart =>
    have hunseen : s.wasCharging = false := by simpa [Orderly] using hok
    have hending : s.ending = false := by rw [ending, hunseen, Bool.false_and]
    refine ⟨⟨htracks.startCharge age meterStart hunseen, hlimited.keep rfl rfl rfl ?_⟩,
      hlimited.limits hending⟩
    simp only [State.step, ending, hunseen, Bool.false_and]
  | endCharge =>
    rw [State.step]
    obtain hcharge | ⟨charge, hcharge⟩ := Option.eq_none_or_eq_some s.charge
    · rw [hcharge]
      exact ⟨⟨htracks, hlimited⟩, trivial⟩
    · rw [hcharge]
      refine ⟨⟨htracks.endCharge, fun hno => ?_, fun _ => rfl⟩, trivial⟩
      have hseen : s.wasCharging = false := by
        cases hseen : s.wasCharging with
        | false => rfl
        | true => simp [ending, hseen] at hno
      have hsame : s.activeLimits = s.config := by simpa [Orderly, hseen, hcharge] using hok
      exact hsame
  | overrideDuration duration =>
    have hending : s.ending = false := by simpa [Orderly] using hok
    have hold := hlimited.limits hending
    have henergy := congrArg Limits.energyWh hold
    have hsoc := congrArg Limits.socPct hold
    refine ⟨⟨(htracks.applyDurationOverride duration).keep rfl rfl (Nat.le_refl _) rfl rfl rfl
      rfl rfl rfl rfl, Limited.override ?_ rfl hending⟩, trivial⟩
    exact limits_ext rfl henergy hsoc
  | overrideEnergy energyWh =>
    have hending : s.ending = false := by simpa [Orderly] using hok
    have hold := hlimited.limits hending
    have hduration := congrArg Limits.duration hold
    have hsoc := congrArg Limits.socPct hold
    refine ⟨⟨(htracks.applyEnergyOverride energyWh).keep rfl rfl (Nat.le_refl _) rfl rfl rfl
      rfl rfl rfl rfl, Limited.override ?_ rfl hending⟩, trivial⟩
    exact limits_ext hduration rfl hsoc
  | overrideSoc socPct =>
    have hending : s.ending = false := by simpa [Orderly] using hok
    have hold := hlimited.limits hending
    have hduration := congrArg Limits.duration hold
    have henergy := congrArg Limits.energyWh hold
    refine ⟨⟨(htracks.applySocTargetOverride socPct).keep rfl rfl (Nat.le_refl _) rfl rfl rfl
      rfl rfl rfl rfl, Limited.override ?_ rfl hending⟩, trivial⟩
    exact limits_ext hduration henergy rfl
  | restart =>
    refine ⟨⟨htracks.restart ?_, hlimited.restart⟩, trivial⟩
    simpa [Orderly] using hok
  | updateDefaults config =>
    simp only [Orderly, Bool.and_eq_true] at hok
    exact ⟨⟨htracks.updateDefaults config,
      hlimited.updateDefaults config hok.1.1 hok.1.2 hok.2⟩, trivial⟩
  | tick =>
    exact ⟨⟨(htracks.tick hok).1, hlimited.tick htracks hok⟩, (htracks.tick hok).2⟩

omit [LE E] [DecidableLE E] in
theorem invariant_setup (plusWh : E → Nat → E) (config : Limits) :
    (setup config).Invariant plusWh := by
  refine ⟨⟨rfl, fun _ _ hbegun => ?_, fun _ _ _ _ hcharge => ?_, fun _ => rfl,
    fun _ => ⟨rfl, rfl⟩, fun hyes => absurd hyes Bool.false_ne_true⟩, fun _ => rfl, fun _ => rfl⟩
  · exact absurd hbegun.symm (Option.some_ne_none _)
  · exact absurd hcharge.symm (Option.some_ne_none _)

theorem meets_right {events : List (Event E)} {s : State E}
    (h : Meets (step plusWh) (fun s event => s.Orderly event = true) s events)
    (hinv : s.Invariant plusWh) : Meets (step plusWh) (Right plusWh) s events := by
  induction events generalizing s with
  | nil => trivial
  | cons event rest ih =>
    obtain ⟨hnext, hright⟩ := hinv.step h.1
    exact ⟨hright, ih h.2 hnext⟩

end State

/-- The meter can be read when the charge starts, but not at the first tick. -/
def meterLost : List (Event Nat) :=
  [.meter (some 10000), .startCharge 0 (some 10000), .meter none, .tick, .meter (some 12000), .tick]

end Esp32Firmware.ChargeLimits
