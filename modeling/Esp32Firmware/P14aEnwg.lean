import Mathlib

/-!
# Control by the grid operator

`p14a_enwg` holds the limit that § 14a EnWG imposes while it is active. The managed
chargers read it as a power, where zero stands for no limit, and the heating as a flag.

## Implementation notes

The sources are left out: whether the control is active and its limit are part of the
state.
-/

namespace Esp32Firmware

structure P14aEnwgConfig where
  enable : Bool
  limitChargeManager : Bool
  limitHeating : Bool

structure P14aEnwgState where
  active : Bool
  limitW : UInt32

structure P14aEnwg where
  config : P14aEnwgConfig
  state : P14aEnwgState

namespace P14aEnwg

variable (self : P14aEnwg)

def isEnabled : Bool := self.config.enable

def isHeatingActive : Bool :=
  self.isEnabled && self.config.limitHeating && self.state.active

/-- Whether the limit applies to the managed chargers. -/
def limitsManagedChargers : Bool :=
  self.isEnabled && self.config.limitChargeManager && self.state.active

def getManagedChargersLimit : UInt32 :=
  if !self.isEnabled || !self.config.limitChargeManager || !self.state.active then 0
  else self.state.limitW

/-- Zero is returned for no limit and for a limit of zero. -/
theorem getManagedChargersLimit_eq :
    self.getManagedChargersLimit = if self.limitsManagedChargers then self.state.limitW else 0 := by
  rw [getManagedChargersLimit, limitsManagedChargers]
  cases self.isEnabled <;> cases self.config.limitChargeManager <;> cases self.state.active <;> rfl

end P14aEnwg

end Esp32Firmware
