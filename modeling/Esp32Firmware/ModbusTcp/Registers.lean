import Mathlib.Data.Int.Init
import Mathlib.Data.List.Basic

/-!
# Register tables of the Modbus TCP server

A register holds one half of a 32 bit value: the upper half is at the even address, the lower one
behind it. What a client reads is in network byte order.

## Implementation notes

A table lists what its switch assigns. The context of a request keeps the energy and the tag that
were read first. All optional modules are built in. What the KEBA features report and the number of
a tag there are data of the charger, as are its clock and the firmware version.
-/

namespace Esp32Firmware.ModbusTcp

section

def swapBytes16 (x : UInt16) : UInt16 := (x >>> 8) ||| (x <<< 8)

def swapBytes (x : UInt32) : UInt32 :=
  ((x &&& 0x000000FF) <<< 24) ||| ((x &&& 0x0000FF00) <<< 8) ||| ((x &&& 0x00FF0000) >>> 8) |||
    ((x &&& 0xFF000000) >>> 24)

/-- The half at the lower address in memory. -/
def upper (u : UInt32) : UInt16 := u.toUInt16

def lower (u : UInt32) : UInt16 := (u >>> 16).toUInt16

def ofHalves (upper lower : UInt16) : UInt32 := upper.toUInt32 ||| (lower.toUInt32 <<< 16)

/-- The value of four characters in memory. -/
def ofChars (c0 c1 c2 c3 : UInt8) : UInt32 :=
  c0.toUInt32 ||| (c1.toUInt32 <<< 8) ||| (c2.toUInt32 <<< 16) ||| (c3.toUInt32 <<< 24)

/-- `char i` is the character `i` in memory. -/
def char (u : UInt32) (i : ℕ) : UInt8 := (u >>> UInt32.ofNat (8 * i)).toUInt8

end

section

abbrev Float := Float32.Model

inductive Feature where
  | evse
  | meter
  | meterAllValues
  | nfc
  | phaseSwitch
deriving DecidableEq

structure EvseSlot where
  active : Bool
  maxCurrent : UInt32

/-- A tag with the characters of its ID and the zero behind them. -/
structure TagInfo where
  lastSeen : UInt32
  type : UInt8
  idString : List UInt8

structure Firmware where
  versionMajor : UInt32
  versionMinor : UInt32
  versionPatch : UInt32
  versionBeta : UInt32
  buildTimestamp : UInt32
  uid : UInt32

structure CurrentCharge where
  userId : Int32
  timestampMinutes : UInt32
  evseUptimeStart : UInt32
  meterStart : Float
  authorizationType : UInt32
  /-- What is exported of the ID of the tag. -/
  tagIdNumber : UInt32

structure Meter where
  type : UInt32
  power : Float
  energyAbs : Float
  energyRel : Float
  allValues : List Float

/-- What the tables read of the charger. `available` are the features it has, `cached` those that
a request found. -/
structure Charger where
  firmware : Firmware
  uptimeSeconds : UInt32
  available : Feature → Bool
  cached : Feature → Bool
  sendIllegalDataAddress : Bool
  iec61851State : UInt32
  chargerState : UInt32
  allowedChargingCurrent : UInt32
  evseUptime : UInt32
  slots : List EvseSlot
  buttonPressTime : UInt32
  buttonReleaseTime : UInt32
  ledIndication : Int32
  ledDuration : UInt32
  currentCharge : CurrentCharge
  meter : Meter
  phases : UInt32
  externalControl : UInt32
  phasesWanted : UInt32
  lastTagSeen : Option TagInfo
  nfcTagInjectionBuffer : List UInt8
  kebaFeatures : UInt32

variable (s : Charger)

/-- `FILL_FEATURE_CACHE` for some features. -/
def Charger.fill (features : List Feature) : Charger :=
  { s with cached := fun feature =>
      s.cached feature || (decide (feature ∈ features) && s.available feature) }

/-- `REQUIRE`: the value stays zero without the feature. -/
def Charger.require (feature : Feature) (val : UInt32) : UInt32 :=
  if s.cached feature then val else 0

/-- A slot that is missing counts as an inactive one. -/
def Charger.slot (i : ℕ) : EvseSlot := s.slots.getD i ⟨false, 0⟩

def EvseSlot.current (slot : EvseSlot) : UInt32 :=
  if slot.active then slot.maxCurrent else 0xFFFFFFFF

def Charger.chargingTime : UInt32 :=
  let now := s.evseUptime
  let start := s.currentCharge.evseUptimeStart
  if start = 0 then 0
  else if start ≤ now then now - start
  else 0xFFFFFFFF - start + now + 1

def Charger.value (i : ℕ) : Float := s.meter.allValues.getD i (.ofNat 0)

/-- The last tag, all zeros where none was seen. -/
def Charger.tag : TagInfo := s.lastTagSeen.getD ⟨0, 0, List.replicate 21 0⟩

end

section

structure WarpInputRegisterCtx where
  energyAbs : Option Float
  tag : Option TagInfo

def WarpInputRegisterCtx.empty : WarpInputRegisterCtx := ⟨none, none⟩

variable (s : Charger) (energyAbs : Float) (tag : TagInfo)

def warpInputSwitch : List (ℕ × UInt32) :=
  [(0, 5), -- MODBUS_TABLE_VERSION
    (2, s.firmware.versionMajor),
    (4, s.firmware.versionMinor),
    (6, s.firmware.versionPatch),
    (8, s.firmware.buildTimestamp),
    (10, s.firmware.uid),
    (12, s.uptimeSeconds),
    (14, if s.firmware.versionBeta = 255 then 0 else s.firmware.versionBeta),
    (1000, s.require .evse s.iec61851State),
    (1002, s.require .evse s.chargerState),
    (1004, s.currentCharge.userId.toUInt32),
    (1006, s.currentCharge.timestampMinutes),
    (1008, s.require .evse s.chargingTime),
    (1010, s.require .evse s.allowedChargingCurrent),
    (1100, s.require .evse s.buttonPressTime),
    (1102, s.require .evse s.buttonReleaseTime),
    (2000, s.require .meter s.meter.type),
    (2002, s.require .meter s.meter.power.toBits),
    (2004, s.require .meter energyAbs.toBits),
    (2006, s.require .meter s.meter.energyRel.toBits),
    (2008, s.require .meter (if s.currentCharge.userId = -1 then 0
      else (energyAbs - s.currentCharge.meterStart).toBits)),
    (3100, s.phases),
    (3102, s.require .phaseSwitch s.externalControl),
    -- A tag that was just seen is reported as older so that it can be injected again.
    (4010, s.require .nfc (if tag.lastSeen ≠ 0 ∧ tag.lastSeen < 0x70 then tag.lastSeen + 0x70
      else tag.lastSeen)),
    (4012, s.require .nfc (0x30303000 + (0x30 + tag.type.toUInt32)))]

def hexDigitToByte (digit : UInt8) : UInt8 :=
  if 0x30 ≤ digit ∧ digit ≤ 0x39 then digit - 0x30
  else
    let digit := digit ||| 0x60
    if 0x61 ≤ digit ∧ digit ≤ 0x66 then digit - 0x61 + 10 else 0xFF

/-- The digits `i` to seven of eight hexadecimal ones; they end with the ID. -/
def hexDigits (id : List UInt8) (offset i : ℕ) : UInt32 :=
  if i < 8 then
    if 20 ≤ i + offset ∨ id.getD (i + offset) 0 = 0 then 0
    else
      ((hexDigitToByte (id.getD (i + offset) 0)).toUInt32 <<< UInt32.ofNat (28 - i * 4)) |||
        hexDigits id offset (i + 1)
  else 0
termination_by 8 - i

/-- The ranges behind the switch. -/
def warpInputRange (reg : ℕ) : Option UInt32 :=
  if 1012 ≤ reg ∧ reg < 1012 + 2 * 20 then some (s.require .evse (s.slot ((reg - 1012) / 2)).current)
  else if 2100 ≤ reg ∧ reg < 2100 + 2 * 85 then
    some (s.require .meterAllValues (s.value ((reg - 2100) / 2)).toBits)
  else if 4000 ≤ reg ∧ reg < 4000 + 10 then
    let i := (reg - 4000) * 2
    some (s.require .nfc (swapBytes (ofChars (tag.idString.getD i 0) (tag.idString.getD (i + 1) 0)
      (tag.idString.getD (i + 2) 0) (tag.idString.getD (i + 3) 0))))
  else if 4020 ≤ reg ∧ reg < 4026 then
    -- A tag is shown for one minute.
    some (s.require .nfc (if tag.lastSeen < 60000 then hexDigits tag.idString ((reg - 4020) * 4) 0
      else 0))
  else none

def readsEnergyAbs (reg : ℕ) : Bool :=
  s.cached .meter && (reg == 2004 || (reg == 2008 && s.currentCharge.userId != -1))

def readsTag (reg : ℕ) : Bool :=
  s.cached .nfc && (reg == 4010 || reg == 4012 || (decide (4000 ≤ reg) && decide (reg < 4010)) ||
    (decide (4020 ≤ reg) && decide (reg < 4026)))

/-- What a table returns for a register outside of it. -/
def Charger.orIllegal (val : Option UInt32) : Option UInt32 :=
  if s.sendIllegalDataAddress then val else some (val.getD 0)

def getWarpInputRegister (ctx : WarpInputRegisterCtx) (reg : UInt16) :
    Option UInt32 × WarpInputRegisterCtx :=
  let energyAbs := ctx.energyAbs.getD s.meter.energyAbs
  let tag := ctx.tag.getD s.tag
  (s.orIllegal ((warpInputRange s tag reg.toNat).or
      ((warpInputSwitch s energyAbs tag).lookup reg.toNat)),
    { energyAbs := if readsEnergyAbs s reg.toNat then some energyAbs else ctx.energyAbs
      tag := if readsTag s reg.toNat then some tag else ctx.tag })

end

variable (s : Charger)

def warpHoldingSwitch : List (ℕ × UInt32) :=
  [(0, 0),
    (1000, s.require .evse (s.slot 10).current), -- CHARGING_SLOT_MODBUS_TCP_ENABLE
    (1002, s.require .evse (s.slot 9).current), -- CHARGING_SLOT_MODBUS_TCP
    (1004, s.require .evse s.ledIndication.toUInt32),
    (1006, s.require .evse s.ledDuration),
    (2000, s.require .meter 0),
    (3100, s.require .phaseSwitch s.phasesWanted)]

def warpHoldingRange (reg : ℕ) : Option UInt32 :=
  if 4000 ≤ reg ∧ reg < 4014 then
    let buffer := s.nfcTagInjectionBuffer
    let i := (reg - 4000) * 2
    some (s.require .nfc (swapBytes (ofChars (buffer.getD i 0) (buffer.getD (i + 1) 0)
      (buffer.getD (i + 2) 0) (buffer.getD (i + 3) 0))))
  else none

def getWarpHoldingRegister (reg : UInt16) : Option UInt32 :=
  s.orIllegal ((warpHoldingRange s reg.toNat).or ((warpHoldingSwitch s).lookup reg.toNat))

/-- A value as a whole number, in units of which `factor` make one. -/
def scaled (value : Float) (factor : ℕ) : UInt32 := (value * .ofNat factor).toUInt32

def Charger.kebaState : UInt32 :=
  if s.iec61851State ≠ 0 ∧ (s.slot 10).active ∧ (s.slot 10).maxCurrent = 0 then 5
  else if s.iec61851State = 4 then 4
  else s.iec61851State + 1

def Charger.kebaCable : UInt32 :=
  if s.iec61851State = 1 then 5
  else if s.iec61851State = 2 ∨ s.iec61851State = 3 then 7
  else 3

def Charger.cableCurrent : UInt32 := min (s.slot 0).maxCurrent (s.slot 1).maxCurrent

def kebaHoldingSwitch : List (ℕ × UInt32) :=
  [(1000, s.require .evse s.kebaState),
    (1004, s.require .evse s.kebaCable),
    (1006, 0), -- error code
    (1008, s.require .meterAllValues (scaled (s.value 3) 1000)),
    (1010, s.require .meterAllValues (scaled (s.value 4) 1000)),
    (1012, s.require .meterAllValues (scaled (s.value 5) 1000)),
    (1014, s.firmware.uid),
    (1016, s.kebaFeatures),
    (1018, 0x30A1B00),
    (1020, s.require .meter (scaled s.meter.power 1000)),
    (1036, s.require .meter (s.meter.energyAbs * .ofNat 1000 * .ofNat 10).toUInt32),
    (1040, s.require .meterAllValues (s.value 0).toUInt32),
    (1042, s.require .meterAllValues (s.value 1).toUInt32),
    (1044, s.require .meterAllValues (s.value 2).toUInt32),
    (1046, s.require .meterAllValues (scaled (s.value 27) 10)),
    (1100, s.require .evse s.allowedChargingCurrent),
    (1110, s.require .evse s.cableCurrent),
    (1500, s.require .nfc (if s.currentCharge.authorizationType = 2 ∨
        s.currentCharge.authorizationType = 3 then s.currentCharge.tagIdNumber else 0)),
    (1502, s.require .meter (if s.currentCharge.userId = -1 then 0
      else ((s.meter.energyAbs - s.currentCharge.meterStart) * .ofNat 1000 * .ofNat 10).toUInt32)),
    (1550, if s.cached .phaseSwitch then 3 else 0),
    (1552, s.phases),
    (1600, 0), -- failsafe
    (1602, 0)] -- failsafe

def getKebaHoldingRegister (reg : UInt16) : Option UInt32 :=
  s.orIllegal ((kebaHoldingSwitch s).lookup reg.toNat)

/-- A value of which one half is assigned. -/
def lowerOnly (val : UInt32) : UInt32 := ofHalves 0 val.toUInt16

def upperOnly (val : UInt32) : UInt32 := ofHalves val.toUInt16 0

def Charger.benderChargePointState : UInt32 :=
  if s.chargerState = 0 then 0 else if s.chargerState = 4 then 4 else 1

def Charger.benderOperative : UInt32 :=
  if ¬(s.slot 10).active then 0 else if 6000 ≤ (s.slot 10).maxCurrent then 0 else 1

def Charger.benderEnergy : UInt32 :=
  if s.currentCharge.userId = -1 then 0
  else scaled (s.meter.energyAbs - s.currentCharge.meterStart) 1000

def benderHoldingSwitch : List (ℕ × UInt32) :=
  [(100, 0x342E3430), -- firmware version 4.40
    (104, s.require .evse (lowerOnly s.benderChargePointState)),
    (120, 0x302E3134), -- protocol version 0.14
    (122, s.require .evse
      (ofHalves (s.iec61851State + 10).toUInt16 (s.iec61851State + 1).toUInt16)),
    (124, s.require .evse (lowerOnly s.benderOperative)),
    (132, s.require .evse (upperOnly (s.cableCurrent / 1000))),
    (140, upperOnly 0xEBEE),
    (200, s.require .meterAllValues (scaled (s.value 67) 1000)),
    (202, s.require .meterAllValues (scaled (s.value 68) 1000)),
    (204, s.require .meterAllValues (scaled (s.value 69) 1000)),
    (206, s.require .meterAllValues (s.value 6).toUInt32),
    (208, s.require .meterAllValues (s.value 7).toUInt32),
    (210, s.require .meterAllValues (s.value 8).toUInt32),
    (212, s.require .meterAllValues (scaled (s.value 3) 1000)),
    (214, s.require .meterAllValues (scaled (s.value 4) 1000)),
    (216, s.require .meterAllValues (scaled (s.value 5) 1000)),
    (218, s.require .meterAllValues (scaled (s.value 30) 1000)),
    (220, s.require .meterAllValues (s.value 24).toUInt32),
    (222, s.require .meterAllValues (s.value 0).toUInt32),
    (224, s.require .meterAllValues (s.value 1).toUInt32),
    (226, s.require .meterAllValues (s.value 2).toUInt32),
    (706, s.require .evse (lowerOnly (s.allowedChargingCurrent / 1000))),
    (709, s.require .evse s.chargingTime),
    (718, s.require .evse s.chargingTime),
    (705, s.require .meter s.benderEnergy),
    (716, s.require .meter s.benderEnergy),
    (1000, s.require .evse (lowerOnly (if (s.slot 9).active then (s.slot 9).maxCurrent / 1000
      else 0)))]

/-- A register outside of the table is zero. -/
def getBenderHoldingRegister (reg : UInt16) : UInt32 :=
  ((benderHoldingSwitch s).lookup reg.toNat).getD 0

end Esp32Firmware.ModbusTcp
