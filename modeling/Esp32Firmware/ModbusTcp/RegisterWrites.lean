import Esp32Firmware.ModbusTcp.BlockReads

/-!
# Writes of the Modbus TCP clients

A request is refused, ignored or carried out register by register. What it does to the charger is
the list of calls it makes.

## Implementation notes

What a call changes is not read again by the same request: a half of a value is only read for the
first or the last register, before its own call. The counters of the errors and of ignored writes
are left out.
-/

namespace Esp32Firmware.ModbusTcp

inductive ExceptionCode where
  | success
  | illegalFunction
  | illegalDataAddress
deriving DecidableEq

inductive TagCommand where
  | injectTag
  | injectTagStart
  | injectTagStop
deriving DecidableEq

/-- A call that changes the charger. -/
inductive Action where
  | triggerReboot
  | setModbusEnabled (enabled : Bool)
  | setModbusCurrent (current : UInt16)
  | setLed (indication : UInt32) (duration hue : UInt16) (saturation value : UInt8)
  | resetMeter
  | switchPhases (phases : UInt32)
  | startCharging
  | stopCharging
  | updateGpOutput (output : Bool)
  | overrideEnergy (energyWh : UInt32)
  | inject (command : TagCommand) (tagType : UInt32) (tagId : List UInt8)
deriving DecidableEq

structure Response where
  code : ExceptionCode
  actions : List Action
  buffer : List UInt8
deriving DecidableEq

section

/-- `none` if the request may write. -/
def checkReadOnly (s : Charger) (ignoreWrites : Bool) : Option ExceptionCode :=
  if s.cached .evse ∧ (s.slot 9).active then none
  else if ignoreWrites then some .success
  else some .illegalFunction

end

section

variable (s : Charger) (start : UInt16) (data : List UInt16)

def word16 (i : ℕ) : UInt16 := data.getD i 0

/-- The value that is written to the pair at index `i`, with the other half as it was; `none` where
there is none to read. -/
def writtenValue (i : ℕ) : Option UInt32 :=
  let old := (getWarpHoldingRegister s (evenBelow (i + start.toNat))).map swapBytes
  if i = 0 ∧ start.toNat % 2 = 1 then
    old.map fun old => swapBytes (ofHalves (upper old) (word16 data i))
  else if i = data.length - 1 then
    old.map fun old => swapBytes (ofHalves (word16 data i) (lower old))
  else some (swapBytes (ofHalves (word16 data i) (word16 data (i + 1))))

/-- The index behind the pair at index `i`. -/
def behindPair (i : ℕ) : ℕ :=
  if i = 0 ∧ start.toNat % 2 = 1 then i + 1
  else if i = data.length - 1 then i + 1
  else i + 2

/-- The index behind the LED registers that are taken along with the indication. -/
def behindLed (i : ℕ) : ℕ :=
  if data.length < i + 2 then i
  else if data.length < i + 2 + 6 then i + 2
  else i + 2 + 6

/-- The LED is set if the duration is in the request, in color if all of it is. -/
def setLed (val : UInt32) (i : ℕ) : List Action :=
  if data.length < i + 2 then []
  else
    let duration := swapBytes16 (word16 data (i + 1))
    if data.length < i + 2 + 6 then [.setLed val duration 0 0 0]
    else
      [.setLed val duration (swapBytes16 (word16 data (i + 3))) (word16 data (i + 5) >>> 8).toUInt8
        (word16 data (i + 7) >>> 8).toUInt8]

/-- `REQUIRE`: nothing is called without the feature. -/
def Charger.requires (feature : Feature) (actions : List Action) : List Action :=
  if s.cached feature then actions else []

/-- What is called for a register, with the index behind its pair; `none` is an illegal address. -/
def warpHoldingActions (reg : ℕ) (val : UInt32) (i : ℕ) : Option (List Action) :=
  if reg = 0 then some (if val = 0x012EB007 then [.triggerReboot] else [])
  else if reg = 1000 then some (s.requires .evse [.setModbusEnabled (decide (0 < val))])
  else if reg = 1002 then some (s.requires .evse [.setModbusCurrent val.toUInt16])
  else if reg = 1004 then some (s.requires .evse (setLed data val i))
  else if reg = 1006 ∨ reg = 1008 ∨ reg = 1010 ∨ reg = 1012 then some []
  else if reg = 2000 then some (s.requires .meter (if val = 0x3E12E5E7 then [.resetMeter] else []))
  else if reg = 3100 then some (s.requires .phaseSwitch [.switchPhases val])
  else none

def inNfcRange (reg : ℕ) : Bool := decide (4000 ≤ reg) && decide (reg < 4014)

/-- The characters of a pair in the buffer. -/
def storeChars (buffer : List UInt8) (reg : ℕ) (val : UInt32) : List UInt8 :=
  let i := (reg - 4000) * 2
  (((buffer.set i (char val 0)).set (i + 1) (char val 1)).set (i + 2) (char val 2)).set (i + 3)
    (char val 3)

/-- A separator after every second character but the last one. -/
def addSeparator : List UInt8 → List UInt8
  | c :: c' :: c'' :: rest => c :: c' :: 0x3A :: addSeparator (c'' :: rest)
  | chars => chars

/-- The tag that the buffer describes. -/
def injection (buffer : List UInt8) : Action :=
  let tagId := addSeparator ((buffer.take 20).takeWhile (· != 0))
  let tagType := (buffer.getD 27 0 &&& 0x0F).toUInt32
  let injectionType := buffer.getD 23 0 &&& 0x0F
  let command :=
    if injectionType = 1 then TagCommand.injectTagStart
    else if injectionType = 2 then .injectTagStop
    else .injectTag
  .inject command tagType tagId

def emptyBuffer : List UInt8 := List.replicate 28 0

/-- The state of the loop over the pairs. -/
structure WriteState where
  reportIllegalDataAddress : Bool
  actions : List Action
  buffer : List UInt8

/-- One pair of registers, with the index behind it. -/
def writePair (st : WriteState) (reg : ℕ) (val : UInt32) (i : ℕ) : WriteState :=
  let called := warpHoldingActions s data reg val i
  let st :=
    { st with
      reportIllegalDataAddress := st.reportIllegalDataAddress || called.isNone
      actions := st.actions ++ called.getD [] }
  if inNfcRange reg then
    let st := { st with reportIllegalDataAddress := false }
    if s.cached .nfc then
      let buffer := storeChars st.buffer reg (swapBytes val)
      if reg = 4012 ∧ (i + start.toNat = 4013 ∨ 1 < data.length) then
        { st with actions := st.actions ++ [injection buffer], buffer := emptyBuffer }
      else { st with buffer := buffer }
    else st
  else st

/-- The index of the next pair. -/
def nextIndex (i : ℕ) : ℕ :=
  if (evenBelow (i + start.toNat)).toNat = 1004 ∧ s.cached .evse then
    behindLed data (behindPair start data i)
  else behindPair start data i

theorem lt_behindPair (i : ℕ) : i < behindPair start data i := by
  rw [behindPair]
  split_ifs <;> omega

theorem le_behindLed (i : ℕ) : i ≤ behindLed data i := by
  rw [behindLed]
  split_ifs <;> omega

theorem lt_nextIndex (i : ℕ) : i < nextIndex s start data i := by
  rw [nextIndex]
  split_ifs
  · exact Nat.lt_of_lt_of_le (lt_behindPair start data i) (le_behindLed data _)
  · exact lt_behindPair start data i

def writeLoop (i : ℕ) (st : WriteState) : Response :=
  if i < data.length then
    match writtenValue { s with nfcTagInjectionBuffer := st.buffer } start data i with
    | none => ⟨.illegalDataAddress, st.actions, st.buffer⟩
    | some val =>
      writeLoop (nextIndex s start data i)
        (writePair s start data st (evenBelow (i + start.toNat)).toNat val
          (behindPair start data i))
  else
    ⟨if s.sendIllegalDataAddress ∧ st.reportIllegalDataAddress then .illegalDataAddress
      else .success, st.actions, st.buffer⟩
termination_by data.length - i
decreasing_by
  have hlt := lt_nextIndex s start data i
  omega

def setWarpHoldingRegisters (ignoreWrites : Bool) : Response :=
  let s := s.fill [.evse, .meter, .phaseSwitch, .nfc]
  match checkReadOnly s ignoreWrites with
  | some code => ⟨code, [], s.nfcTagInjectionBuffer⟩
  | none => writeLoop s start data 0 ⟨false, [], s.nfcTagInjectionBuffer⟩

end

variable (s : Charger)

/-- The loop of the other tables: an illegal address ends it where such addresses are reported. -/
def writeEach (act : ℕ → ℕ → Option (List Action)) (start count i : ℕ) (actions : List Action) :
    ExceptionCode × List Action :=
  if i < count then
    match act (i + start) i with
    | some called => writeEach act start count (i + 1) (actions ++ called)
    | none =>
      if s.sendIllegalDataAddress then (.illegalDataAddress, actions)
      else writeEach act start count (i + 1) actions
  else (.success, actions)
termination_by count - i

/-- A request to a table without a buffer. -/
def writeUnlessReadOnly (ignoreWrites : Bool) (write : ExceptionCode × List Action) : Response :=
  match checkReadOnly s ignoreWrites with
  | some code => ⟨code, [], s.nfcTagInjectionBuffer⟩
  | none => ⟨write.1, write.2, s.nfcTagInjectionBuffer⟩

def coil (data : List UInt8) (i : ℕ) : Bool :=
  data.getD (i / 8) 0 &&& (1 <<< UInt8.ofNat (i % 8)) != 0

def warpCoilActions (data : List UInt8) (address i : ℕ) : Option (List Action) :=
  if address = 1000 then some (s.requires .evse [.setModbusEnabled (coil data i)])
  else if address = 1001 then
    some (s.requires .evse [if coil data i then .startCharging else .stopCharging])
  else if address = 1100 then some (s.requires .evse [.updateGpOutput (coil data i)])
  else none

def setWarpCoils (start count : UInt16) (data : List UInt8) (ignoreWrites : Bool) : Response :=
  let s := s.fill [.evse]
  writeUnlessReadOnly s ignoreWrites
    (writeEach s (warpCoilActions s data) start.toNat count.toNat 0 [])

/-- `val == 1 ? 3 : 1` -/
def kebaPhases (val : UInt16) : UInt32 := if val = 1 then 3 else 1

def kebaActions (data : List UInt16) (address i : ℕ) : Option (List Action) :=
  let reg := (UInt16.ofNat address).toNat
  let val := swapBytes16 (word16 data i)
  if reg = 5004 then some (s.requires .evse [.setModbusCurrent val])
  else if reg = 5010 then some (s.requires .evse [.overrideEnergy (val.toUInt32 * 10)])
  else if reg = 5012 then some [] -- unlock the connector
  else if reg = 5014 then some (s.requires .evse [.setModbusEnabled (decide (0 < val))])
  else if reg = 5016 ∨ reg = 5018 ∨ reg = 5020 then some [] -- failsafe
  else if reg = 5050 then some [] -- communication channel
  else if reg = 5052 then some (s.requires .phaseSwitch [.switchPhases (kebaPhases val)])
  else none

def setKebaHoldingRegisters (start : UInt16) (data : List UInt16) (ignoreWrites : Bool) :
    Response :=
  let s := s.fill [.evse, .phaseSwitch]
  writeUnlessReadOnly s ignoreWrites (writeEach s (kebaActions s data) start.toNat data.length 0 [])

def benderActions (data : List UInt16) (address i : ℕ) : Option (List Action) :=
  let reg := (UInt16.ofNat address).toNat
  let val := swapBytes16 (word16 data i)
  if reg = 124 then some (s.requires .evse [.setModbusEnabled (decide (val = 0))])
  else if reg = 1000 then
    some (s.requires .evse [.setModbusCurrent (val.toUInt32 * 1000).toUInt16])
  else none

def setBenderHoldingRegisters (start : UInt16) (data : List UInt16) (ignoreWrites : Bool) :
    Response :=
  let s := s.fill [.evse, .phaseSwitch]
  writeUnlessReadOnly s ignoreWrites
    (writeEach s (benderActions s data) start.toNat data.length 0 [])

end Esp32Firmware.ModbusTcp
