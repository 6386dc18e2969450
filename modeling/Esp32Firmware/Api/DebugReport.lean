import Esp32Firmware.Api.CensoredOutput
import Esp32Firmware.Config.SerializeJson
import Esp32Firmware.Library.ChunkedDump

/-!
# The debug report and the initial dump

The debug report is one JSON object whose last members are all registrations: the states, the
commands and the responses. It is sent in chunks, as the states are to a new WebSocket client. A
chunk of the responses ends with the brace that closes the object.

## Implementation notes

Sending and the task that reads the configurations do not fail. The members of the report before
the registrations are a parameter.
-/

namespace Esp32Firmware.Api

open Esp32Firmware.Configuration JsonText ChunkedDump

section

theorem toList_loop (bytes : ByteArray) (i : Nat) (read : List UInt8) :
    ByteArray.toList.loop bytes i read = read.reverse ++ bytes.data.toList.drop i := by
  fun_induction ByteArray.toList.loop bytes i read with
  | case1 i read h ih =>
    have hi : i < bytes.data.toList.length := h
    have hget : bytes.get! i = bytes.data.toList[i] := getElem!_pos bytes.data i h
    rw [ih, List.drop_eq_getElem_cons hi, List.reverse_cons, List.append_assoc, hget]
    rfl
  | case2 i read h =>
    have hi : bytes.data.toList.length ≤ i := Nat.le_of_not_lt h
    rw [List.drop_eq_nil_of_le hi, List.append_nil]

theorem bytesOf_eq (text : String) : bytesOf text = text.toByteArray.data.toList := by
  rw [bytesOf, String.toUTF8, ByteArray.toList, toList_loop]
  rfl

theorem bytesOf_append (text text' : String) :
    bytesOf (text ++ text') = bytesOf text ++ bytesOf text' := by
  rw [bytesOf_eq, bytesOf_eq, bytesOf_eq, String.toByteArray_append, ByteArray.toList_data_append]

theorem length_bytesOf (text : String) : (bytesOf text).length = text.utf8ByteSize := by
  rw [bytesOf_eq]
  rfl

end

/-- A state, a command or a response. Paths are written as they are. -/
structure ReportRegistration where
  path : String
  config : Config
  keysToCensorInDebugReport : List String
  plain : ∀ c ∈ path.toList, IsPlain c

section

variable (floatJson : UInt32 → Json) (writer : JsonWriter)

def serializeJson (doc : Json) : List UInt8 :=
  bytesOf (.ofList (doc.serialize writer))

namespace ReportRegistration

variable (reg : ReportRegistration)

def document : Json := reg.config.toJson floatJson reg.keysToCensorInDebugReport

def configLen : Nat := stringLength reg.keysToCensorInDebugReport reg.config

end ReportRegistration

def regPrefix : List UInt8 := bytesOf ",\n \""

def regInfix : List UInt8 := bytesOf "\": "

def regSuffix : List UInt8 := bytesOf ""

def truncatedMessage : List UInt8 := bytesOf "Failed to generate debug report: truncated"

variable (capacity : Nat)

/-- The space that is asked for before a registration is written. -/
def regRequired (terminator : List UInt8) (reg : ReportRegistration) : Nat :=
  regPrefix.length + reg.path.utf8ByteSize + regInfix.length + reg.configLen +
    regSuffix.length + terminator.length

def putReg (sw : List UInt8) (reg : ReportRegistration) : List UInt8 :=
  [regPrefix, bytesOf reg.path, regInfix, serializeJson writer (reg.document floatJson),
    regSuffix].foldl (puts capacity) sw

/-- The chunks with the remaining registrations, and whether the report goes on. The terminator,
if there is one, is put behind every chunk. -/
def printRegsFrom (terminator : List UInt8) :
    List ReportRegistration → List UInt8 → List (List UInt8) × Bool
  | [], sw => ([puts capacity sw terminator], true)
  | reg :: rest, sw =>
    if capacity - sw.length < regRequired terminator reg then
      if sw = [] then ([truncatedMessage], false)
      else if capacity < regRequired terminator reg then
        ([puts capacity sw terminator, truncatedMessage], false)
      else
        let (chunks, goesOn) :=
          printRegsFrom terminator rest (putReg floatJson writer capacity [] reg)
        (puts capacity sw terminator :: chunks, goesOn)
    else printRegsFrom terminator rest (putReg floatJson writer capacity sw reg)

/-- `print_regs_to_debug_report`. -/
def printRegsToDebugReport (regs : List ReportRegistration) (terminator : Option String) :
    List (List UInt8) × Bool :=
  printRegsFrom floatJson writer capacity (terminator.elim [] bytesOf) regs []

/-- The chunks with all registrations. -/
def registerSection (states commands responses : List ReportRegistration) :
    List (List UInt8) × Bool :=
  let (chunks, goesOn) := printRegsToDebugReport floatJson writer capacity states none
  if !goesOn then (chunks, false)
  else
    let (chunks', goesOn) := printRegsToDebugReport floatJson writer capacity commands none
    if !goesOn then (chunks ++ chunks', false)
    else
      let (chunks'', goesOn) :=
        printRegsToDebugReport floatJson writer capacity responses (some "\x7d")
      (chunks ++ chunks' ++ chunks'', goesOn)

/-- The size of the buffer without its NUL. `historySize` is that of the history of the meters,
which is written with the same buffer. -/
def debugReportCapacity (maxLength historySize : Nat) : Nat :=
  max (maxLength + 1024) historySize - 1

end

section

variable {floatJson : UInt32 → Json} {writer : JsonWriter} {capacity : Nat}

theorem puts_puts (buffer text text' : List UInt8) :
    puts capacity (puts capacity buffer text) text' = puts capacity buffer (text ++ text') := by
  rw [puts, puts, puts, ← List.append_assoc]
  generalize buffer ++ text = written
  have hroom : capacity - min capacity written.length = capacity - written.length := by omega
  rw [List.take_append, List.take_append, List.take_take, Nat.min_self, List.length_take, hroom]

/-- Pieces that are put one after another are put together. -/
theorem foldl_puts (piece : List UInt8) (pieces : List (List UInt8)) (buffer : List UInt8) :
    (piece :: pieces).foldl (puts capacity) buffer =
      puts capacity buffer (piece :: pieces).flatten := by
  induction pieces generalizing piece buffer with
  | nil => rw [List.flatten_singleton, List.foldl_cons, List.foldl_nil]
  | cons next pieces ih =>
    rw [List.foldl_cons, ih, puts_puts]
    rfl

variable (floatJson writer)

/-- What is written of a state, and the room that is asked for before. -/
def stateEntry (reg : RegisteredState) : Entry UInt8 where
  required := requiredLength reg
  text := [dumpPrefix, bytesOf reg.path, dumpInfix,
    serializeJson writer (reg.config.toJson floatJson reg.keysToCensor), dumpSuffix].flatten

/-- What is written of a registration, and the room that is asked for before. -/
def regEntry (terminator : List UInt8) (reg : ReportRegistration) : Entry UInt8 where
  required := regRequired terminator reg
  text := [regPrefix, bytesOf reg.path, regInfix,
    serializeJson writer (reg.document floatJson), regSuffix].flatten

variable {floatJson writer}

/-- The dump of the states is one in chunks, whose last one gets a newline. -/
theorem dumpStates_eq (states : List RegisteredState) (buffer : List UInt8) :
    dumpStates floatJson (serializeJson writer) capacity states buffer =
      dump capacity id (puts capacity · (bytesOf "\n")) [] (states.map
        (stateEntry floatJson writer)) buffer := by
  induction states generalizing buffer with
  | nil => rfl
  | cons reg rest ih =>
    have hput : ∀ sw, putState floatJson (serializeJson writer) capacity sw reg =
        put capacity sw (stateEntry floatJson writer reg).text := fun sw =>
      foldl_puts _ _ sw
    rw [dumpStates, List.map_cons, dump, ih, ih, hput, hput]
    simp only [List.isEmpty_iff]
    rfl

/-- So is the one of registrations. Every chunk gets the terminator. -/
theorem printRegsFrom_eq (terminator : List UInt8) (regs : List ReportRegistration)
    (sw : List UInt8) :
    printRegsFrom floatJson writer capacity terminator regs sw =
      dump capacity (puts capacity · terminator) (puts capacity · terminator) [truncatedMessage]
        (regs.map (regEntry floatJson writer terminator)) sw := by
  induction regs generalizing sw with
  | nil => rfl
  | cons reg rest ih =>
    have hput : ∀ sw, putReg floatJson writer capacity sw reg =
        put capacity sw (regEntry floatJson writer terminator reg).text := fun sw =>
      foldl_puts _ _ sw
    rw [printRegsFrom, List.map_cons, dump, ih, ih, hput, hput]
    simp only [List.isEmpty_iff]
    rfl

end

section

variable (floatJson : UInt32 → Json) (writer : JsonWriter)

/-- A state as it is in the dump. -/
def stateText (reg : RegisteredState) : List UInt8 :=
  dumpPrefix ++ bytesOf reg.path ++ dumpInfix ++
    serializeJson writer (reg.config.toJson floatJson reg.keysToCensor) ++ dumpSuffix

/-- The message that a new client is sent first. -/
def keepAliveMessage (uptime : UInt64) : List UInt8 :=
  bytesOf ("\x7b\"topic\":\"info/keep_alive\",\"payload\":\x7b\"uptime\":" ++ uptime.toNat.repr ++
    "\x7d\x7d\n")

/-- The capacity of the buffer for the messages of a dump. -/
def dumpCapacity (maxLength : Nat) : Nat := maxLength + 128

/-- The estimate is an upper bound, and there is a buffer for what it asks for. -/
structure RegisteredState.Fits (capacity : Nat) (reg : RegisteredState) : Prop where
  estimate : (serializeJson writer (reg.config.toJson floatJson reg.keysToCensor)).length ≤
    stringLength reg.keysToCensor reg.config
  buffer : requiredLength reg ≤ capacity

structure ReportRegistration.Fits (capacity : Nat) (terminator : List UInt8)
    (reg : ReportRegistration) : Prop where
  estimate : (serializeJson writer (reg.document floatJson)).length ≤ reg.configLen
  buffer : regRequired terminator reg ≤ capacity

namespace ReportRegistration

variable (reg : ReportRegistration)

/-- A registration as it is in the report. -/
def text : String :=
  ",\n \"" ++ reg.path ++ "\": " ++ .ofList ((reg.document floatJson).serialize writer)

/-- A registration as a member of the report. -/
def member : List Char × Value :=
  (reg.path.toList, (reg.document floatJson).toValue writer)

end ReportRegistration

/-- A text with some members of an object, the object still open. -/
def OpensObject (members : List (List Char × Value)) (head : String) : Prop :=
  ∃ key value rest, members = (key, value) :: rest ∧
    WritesTokens (.punct '\x7b' :: .string key :: .punct ':' ::
      (value.tokens ++ moreMembers rest)) head.toList

/-- Every registration is written once, whole and in its order, as a member of one object. -/
structure IsComplete (regs : List ReportRegistration) (chunks : List (List UInt8)) : Prop where
  whole : chunks.flatten =
    regs.flatMap (fun reg => bytesOf (reg.text floatJson writer)) ++ bytesOf "\x7d"
  object : ∀ members head, OpensObject members head → ∃ text,
    bytesOf head ++ chunks.flatten = bytesOf text ∧
      Writes (.object (members ++ regs.map (ReportRegistration.member floatJson writer)))
        text.toList

end

section

variable {floatJson : UInt32 → Json} {writer : JsonWriter}
  {capacity maxLength historySize : Nat} {terminator : List UInt8}

theorem stateEntry_text (reg : RegisteredState) :
    (stateEntry floatJson writer reg).text = stateText floatJson writer reg := by
  simp [stateEntry, stateText]

theorem RegisteredState.Fits.entry {reg : RegisteredState}
    (h : reg.Fits floatJson writer capacity) :
    (stateEntry floatJson writer reg).Fits capacity 1 := by
  have hestimate := h.estimate
  refine ⟨?_, h.buffer⟩
  rw [stateEntry_text, stateText]
  simp only [List.length_append, length_bytesOf, stateEntry, requiredLength]
  omega

theorem ReportRegistration.Fits.entry {reg : ReportRegistration}
    (h : reg.Fits floatJson writer capacity terminator) :
    (regEntry floatJson writer terminator reg).Fits capacity terminator.length := by
  have hestimate := h.estimate
  refine ⟨?_, h.buffer⟩
  simp only [regEntry, regRequired, List.flatten_cons, List.flatten_nil, List.length_append,
    length_bytesOf, List.length_nil]
  omega

theorem length_keepAliveMessage (uptime : UInt64) : (keepAliveMessage uptime).length ≤ 70 := by
  have hdigits : uptime.toNat.repr.utf8ByteSize ≤ 20 := by
    rw [utf8ByteSize_repr, Nat.length_toDigits_le_iff (by omega) (by omega)]
    exact lt_trans uptime.toNat_lt (by decide)
  rw [keepAliveMessage, length_bytesOf, String.utf8ByteSize_append, String.utf8ByteSize_append]
  have hhead :
      "\x7b\"topic\":\"info/keep_alive\",\"payload\":\x7b\"uptime\":".utf8ByteSize = 47 := rfl
  have htail : "\x7d\x7d\n".utf8ByteSize = 3 := rfl
  omega

/-- A new client gets every state once, whole and in its order, and then a newline. -/
theorem initialDump_complete (uptime : UInt64) {states : List RegisteredState}
    (h : ∀ reg ∈ states, reg.Fits floatJson writer (dumpCapacity maxLength)) :
    (initialDump floatJson (serializeJson writer) (dumpCapacity maxLength)
        (keepAliveMessage uptime) states).1.flatten =
      keepAliveMessage uptime ++ states.flatMap (stateText floatJson writer) ++ bytesOf "\n" ∧
    (initialDump floatJson (serializeJson writer) (dumpCapacity maxLength)
        (keepAliveMessage uptime) states).2 = true := by
  have hkeep := length_keepAliveMessage uptime
  have hnewline : (bytesOf "\n").length = 1 := by rw [length_bytesOf]; rfl
  have hroom : (keepAliveMessage uptime).length + (bytesOf "\n").length ≤
      dumpCapacity maxLength := by
    rw [hnewline, dumpCapacity]
    omega
  have hputs : puts (dumpCapacity maxLength) [] (keepAliveMessage uptime) =
      keepAliveMessage uptime := by
    rw [puts, List.nil_append, List.take_of_length_le (by omega)]
  have hentries : ∀ e ∈ states.map (stateEntry floatJson writer),
      e.Fits (dumpCapacity maxLength) (bytesOf "\n").length := by
    intro e he
    obtain ⟨reg, hreg, rfl⟩ := List.mem_map.mp he
    rw [hnewline]
    exact (h reg hreg).entry
  rw [initialDump, hputs, dumpStates_eq]
  have htexts : states.flatMap (stateText floatJson writer) =
      (states.map (stateEntry floatJson writer)).flatMap Entry.text := by
    rw [List.flatMap_map]
    exact congrArg states.flatMap (funext fun reg => (stateEntry_text reg).symm)
  rw [htexts]
  exact ⟨flatten_dump (fun _ _ => rfl) (fun b hb => put_of_le hb) hentries hroom,
    dump_isComplete hentries hroom⟩

theorem regEntry_text (reg : ReportRegistration) :
    (regEntry floatJson writer terminator reg).text =
      bytesOf (reg.text floatJson writer) := by
  have hsuffix : bytesOf "" = [] := by rw [bytesOf_eq]; rfl
  simp [regEntry, regPrefix, regInfix, regSuffix, hsuffix, ReportRegistration.text, serializeJson,
    bytesOf_append]

theorem flatMap_regEntry_text (regs : List ReportRegistration) :
    (regs.map (regEntry floatJson writer terminator)).flatMap Entry.text =
      regs.flatMap fun reg => bytesOf (reg.text floatJson writer) := by
  rw [List.flatMap_map]
  exact congrArg regs.flatMap (funext regEntry_text)

section

variable {regs : List ReportRegistration}

theorem entries_fit (h : ∀ reg ∈ regs, reg.Fits floatJson writer capacity terminator) :
    ∀ e ∈ regs.map (regEntry floatJson writer terminator),
      e.Fits capacity terminator.length := by
  intro e he
  obtain ⟨reg, hreg, rfl⟩ := List.mem_map.mp he
  exact (h reg hreg).entry

/-- Without a terminator, every registration is written once, whole and in its order. -/
theorem printRegs_none (h : ∀ reg ∈ regs, reg.Fits floatJson writer capacity []) :
    (printRegsToDebugReport floatJson writer capacity regs none).1.flatten =
        regs.flatMap (fun reg => bytesOf (reg.text floatJson writer)) ∧
      (printRegsToDebugReport floatJson writer capacity regs none).2 = true := by
  rw [printRegsToDebugReport, Option.elim_none, printRegsFrom_eq, ← flatMap_regEntry_text]
  have hroom : ([] : List UInt8).length + ([] : List UInt8).length ≤ capacity := Nat.zero_le _
  have hputs : ∀ b : List UInt8, b.length + ([] : List UInt8).length ≤ capacity →
      puts capacity b [] = b := fun b hb => (put_of_le hb).trans (List.append_nil b)
  refine ⟨?_, dump_isComplete (entries_fit h) hroom⟩
  exact (flatten_dump hputs (fun b hb => put_of_le hb) (entries_fit h) hroom).trans
    (List.append_nil _)

theorem printRegs_some (h : ∀ reg ∈ regs, reg.Fits floatJson writer capacity (bytesOf "\x7d"))
    (hcapacity : 0 < capacity) :
    ((printRegsToDebugReport floatJson writer capacity regs (some "\x7d")).1.flatten =
        regs.flatMap (fun reg => bytesOf (reg.text floatJson writer)) ++ bytesOf "\x7d" ↔
      FitsOneChunk capacity
        (regs.map (regEntry floatJson writer (bytesOf "\x7d"))) 0) ∧
      (printRegsToDebugReport floatJson writer capacity regs (some "\x7d")).2 = true := by
  have hlength : (bytesOf "\x7d").length = 1 := by rw [length_bytesOf]; rfl
  have hne : bytesOf "\x7d" ≠ [] := by
    rintro hnil
    rw [hnil] at hlength
    cases hlength
  have hroom : ([] : List UInt8).length + (bytesOf "\x7d").length ≤ capacity := by
    rw [hlength]
    exact hcapacity
  rw [printRegsToDebugReport, Option.elim_some, printRegsFrom_eq, ← flatMap_regEntry_text]
  exact ⟨flatten_dump_iff (fun b hb => put_of_le hb) hne (entries_fit h) hroom,
    dump_isComplete (entries_fit h) hroom⟩

end

variable {members : List (List Char × Value)} {head : String}

theorem writesTokens_punctuated (key : List Char) (hkey : ∀ c ∈ key, IsPlain c) :
    WritesTokens [.punct ',', .string key, .punct ':']
      (",\n \"".toList ++ key ++ "\": ".toList) := by
  have hbefore : ∀ c ∈ ['\n', ' '], IsSpace c := by simp [IsSpace]
  have hbehind : ∀ c ∈ [' '], IsSpace c := by simp [IsSpace]
  have hstring := (WritesTokens.single (.string (.plain hkey))).space hbefore
  have hcolon := (WritesTokens.single (.punct ':')).append (.nil hbehind)
  have hall := ((WritesTokens.single (.punct ',')).append hstring).append hcolon
  simpa using hall

/-- Another registration is another member. -/
theorem OpensObject.register (h : OpensObject members head) (reg : ReportRegistration) :
    OpensObject (members ++ [reg.member floatJson writer])
      (head ++ reg.text floatJson writer) := by
  obtain ⟨key, value, rest, rfl, hwrites⟩ := h
  refine ⟨key, value, rest ++ [reg.member floatJson writer], rfl, ?_⟩
  have hmember := (writesTokens_punctuated reg.path.toList reg.plain).append
    ((reg.document floatJson).writes_serialize writer)
  rw [moreMembers_append]
  have hall := hwrites.append hmember
  simpa [ReportRegistration.text, ReportRegistration.member, moreMembers] using hall

theorem OpensObject.registerAll (h : OpensObject members head) (regs : List ReportRegistration) :
    ∃ text, bytesOf text = bytesOf head ++
        regs.flatMap (fun reg => bytesOf (reg.text floatJson writer)) ∧
      OpensObject (members ++ regs.map (ReportRegistration.member floatJson writer)) text := by
  induction regs generalizing members head with
  | nil => exact ⟨head, by simp, by simpa using h⟩
  | cons reg regs ih =>
    obtain ⟨text, htext, hopens⟩ := ih (h.register reg)
    refine ⟨text, ?_, ?_⟩
    · rw [htext, bytesOf_append, List.flatMap_cons, List.append_assoc]
    · simpa using hopens

theorem OpensObject.close (h : OpensObject members head) :
    Writes (.object members) (head ++ "\x7d").toList := by
  obtain ⟨key, value, rest, rfl, hwrites⟩ := h
  have hall := hwrites.append (.single (.punct '\x7d'))
  simpa [Writes, Value.tokens] using hall

/-- The object is valid as soon as the registrations and the brace are there. -/
theorem isComplete_iff {regs : List ReportRegistration} {chunks : List (List UInt8)} :
    IsComplete floatJson writer regs chunks ↔ chunks.flatten =
      regs.flatMap (fun reg => bytesOf (reg.text floatJson writer)) ++ bytesOf "\x7d" := by
  refine ⟨IsComplete.whole, fun h => ⟨h, fun members head hopens => ?_⟩⟩
  obtain ⟨text, htext, hall⟩ := hopens.registerAll regs
  refine ⟨text ++ "\x7d", ?_, hall.close⟩
  rw [h, bytesOf_append, htext, List.append_assoc]

/-- Every registration is written once if and only if the responses fit into one chunk. -/
theorem registerSection_complete_iff {states commands responses : List ReportRegistration}
    (hstates : ∀ reg ∈ states ++ commands, reg.Fits floatJson writer capacity [])
    (hresponses : ∀ reg ∈ responses, reg.Fits floatJson writer capacity (bytesOf "\x7d"))
    (hcapacity : 0 < capacity) :
    (IsComplete floatJson writer (states ++ commands ++ responses)
        (registerSection floatJson writer capacity states commands responses).1 ↔
      FitsOneChunk capacity
        (responses.map (regEntry floatJson writer (bytesOf "\x7d"))) 0) ∧
      (registerSection floatJson writer capacity states commands responses).2 = true := by
  obtain ⟨hflat, hgoesOn⟩ := printRegs_none fun reg hreg =>
    hstates reg (List.mem_append_left _ hreg)
  obtain ⟨hflat', hgoesOn'⟩ := printRegs_none fun reg hreg =>
    hstates reg (List.mem_append_right _ hreg)
  obtain ⟨hiff, hgoesOn''⟩ := printRegs_some hresponses hcapacity
  have hsection : registerSection floatJson writer capacity states commands responses =
      ((printRegsToDebugReport floatJson writer capacity states none).1 ++
        (printRegsToDebugReport floatJson writer capacity commands none).1 ++
        (printRegsToDebugReport floatJson writer capacity responses (some "\x7d")).1, true) := by
    simp [registerSection, hgoesOn, hgoesOn', hgoesOn'']
  refine ⟨?_, by rw [hsection]⟩
  rw [isComplete_iff, hsection, ← hiff]
  simp only [List.flatten_append, hflat, hflat', List.flatMap_append, List.append_assoc,
    List.append_cancel_left_eq]

/-- A new client gets every state once, whole and in its order, and a newline. The debug report
is an object with every registration exactly if the responses fit into one chunk. -/
theorem dumps_complete_iff (maxLength historySize : Nat) (uptime : UInt64)
    {regs : List RegisteredState} {states commands responses : List ReportRegistration}
    (hregs : ∀ reg ∈ regs, reg.Fits floatJson writer (dumpCapacity maxLength))
    (hstates : ∀ reg ∈ states ++ commands,
      reg.Fits floatJson writer (debugReportCapacity maxLength historySize) [])
    (hresponses : ∀ reg ∈ responses,
      reg.Fits floatJson writer (debugReportCapacity maxLength historySize) (bytesOf "\x7d")) :
    ((initialDump floatJson (serializeJson writer) (dumpCapacity maxLength)
          (keepAliveMessage uptime) regs).1.flatten =
        keepAliveMessage uptime ++ regs.flatMap (stateText floatJson writer) ++ bytesOf "\n" ∧
      (initialDump floatJson (serializeJson writer) (dumpCapacity maxLength)
          (keepAliveMessage uptime) regs).2 = true) ∧
    (IsComplete floatJson writer (states ++ commands ++ responses)
        (registerSection floatJson writer (debugReportCapacity maxLength historySize)
          states commands responses).1 ↔
      FitsOneChunk (debugReportCapacity maxLength historySize)
        (responses.map (regEntry floatJson writer (bytesOf "\x7d"))) 0) := by
  refine ⟨initialDump_complete uptime hregs, ?_⟩
  have hcapacity : 0 < debugReportCapacity maxLength historySize := by
    rw [debugReportCapacity]
    omega
  exact (registerSection_complete_iff hstates hresponses hcapacity).1

end

/-- A registration with a text of some letters. -/
def letterResponse (path : String) (hpath : ∀ c ∈ path.toList, IsPlain c) (letters : Nat) :
    ReportRegistration where
  path := path
  config := .string (.ofList (.replicate letters 'a')) 0 0
  keysToCensorInDebugReport := []
  plain := hpath

variable {path : String} {hpath : ∀ c ∈ path.toList, IsPlain c} {letters : Nat}
  {floatJson : UInt32 → Json}

theorem byteSize_letters (n : Nat) :
    byteSize (.replicate n 'a') = n ∧ byteSize ((List.replicate n 'a').flatMap arduinoJson.writeChar) = n := by
  induction n with
  | zero => exact ⟨rfl, rfl⟩
  | succ n ih =>
    have hletter : arduinoJson.writeChar 'a' = ['a'] := by decide
    have hsize : 'a'.utf8Size = 1 := by decide
    rw [List.replicate_succ, List.flatMap_cons, byteSize_append, byteSize_cons, ih.1, ih.2,
      hletter, byteSize_cons, byteSize_nil, hsize]
    omega

theorem byteSize_letterResponse :
    byteSize (((letterResponse path hpath letters).document floatJson).serialize arduinoJson) =
      letters + 2 := by
  have hletters : ∀ c ∈ List.replicate letters 'a', decide (c ≠ '\x00') = true := by
    intro c hc
    rw [List.eq_of_mem_replicate hc]
    rfl
  have hcString :
      cString (.ofList (.replicate letters 'a')) = .ofList (.replicate letters 'a') := by
    rw [cString, String.toList_ofList, List.takeWhile_eq_self_iff.mpr hletters]
  have hquote : '"'.utf8Size = 1 := by decide
  rw [ReportRegistration.document, letterResponse, Config.toJson, hcString, Json.serialize,
    String.toList_ofList, JsonWriter.writeString, byteSize_append, byteSize_cons, (byteSize_letters letters).2,
    byteSize_cons, byteSize_nil, hquote]
  omega

theorem configLen_letterResponse : (letterResponse path hpath letters).configLen = letters + 2 := by
  rw [ReportRegistration.configLen, letterResponse, stringLength, utf8ByteSize_ofList,
    (byteSize_letters letters).1]

variable (terminator : List UInt8)

theorem required_letterResponse :
    regRequired terminator (letterResponse path hpath letters) =
      path.utf8ByteSize + letters + 9 + terminator.length := by
  have hprefix : regPrefix.length = 4 := (length_bytesOf _).trans rfl
  have hinfix : regInfix.length = 3 := (length_bytesOf _).trans rfl
  have hsuffix : regSuffix.length = 0 := (length_bytesOf _).trans rfl
  have hpath' : (letterResponse path hpath letters).path = path := rfl
  rw [regRequired, configLen_letterResponse, hprefix, hinfix, hsuffix, hpath']
  omega

theorem required_entry_letterResponse :
    (regEntry floatJson arduinoJson terminator (letterResponse path hpath letters)).required =
      path.utf8ByteSize + letters + 9 + terminator.length :=
  required_letterResponse terminator

theorem length_entry_letterResponse :
    (regEntry floatJson arduinoJson terminator (letterResponse path hpath letters)).text.length =
      path.utf8ByteSize + letters + 9 := by
  have hpath' : (letterResponse path hpath letters).path = path := rfl
  rw [regEntry_text, ReportRegistration.text, length_bytesOf, String.utf8ByteSize_append,
    String.utf8ByteSize_append, String.utf8ByteSize_append, hpath',
    utf8ByteSize_ofList (Json.serialize _ _), byteSize_letterResponse]
  have hprefix : ",\n \"".utf8ByteSize = 4 := rfl
  have hinfix : "\": ".utf8ByteSize = 3 := rfl
  omega

theorem letterResponse_fits {capacity : Nat} {terminator : List UInt8}
    (h : path.utf8ByteSize + letters + 9 + terminator.length ≤ capacity) :
    (letterResponse path hpath letters).Fits floatJson arduinoJson capacity terminator where
  estimate := by
    rw [serializeJson, length_bytesOf, utf8ByteSize_ofList, byteSize_letterResponse,
      configLen_letterResponse]
  buffer := by rwa [required_letterResponse]

theorem plain_a : ∀ c ∈ "a".toList, IsPlain c := by simp [IsPlain]

theorem plain_b : ∀ c ∈ "b".toList, IsPlain c := by simp [IsPlain]

theorem plain_c : ∀ c ∈ "c".toList, IsPlain c := by simp [IsPlain]

theorem plain_d : ∀ c ∈ "d".toList, IsPlain c := by simp [IsPlain]

/-- Behind a state, a command and two long responses, the object is closed twice. -/
theorem long_responses_close_twice :
    ¬ ∀ (floatJson : UInt32 → Json) (writer : JsonWriter)
      (maxLength historySize : Nat) (states commands responses : List ReportRegistration),
      (∀ reg ∈ states ++ commands,
        reg.Fits floatJson writer (debugReportCapacity maxLength historySize) []) →
      (∀ reg ∈ responses, reg.Fits floatJson writer (debugReportCapacity maxLength historySize)
        (bytesOf "\x7d")) →
      IsComplete floatJson writer (states ++ commands ++ responses)
        (registerSection floatJson writer (debugReportCapacity maxLength historySize)
          states commands responses).1 := by
  intro h
  have hcapacity : debugReportCapacity 4352 0 = 5375 := rfl
  have hbrace : (bytesOf "\x7d").length = 1 := (length_bytesOf _).trans rfl
  have hsize : "a".utf8ByteSize = 1 ∧ "b".utf8ByteSize = 1 ∧ "c".utf8ByteSize = 1 ∧
      "d".utf8ByteSize = 1 := ⟨rfl, rfl, rfl, rfl⟩
  have hstates : ∀ reg ∈ [letterResponse "a" plain_a 3] ++ [letterResponse "b" plain_b 0],
      reg.Fits (fun _ => .null) arduinoJson (debugReportCapacity 4352 0) [] := by
    rw [List.singleton_append, List.forall_mem_cons, List.forall_mem_singleton]
    exact ⟨letterResponse_fits (by simp; omega), letterResponse_fits (by simp; omega)⟩
  have hfits : ∀ reg ∈ [letterResponse "c" plain_c 3000, letterResponse "d" plain_d 3000],
      reg.Fits (fun _ => .null) arduinoJson (debugReportCapacity 4352 0) (bytesOf "\x7d") := by
    rw [List.forall_mem_cons, List.forall_mem_singleton]
    exact ⟨letterResponse_fits (by omega), letterResponse_fits (by omega)⟩
  have hcomplete := h (fun _ => .null) arduinoJson 4352 0 _ _ _ hstates hfits
  rw [(registerSection_complete_iff hstates hfits (by decide)).1, List.map_cons, FitsOneChunk,
    length_entry_letterResponse, List.map_cons, FitsOneChunk] at hcomplete
  have hroom := hcomplete.2.1
  rw [required_entry_letterResponse] at hroom
  omega

/-- Three registrations that fit into one chunk. -/
theorem short_responses_complete :
    IsComplete (fun _ => .null) arduinoJson
      ([letterResponse "a" plain_a 3] ++ [letterResponse "b" plain_b 0] ++
        [letterResponse "c" plain_c 20])
      (registerSection (fun _ => .null) arduinoJson (debugReportCapacity 4352 0)
        [letterResponse "a" plain_a 3] [letterResponse "b" plain_b 0]
        [letterResponse "c" plain_c 20]).1 := by
  have hbrace : (bytesOf "\x7d").length = 1 := (length_bytesOf _).trans rfl
  have hcapacity : debugReportCapacity 4352 0 = 5375 := rfl
  have hsize : "a".utf8ByteSize = 1 ∧ "b".utf8ByteSize = 1 ∧ "c".utf8ByteSize = 1 :=
    ⟨rfl, rfl, rfl⟩
  have hstate : (⟨"info/a", .bool true, []⟩ : RegisteredState).Fits (fun _ => .null)
      arduinoJson (dumpCapacity 4352) := by
    refine ⟨?_, ?_⟩
    · rw [serializeJson, length_bytesOf, utf8ByteSize_ofList]
      decide
    · have hlengths : dumpPrefix.length = 10 ∧ dumpInfix.length = 12 ∧ dumpSuffix.length = 2 :=
        ⟨(length_bytesOf _).trans rfl, (length_bytesOf _).trans rfl, (length_bytesOf _).trans rfl⟩
      rw [requiredLength, hlengths.1, hlengths.2.1, hlengths.2.2]
      decide
  refine (dumps_complete_iff 4352 0 1000 (List.forall_mem_singleton.mpr hstate) ?_ ?_).2.mpr ?_
  · rw [List.singleton_append, List.forall_mem_cons, List.forall_mem_singleton]
    exact ⟨letterResponse_fits (by simp; omega), letterResponse_fits (by simp; omega)⟩
  · rw [List.forall_mem_singleton]
    exact letterResponse_fits (by omega)
  · rw [List.map_cons, FitsOneChunk, required_entry_letterResponse]
    exact ⟨by omega, trivial⟩

end Esp32Firmware.Api
