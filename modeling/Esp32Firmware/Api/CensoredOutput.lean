import Esp32Firmware.Config.Censoring

/-!
# States as HTTP and WebSocket clients see them

A GET request reads a state or, with a suffix, a node below it. A new WebSocket client is sent
all states, in messages of limited size. Both write the values under the censored keys of the
state as null. The dump never shows such a value. A GET request shows it if the suffix leads to
it: whether a member is censored is decided by its object, which the suffix passes by.

## Implementation notes

The text of a JSON document is a parameter. A dump reads all states at once: between two of its
messages the source lets other tasks run.
-/

namespace Esp32Firmware.Api

open Esp32Firmware.Configuration

structure RegisteredState where
  path : String
  config : Config
  keysToCensor : List String

/-- How many keys a path can have. -/
def maxNesting : Nat := 8

/-- A path element that is a number is an index. Larger numbers become the largest one. -/
def suffixKey (element : List Char) : Key :=
  if element.all Char.isDigit then
    .index (min (element.foldl (fun n c => 10 * n + (c.toNat - '0'.toNat)) 0) (2 ^ 32 - 1))
  else .name (.ofList element)

def addSuffixKey (path : List Key) (element : List Char) : Except String (List Key) :=
  if element = [] then .error "path may not contain // or end on a /"
  else if path.length < maxNesting then .ok (path ++ [suffixKey element])
  else .error "path too long"

/-- The path that a suffix, which begins with a slash, stands for. -/
def buildSuffixPath (suffix : List Char) : Except String (List Key) :=
  if suffix.length ≤ 1 then .ok []
  else ((suffix.drop 1).splitOn '/').foldlM addSuffixKey []

inductive HttpBody where
  | plain (text : String)
  | json (document : Json)

structure HttpResponse where
  status : Nat
  body : HttpBody

section

variable (floatJson : UInt32 → Json)

/-- `Http::api_handler_get` for a state. -/
def apiHandlerGet (reg : RegisteredState) (suffix : List Char) : HttpResponse :=
  match buildSuffixPath suffix with
  | .error error => ⟨404, .plain error⟩
  | .ok path =>
    match reg.config.walk path with
    | none => ⟨404, .plain "Path not found"⟩
    | some config => ⟨200, .json (config.toJson floatJson reg.keysToCensor)⟩

end

section

def leadingZerosToCharCount : List Nat :=
  [10, 10, 10, 9, 9, 9, 8, 8, 8, 7, 7, 7, 7, 6, 6, 6, 5, 5, 5, 4, 4, 4, 4, 3, 3, 3, 2, 2, 2, 1, 1,
    1, 1]

def leadingZerosToCharCount64 : List Nat :=
  [20, 19, 19, 19, 19, 18, 18, 18, 17, 17, 17, 16, 16, 16, 16, 15, 15, 15, 14, 14, 14, 13, 13, 13,
    13, 12, 12, 12, 11, 11, 11, 10]

/-- The leading zeros of a number of 32 bits. -/
def countLeadingZeros (v : Nat) : Nat :=
  if v = 0 then 32 else 31 - v.log2

def estimateCharsPerUint (v : Nat) : Nat :=
  leadingZerosToCharCount.getD (countLeadingZeros v) 0

def estimateCharsPerUint64 (v : Nat) : Nat :=
  if v / 2 ^ 32 = 0 then estimateCharsPerUint v
  else leadingZerosToCharCount64.getD (countLeadingZeros (v / 2 ^ 32)) 0

/-- The absolute value, one less for negative numbers. -/
def approximateAbs (v : Int) : Nat :=
  if v < 0 then (-v - 1).toNat else v.toNat

def signLength (v : Int) : Nat :=
  if v < 0 then 1 else 0

def estimateCharsPerInt (v : Int) : Nat :=
  estimateCharsPerUint (approximateAbs v) + signLength v

def estimateCharsPerInt64 (v : Int) : Nat :=
  estimateCharsPerUint64 (approximateAbs v) + signLength v

def handleCensoredLen (keysToCensor : List String) (key : String) (child : Config) (valLen : Nat) :
    Nat :=
  if child.isCensored keysToCensor key then 4 else valLen

variable (keysToCensor : List String)

mutual

/-- An estimate of the length of a document. -/
def stringLength : Config → Nat
  | .string val _ _ => val.utf8ByteSize + 2
  | .float _ => 16
  | .int val _ _ => estimateCharsPerInt val.toInt
  | .uint val _ _ => estimateCharsPerUint val.toNat
  | .int52 val => estimateCharsPerInt64 val.toInt
  | .uint53 val => estimateCharsPerUint64 val.toNat
  | .uint32 val => estimateCharsPerUint val.toNat
  | .int32 val => estimateCharsPerInt val.toInt
  | .uint16 val => estimateCharsPerUint val.toNat
  | .int16 val => estimateCharsPerInt val.toInt
  | .uint8 val _ => estimateCharsPerUint val.toNat
  | .int8 val => estimateCharsPerInt val.toInt
  | .bool val => if val then 4 else 5
  | .empty => 4
  | .array val _ _ _ => 2 + stringLengthElements val + val.length
  | .object members => 1 + stringLengthMembers members + members.length
  | .union tag val _ => stringLength val + estimateCharsPerUint tag.toNat + 3
  | .tuple values => values.length + 1 + stringLengthElements values

def stringLengthElements : List Config → Nat
  | [] => 0
  | value :: rest => stringLength value + stringLengthElements rest

def stringLengthMembers : List (String × Config) → Nat
  | [] => 0
  | (key, child) :: rest =>
    key.utf8ByteSize + 3 + handleCensoredLen keysToCensor key child (stringLength child) +
      stringLengthMembers rest

end

end

section

variable (floatJson : UInt32 → Json) (serializeJson : Json → List UInt8) (capacity : Nat)

/-- The bytes of a literal or a path. -/
def bytesOf (text : String) : List UInt8 := text.toUTF8.toList

/-- A string writer cuts off what does not fit into its buffer. -/
def puts (buffer text : List UInt8) : List UInt8 := (buffer ++ text).take capacity

def dumpPrefix : List UInt8 := bytesOf "\x7b\"topic\":\""

def dumpInfix : List UInt8 := bytesOf "\",\"payload\":"

def dumpSuffix : List UInt8 := bytesOf "\x7d\n"

/-- The space that is asked for before a state is written. -/
def requiredLength (reg : RegisteredState) : Nat :=
  dumpPrefix.length + reg.path.utf8ByteSize + dumpInfix.length +
    stringLength reg.keysToCensor reg.config + dumpSuffix.length + 1

def putState (buffer : List UInt8) (reg : RegisteredState) : List UInt8 :=
  [dumpPrefix, bytesOf reg.path, dumpInfix,
    serializeJson (reg.config.toJson floatJson reg.keysToCensor), dumpSuffix].foldl
      (puts capacity) buffer

/-- The messages with the remaining states, and whether the connection stays open. What does not
fit into a message is tried again with an empty buffer. -/
def dumpStates : List RegisteredState → List UInt8 → List (List UInt8) × Bool
  | [], buffer => ([puts capacity buffer (bytesOf "\n")], true)
  | reg :: rest, buffer =>
    if capacity - buffer.length < requiredLength reg then
      if buffer = [] then ([], false)
      else if capacity < requiredLength reg then ([buffer], false)
      else
        let (messages, isOpen) :=
          dumpStates rest (putState floatJson serializeJson capacity [] reg)
        (buffer :: messages, isOpen)
    else dumpStates rest (putState floatJson serializeJson capacity buffer reg)

/-- What a new client is sent: a message to keep the connection alive, then all states. -/
def initialDump (keepAlive : List UInt8) (states : List RegisteredState) :
    List (List UInt8) × Bool :=
  dumpStates floatJson serializeJson capacity states (puts capacity [] keepAlive)

end

open Esp32Firmware.Configuration.Config

variable {floatJson : UInt32 → Json} {serializeJson : Json → List UInt8} {capacity : Nat}
  {keysToCensor : List String}

mutual

/-- The estimated length does not depend on what the mask takes out. -/
theorem stringLength_mask : (c : Config) →
    stringLength keysToCensor (c.mask keysToCensor) = stringLength keysToCensor c
  | .array val _ _ _ => by
    rw [mask, stringLength, stringLength, stringLengthElements_mask val, maskElements_eq_map,
      List.length_map]
  | .object members => by
    rw [mask, stringLength, stringLength, stringLengthMembers_mask members, length_maskMembers]
  | .union tag val _ => by
    rw [mask, stringLength, stringLength, stringLength_mask val]
  | .tuple values => by
    rw [mask, stringLength, stringLength, stringLengthElements_mask values,
      maskElements_eq_map, List.length_map]
  | .empty | .string .. | .float _ | .int .. | .uint .. | .int52 _ | .uint53 _ | .uint32 _
  | .int32 _ | .uint16 _ | .int16 _ | .uint8 .. | .int8 _ | .bool _ => rfl

theorem stringLengthElements_mask : (values : List Config) →
    stringLengthElements keysToCensor (maskElements keysToCensor values) =
      stringLengthElements keysToCensor values
  | [] => rfl
  | value :: rest => by
    rw [maskElements, stringLengthElements, stringLengthElements, stringLength_mask value,
      stringLengthElements_mask rest]

theorem stringLengthMembers_mask : (members : List (String × Config)) →
    stringLengthMembers keysToCensor (maskMembers keysToCensor members) =
      stringLengthMembers keysToCensor members
  | [] => rfl
  | (key, child) :: rest => by
    have hmember : handleCensoredLen keysToCensor key (maskMember keysToCensor key child)
        (stringLength keysToCensor (maskMember keysToCensor key child)) =
          handleCensoredLen keysToCensor key child (stringLength keysToCensor child) := by
      rw [handleCensoredLen, handleCensoredLen, isCensored_maskMember]
      split
      · rfl
      · rename_i hvisible
        rw [maskMember, if_neg hvisible, stringLength_mask child]
    rw [maskMembers, stringLengthMembers, stringLengthMembers, stringLengthMembers_mask rest,
      ← hmember]
    rfl

end

/-- The same registration with a configuration that differs in values under censored keys. -/
structure SameUncensored (reg reg' : RegisteredState) : Prop where
  path : reg'.path = reg.path
  keysToCensor : reg'.keysToCensor = reg.keysToCensor
  mask : reg'.config.mask reg.keysToCensor = reg.config.mask reg.keysToCensor

theorem SameUncensored.refl (reg : RegisteredState) : SameUncensored reg reg :=
  ⟨rfl, rfl, rfl⟩

section

variable {reg reg' : RegisteredState} (h : SameUncensored reg reg')
include h

theorem SameUncensored.toJson :
    reg'.config.toJson floatJson reg'.keysToCensor =
      reg.config.toJson floatJson reg.keysToCensor := by
  rw [h.keysToCensor, ← toJson_mask reg'.config, h.mask, toJson_mask]

theorem SameUncensored.requiredLength : requiredLength reg' = requiredLength reg := by
  rw [Api.requiredLength, Api.requiredLength, h.path, h.keysToCensor,
    ← stringLength_mask reg'.config, h.mask, stringLength_mask]

theorem SameUncensored.putState (buffer : List UInt8) :
    putState floatJson serializeJson capacity buffer reg' =
      putState floatJson serializeJson capacity buffer reg := by
  rw [Api.putState, Api.putState, h.path, h.toJson]

end

/-- Every message of the dump is the same, and so is where it is cut. -/
theorem dumpStates_congr {states states' : List RegisteredState}
    (h : List.Forall₂ SameUncensored states states') (buffer : List UInt8) :
    dumpStates floatJson serializeJson capacity states' buffer =
      dumpStates floatJson serializeJson capacity states buffer := by
  induction h generalizing buffer with
  | nil => rfl
  | cons hreg hrest ih =>
    rw [dumpStates, dumpStates, hreg.requiredLength, hreg.putState, hreg.putState, ih, ih]

/-- What a suffix leads to below a censored value could be seen to be another one. -/
def Exposed (floatJson : UInt32 → Json) (keysToCensor : List String) (c : Config)
    (path : List Key) : Prop :=
  ∃ (member : Config) (rest : List Key) (member' : Config),
    c.censoredAt keysToCensor path = some (member, rest) ∧
    member'.Conforms member.schema ∧ member'.isEmptyString = false ∧
    (member'.walk rest).map (toJson floatJson keysToCensor) ≠
      (member.walk rest).map (toJson floatJson keysToCensor)

/-- What a key leads to in a document. -/
def jsonAt : Json → Key → Option Json
  | .object members, .name key => members.lookup key
  | .array elements, .index i => elements[i]?
  | _, _ => none

def walkJson : Json → List Key → Option Json
  | document, [] => some document
  | document, key :: path =>
    match jsonAt document key with
    | some child => walkJson child path
    | none => none

/-- The document shows of every value under a censored key whether it is an empty string. -/
def ShowsEmptyStrings (floatJson : UInt32 → Json) (keysToCensor : List String) (c : Config) :
    Prop :=
  ∀ path key members child, c.censoredAt keysToCensor path = none →
    c.walk path = some (.object members) → members.lookup key = some child →
    keysToCensor.contains key = true →
    (walkJson (c.toJson floatJson keysToCensor) (path ++ [.name key]) = some (.string "") ↔
      child.isEmptyString = true)

theorem lookup_toJsonMembers (members : List (String × Config)) (key : String) :
    (toJsonMembers floatJson keysToCensor members).lookup key =
      (members.lookup key).map fun child =>
        if child.isCensored keysToCensor key then .null
        else child.toJson floatJson keysToCensor := by
  induction members with
  | nil => rfl
  | cons m rest ih =>
    obtain ⟨name, child⟩ := m
    rw [toJsonMembers, List.lookup_cons, List.lookup_cons]
    by_cases hkey : key = name
    · subst hkey
      simp
    · simp [beq_false_of_ne hkey, ih]

theorem toJsonElements_eq_map (values : List Config) :
    toJsonElements floatJson keysToCensor values = values.map (toJson floatJson keysToCensor) := by
  induction values with
  | nil => rfl
  | cons value rest ih => rw [toJsonElements, ih, List.map_cons]

theorem jsonAt_toJson {c child : Config} {key : Key} (hchild : c.getOrNull key = some child)
    (hvisible : Visible keysToCensor child key) :
    jsonAt (c.toJson floatJson keysToCensor) key = some (child.toJson floatJson keysToCensor) := by
  cases c with
  | array | tuple values =>
    cases key with
    | name key => cases hchild
    | index i =>
      rw [toJson, jsonAt, toJsonElements_eq_map, List.getElem?_map]
      exact congrArg (Option.map _) hchild
  | object members =>
    cases key with
    | name key =>
      change members.lookup key = some child at hchild
      rw [toJson, jsonAt, lookup_toJsonMembers, hchild, Option.map_some,
        if_neg (Bool.eq_false_iff.mp hvisible)]
    | index i => cases hchild
  | union tag val prototypes =>
    match key, hchild with
    | .index 0, hchild =>
      cases hchild
      rfl
    | .index 1, hchild =>
      cases hchild
      rfl
  | _ =>
    rw [getOrNull_leaf rfl] at hchild
    cases hchild

/-- Outside of censored values the document has the shape of the configuration. -/
theorem walkJson_toJson {c node : Config} {path rest : List Key}
    (hcensored : c.censoredAt keysToCensor path = none) (hnode : c.walk path = some node) :
    walkJson (c.toJson floatJson keysToCensor) (path ++ rest) =
      walkJson (node.toJson floatJson keysToCensor) rest := by
  induction path generalizing c with
  | nil =>
    cases hnode
    rfl
  | cons key path ih =>
    obtain ⟨child, hchild, hwalk⟩ := walk_cons hnode
    obtain ⟨hvisible, hrest⟩ := (censoredAt_cons_eq_none hchild).mp hcensored
    rw [List.cons_append, walkJson, jsonAt_toJson hchild hvisible]
    exact ih hrest hwalk

theorem showsEmptyStrings (c : Config) : ShowsEmptyStrings floatJson keysToCensor c := by
  intro path key members child hcensored hwalk hchild hkey
  rw [walkJson_toJson hcensored hwalk, toJson, walkJson, jsonAt, lookup_toJsonMembers, hchild,
    Option.map_some]
  cases hempty : child.isEmptyString with
  | true =>
    have hvisible : child.isCensored keysToCensor key = false := by
      rw [isCensored, hempty, Bool.not_true, Bool.and_false]
    have hstring : child.toJson floatJson keysToCensor = .string "" := by
      cases child with
      | string val =>
        obtain rfl := eq_of_beq hempty
        rfl
      | _ => cases hempty
    rw [hvisible, hstring]
    exact iff_of_true rfl rfl
  | false =>
    have hset : child.isCensored keysToCensor key = true := by
      rw [isCensored, hempty, hkey, Bool.not_false, Bool.and_self]
    rw [hset]
    apply iff_of_false
    · intro hnull
      cases hnull
    · exact Bool.false_ne_true

/-- A GET request shows the same for all values under censored keys exactly if its path does not
expose one of them. -/
theorem apiHandlerGet_censored_iff {reg : RegisteredState} {σ : Schema}
    (hc : reg.config.Conforms σ) {suffix : List Char} :
    (∀ config : Config, config.Conforms σ →
      config.mask reg.keysToCensor = reg.config.mask reg.keysToCensor →
      apiHandlerGet floatJson { reg with config } suffix = apiHandlerGet floatJson reg suffix) ↔
    ∀ path, buildSuffixPath suffix = .ok path →
      ¬Exposed floatJson reg.keysToCensor reg.config path := by
  -- the response shows the document of the addressed node and nothing else
  have hresponse {config : Config} {path : List Key} (hpath : buildSuffixPath suffix = .ok path) :
      apiHandlerGet floatJson { reg with config } suffix = apiHandlerGet floatJson reg suffix ↔
        (config.walk path).map (toJson floatJson reg.keysToCensor) =
          (reg.config.walk path).map (toJson floatJson reg.keysToCensor) := by
    rw [apiHandlerGet, apiHandlerGet, hpath]
    dsimp only
    cases config.walk path <;> cases reg.config.walk path <;> simp
  constructor
  · rintro hsame path hpath ⟨member, rest, member', hcensored, hconforms, hset, hdiffers⟩
    obtain ⟨config, hshape, hlimits, hmask, hwalk⟩ :=
      exists_replaced hc.wellFormed hc.inLimits hcensored
        ⟨hconforms.wellFormed, hconforms.schema⟩ hconforms.inLimits hset
    apply hdiffers
    rw [← hwalk, ← walk_of_censoredAt hcensored, ← hresponse hpath]
    exact hsame config ⟨hshape.schema.trans hc.schema, hshape.wellFormed, hlimits⟩ hmask
  · intro hexposed config hconforms hmask
    cases hpath : buildSuffixPath suffix with
    | error error => rw [apiHandlerGet, apiHandlerGet, hpath]
    | ok path =>
      rw [hresponse hpath]
      cases hcensored : reg.config.censoredAt reg.keysToCensor path with
      | none => exact walk_toJson_eq hmask hcensored
      | some found =>
        obtain ⟨member, rest⟩ := found
        obtain ⟨member', hcensored', hconforms', hset⟩ :=
          censoredAt_congr hc hconforms hmask hcensored
        rw [walk_of_censoredAt hcensored, walk_of_censoredAt hcensored']
        by_contra hdiffers
        exact hexposed path hpath ⟨member, rest, member', hcensored, hconforms', hset, hdiffers⟩

/-- The path leads to a value set under a censored key, or below one that has members or
elements. -/
def LeadsToCensored (keysToCensor : List String) (c : Config) (path : List Key) : Prop :=
  ∃ member rest, c.censoredAt keysToCensor path = some (member, rest) ∧
    (rest = [] ∨ member.isLeaf = false)

theorem isLeaf_of_schema {c c' : Config} (h : c'.schema = c.schema) : c'.isLeaf = c.isLeaf := by
  cases c <;> cases c' <;> first | rfl | cases h

/-- Below a leaf nothing is found, whatever its value. -/
theorem not_exposed {c : Config} {path : List Key} (h : ¬LeadsToCensored keysToCensor c path) :
    ¬Exposed floatJson keysToCensor c path := by
  rintro ⟨member, rest, member', hcensored, hconforms, -, hdiffers⟩
  have hbelow : rest ≠ [] := fun hrest => h ⟨member, rest, hcensored, .inl hrest⟩
  have hleaf : member.isLeaf = true :=
    Bool.not_eq_false _ ▸ fun hfalse => h ⟨member, rest, hcensored, .inr hfalse⟩
  have hleaf' : member'.isLeaf = true := by
    rw [isLeaf_of_schema hconforms.schema, hleaf]
  obtain ⟨key, rest, rfl⟩ := List.exists_cons_of_ne_nil hbelow
  rw [walk, walk, getOrNull_leaf hleaf, getOrNull_leaf hleaf'] at hdiffers
  exact hdiffers rfl

theorem exists_replicate {c : Char} (hsize : c.utf8Size = 1) (n : Nat) :
    ∃ text : String, text.utf8ByteSize = n ∧ text.toList = List.replicate n c := by
  induction n with
  | zero => exact ⟨"", rfl, rfl⟩
  | succ n ih =>
    obtain ⟨text, hlength, hletters⟩ := ih
    refine ⟨text.push c, by rw [String.utf8ByteSize_push, hlength, hsize], ?_⟩
    rw [String.toList_push, hletters, List.replicate_succ']

theorem cString_of_replicate {c : Char} (hc : c ≠ '\x00') {n : Nat} {text : String}
    (h : text.toList = List.replicate n c) : cString text = text := by
  rw [cString, h, List.takeWhile_replicate, if_pos (decide_eq_true hc), ← h, String.ofList_toList]

/-- For a set string there is another one of the same length that is shown in another way. -/
theorem exists_other_string {val : String} (h : val ≠ "") :
    ∃ other : String, other.utf8ByteSize = val.utf8ByteSize ∧ cString other ≠ cString val := by
  obtain ⟨n, hn⟩ := Nat.exists_eq_succ_of_ne_zero (mt String.utf8ByteSize_eq_zero_iff.mp h)
  obtain ⟨as, hlength, has⟩ := exists_replicate (c := 'a') rfl (n + 1)
  obtain ⟨bs, hlength', hbs⟩ := exists_replicate (c := 'b') rfl (n + 1)
  by_cases ha : cString as = cString val
  · refine ⟨bs, hlength'.trans hn.symm, ?_⟩
    rw [← ha, cString_of_replicate (by decide) has, cString_of_replicate (by decide) hbs]
    rintro rfl
    have hletters := has.symm.trans hbs
    simp [List.replicate_succ] at hletters
  · exact ⟨as, hlength.trans hn.symm, ha⟩

/-- A path to a censored string exposes it. -/
theorem string_exposed {c : Config} {σ : Schema} {path : List Key} {val : String}
    {minChars maxChars : UInt16} (hc : c.Conforms σ)
    (h : c.censoredAt keysToCensor path = some (.string val minChars maxChars, [])) :
    Exposed floatJson keysToCensor c path := by
  obtain ⟨member, hmember, hconforms, hset⟩ := censoredAt_congr hc hc rfl h
  rw [h] at hmember
  cases hmember
  have hlimits : LeafInLimits (.string val minChars maxChars) := by
    cases hconforms.inLimits with
    | leaf _ hlimits => exact hlimits
  have hne : val ≠ "" := by
    rintro rfl
    cases hset
  obtain ⟨other, hlength, hother⟩ := exists_other_string hne
  refine ⟨_, [], .string other minChars maxChars, h, ⟨rfl, .leaf rfl, .leaf rfl ?_⟩, ?_, ?_⟩
  · rw [LeafInLimits, hlength]
    exact hlimits
  · have hother' : other ≠ "" := by
      rw [← String.utf8ByteSize_eq_zero_iff.ne, hlength, String.utf8ByteSize_eq_zero_iff.ne]
      exact hne
    exact beq_false_of_ne hother'
  · intro hsame
    rw [walk, walk, Option.map_some, Option.map_some, toJson, toJson] at hsame
    exact hother (Json.string.inj (Option.some.inj hsame))

/-- What clients are shown is the same for all values that are set under the censored keys, and
tells whether they are set. -/
def OutputsCensored (floatJson : UInt32 → Json) (serializeJson : Json → List UInt8)
    (capacity : Nat) (keepAlive : List UInt8) (before : List RegisteredState)
    (reg : RegisteredState) (after : List RegisteredState) (suffix : List Char) : Prop :=
  (∀ config : Config, config.Conforms reg.config.schema →
    config.mask reg.keysToCensor = reg.config.mask reg.keysToCensor →
    apiHandlerGet floatJson { reg with config } suffix = apiHandlerGet floatJson reg suffix ∧
    initialDump floatJson serializeJson capacity keepAlive
        (before ++ { reg with config } :: after) =
      initialDump floatJson serializeJson capacity keepAlive (before ++ reg :: after)) ∧
  ShowsEmptyStrings floatJson reg.keysToCensor reg.config

theorem outputsCensored_iff {reg : RegisteredState} (before after : List RegisteredState)
    (hc : reg.config.Conforms reg.config.schema) {suffix : List Char} {keepAlive : List UInt8} :
    OutputsCensored floatJson serializeJson capacity keepAlive before reg after suffix ↔
      ∀ path, buildSuffixPath suffix = .ok path →
        ¬Exposed floatJson reg.keysToCensor reg.config path := by
  rw [← apiHandlerGet_censored_iff hc]
  constructor
  · intro h config hconforms hmask
    exact (h.1 config hconforms hmask).1
  · intro h
    refine ⟨fun config hconforms hmask => ⟨h config hconforms hmask, ?_⟩, showsEmptyStrings _⟩
    apply dumpStates_congr
    have hrefl (states : List RegisteredState) : List.Forall₂ SameUncensored states states := by
      induction states with
      | nil => exact .nil
      | cons reg rest ih => exact .cons (.refl reg) ih
    have hreg : SameUncensored reg { reg with config } := ⟨rfl, rfl, hmask⟩
    exact List.rel_append (hrefl before) (.cons hreg (hrefl after))

/-- Clients are shown nothing of the values under censored keys but whether they are set, if the
suffix leads to none of them. A suffix that leads to a censored string shows it. -/
theorem outputs_censored {reg : RegisteredState} (before after : List RegisteredState)
    (hc : reg.config.Conforms reg.config.schema) {suffix : List Char} {keepAlive : List UInt8} :
    ((∀ path, buildSuffixPath suffix = .ok path →
        ¬LeadsToCensored reg.keysToCensor reg.config path) →
      OutputsCensored floatJson serializeJson capacity keepAlive before reg after suffix) ∧
    ∀ path val minChars maxChars, buildSuffixPath suffix = .ok path →
      reg.config.censoredAt reg.keysToCensor path = some (.string val minChars maxChars, []) →
        ¬OutputsCensored floatJson serializeJson capacity keepAlive before reg after suffix := by
  rw [outputsCensored_iff before after hc]
  refine ⟨fun h path hpath => not_exposed (h path hpath), ?_⟩
  intro path val minChars maxChars hpath hcensored h
  exact h path hpath (string_exposed hc hcensored)

/-- The access data of the web interface. -/
def authenticationConfig (digestHash : String) : RegisteredState where
  path := "authentication/config"
  config := .object [("enable_auth", .bool true), ("username", .string "user" 0 32),
    ("digest_hash", .string digestHash 0 32)]
  keysToCensor := ["digest_hash"]

theorem authenticationConfig_conforms {digestHash : String}
    (h : digestHash.utf8ByteSize ≤ 32) :
    (authenticationConfig digestHash).config.Conforms (authenticationConfig "").config.schema := by
  refine ⟨rfl, ?_, ?_⟩
  · apply WellFormed.object
    intro m hm
    simp only [List.mem_cons, List.not_mem_nil, or_false] at hm
    rcases hm with rfl | rfl | rfl <;> exact .leaf rfl
  · apply InLimits.object
    intro m hm
    simp only [List.mem_cons, List.not_mem_nil, or_false] at hm
    rcases hm with rfl | rfl | rfl
    · exact .leaf rfl trivial
    · exact .leaf rfl ⟨Nat.zero_le _, .inr (by decide)⟩
    · exact .leaf rfl ⟨Nat.zero_le _, .inr h⟩

theorem username_not_censored (path : List Key)
    (hpath : buildSuffixPath "/username".toList = .ok path) :
    ¬LeadsToCensored ["digest_hash"] (authenticationConfig "a").config path := by
  have hname : buildSuffixPath "/username".toList = .ok [.name "username"] := rfl
  rw [hname] at hpath
  cases hpath
  rintro ⟨member, rest, hcensored, -⟩
  have hnone : (authenticationConfig "a").config.censoredAt ["digest_hash"]
      [.name "username"] = none := rfl
  rw [hnone] at hcensored
  cases hcensored

/-- The user name and all states are shown in the same way for two passwords, the password is
not. -/
theorem username_censored :
    (apiHandlerGet (fun _ => .null) (authenticationConfig "b") "/username".toList =
        apiHandlerGet (fun _ => .null) (authenticationConfig "a") "/username".toList ∧
      initialDump (fun _ => .null) (fun _ => [110]) 100 [] [authenticationConfig "b"] =
        initialDump (fun _ => .null) (fun _ => [110]) 100 [] [authenticationConfig "a"]) ∧
    ¬OutputsCensored (fun _ => .null) (fun _ => [110]) 100 [] [] (authenticationConfig "a") []
      "/digest_hash".toList := by
  have hconforms : (authenticationConfig "a").config.Conforms
      (authenticationConfig "a").config.schema := authenticationConfig_conforms (by decide)
  refine ⟨?_, (outputs_censored [] [] hconforms).2 [.name "digest_hash"] "a" 0 32 rfl rfl⟩
  exact ((outputs_censored [] [] hconforms).1 username_not_censored).1
    (authenticationConfig "b").config (authenticationConfig_conforms (by decide)) rfl

/-- A request for the password alone shows it. -/
theorem digestHash_exposed :
    ¬ ∀ (floatJson : UInt32 → Json) (reg : RegisteredState) (σ : Schema) (suffix : List Char)
        (config : Config), reg.config.Conforms σ → config.Conforms σ →
        config.mask reg.keysToCensor = reg.config.mask reg.keysToCensor →
        apiHandlerGet floatJson { reg with config } suffix = apiHandlerGet floatJson reg suffix := by
  intro hclaim
  have hsame := hclaim (fun _ => .null) (authenticationConfig "a") _ "/digest_hash".toList
    (authenticationConfig "b").config (authenticationConfig_conforms (by decide))
    (authenticationConfig_conforms (by decide)) rfl
  have hbody : HttpBody.json (.string "b") = .json (.string "a") :=
    congrArg HttpResponse.body hsame
  exact absurd hbody (by simp)

end Esp32Firmware.Api
