import Esp32Firmware.Library.Run

/-!
# EEBUS bindings and subscriptions

The node management keeps a list of subscriptions and one of bindings. Peers request entries,
delete them with calls that may leave out parts of the addresses, and lose them when they
disconnect. A load control use case takes bindings from one device only.

All bindings of the Energy Guard belong to one device, in every run. Which entries a delete call
finds depends on two devices that it compares with `or`: it finds the entries of its sender, and
only those, exactly if neither device leads to another entry.

## Implementation notes

The value of an optional that is not set is the default one, and reading it with `get` sets it.
The fields of stored entries that look-ups read on the way are set by a step of their own; for a
request it is given which of its fields have been read. The connections of the peers and the other
use cases are inputs.
-/

namespace Esp32Firmware.Eebus

/-- `SpineOptional::get` -/
def value {α : Type*} [Inhabited α] (o : Option α) : α := o.getD default

/-- The optional after it was read, if it was. -/
def afterRead {α : Type*} [Inhabited α] (read : Bool) (o : Option α) : Option α :=
  if read then some (value o) else o

structure FeatureAddress where
  device : Option String := none
  entity : Option (List ℤ) := none
  feature : Option ℤ := none
deriving DecidableEq, Repr

/-- Which fields of an address have been read. -/
structure AddressReads where
  device : Bool := false
  entity : Bool := false
  feature : Bool := false
deriving DecidableEq, Repr

def FeatureAddress.afterReads (a : FeatureAddress) (reads : AddressReads) : FeatureAddress where
  device := afterRead reads.device a.device
  entity := afterRead reads.entity a.entity
  feature := afterRead reads.feature a.feature

def compareSpineAddresses (addr1 addr2 : FeatureAddress) : Bool :=
  addr2.device == some (value addr1.device) && addr2.entity == some (value addr1.entity) &&
    addr2.feature == some (value addr1.feature)

/-- An entry of the subscriptions or of the bindings, or the addresses of a request or call. -/
structure Entry where
  client : FeatureAddress
  server : FeatureAddress
deriving DecidableEq, Repr

structure EntryReads where
  client : AddressReads := {}
  server : AddressReads := {}
deriving DecidableEq, Repr

def Entry.afterReads (e : Entry) (reads : EntryReads) : Entry :=
  ⟨e.client.afterReads reads.client, e.server.afterReads reads.server⟩

structure Header where
  addressSource : FeatureAddress
  addressDestination : FeatureAddress
deriving DecidableEq, Repr

/-- The features of the load control use case. -/
structure LoadControlFeatures where
  spineDeviceName : String
  entityAddress : List ℤ
  loadControl : ℤ
  deviceConfiguration : ℤ
  entityAddress_ne : entityAddress ≠ []
  loadControl_ne : loadControl ≠ 0
  deviceConfiguration_ne : deviceConfiguration ≠ 0

def LoadControlFeatures.featureAddress (u : LoadControlFeatures) (feature : ℤ) : FeatureAddress :=
  ⟨some u.spineDeviceName, some u.entityAddress, some feature⟩

/-- What is known about the peers, and what the other use cases say to a request. -/
structure Peers where
  spineConnection : FeatureAddress → Option ℕ
  multipleEnergyGuards : ℕ → Bool
  otherUsecasesAccept : Entry → Bool

structure NodeManagement where
  subscriptions : List Entry := []
  bindings : List Entry := []
deriving DecidableEq, Repr

/-- A subscription that exists is not entered again. A field that the request leaves out is not
equal to any. -/
def handleSubscriptionRequest (subscriptions : List Entry) : Option Entry → List Entry
  | none => subscriptions
  | some request =>
    if subscriptions.any fun old =>
        request.client.device == some (value old.client.device) &&
        request.client.entity == some (value old.client.entity) &&
        request.client.feature == some (value old.client.feature) &&
        request.server.device == some (value old.server.device) &&
        request.server.entity == some (value old.server.entity) &&
        request.server.feature == some (value old.server.feature) then
      subscriptions
    else subscriptions ++ [request]

def checkIsBound (bindings : List Entry) (sending target : FeatureAddress) : Bool :=
  bindings.any fun binding =>
    value binding.client.device == value sending.device &&
    value binding.server.device == value target.device &&
    value binding.client.entity == value sending.entity &&
    value binding.server.entity == value target.entity &&
    value binding.client.feature == value sending.feature &&
    value binding.server.feature == value target.feature

def getBoundClients (bindings : List Entry) (serverFeature : FeatureAddress) :
    List FeatureAddress :=
  (bindings.filter fun binding => compareSpineAddresses binding.server serverFeature).map (·.client)

namespace LoadControlFeatures

variable (u : LoadControlFeatures)

/-- The address is that of one of the two features the Energy Guard binds. -/
def isEnergyGuardBindingTarget (server : FeatureAddress) : Bool :=
  match server.feature, server.entity with
  | some feature, some entity =>
    if entity ≠ u.entityAddress then false
    else if server.device.any (· ≠ u.spineDeviceName) then false
    else feature == u.loadControl || feature == u.deviceConfiguration
  | _, _ => false

/-- Both features, in the order in which they are looked at. -/
def boundClients (bindings : List Entry) : List FeatureAddress :=
  [u.loadControl, u.deviceConfiguration].flatMap fun feature =>
    getBoundClients bindings (u.featureAddress feature)

def hasMultipleEnergyGuards (peers : Peers) (conn : Option ℕ) : Bool :=
  conn.any peers.multipleEnergyGuards

/-- While a device is bound, no other one may bind, and of a device with several Energy Guards only
the entity that is bound. -/
def validateBindingRequest (peers : Peers) (bindings : List Entry)
    (client server : FeatureAddress) : Bool :=
  if !u.isEnergyGuardBindingTarget server then true
  else if (u.boundClients bindings).any fun bound =>
      bound.device.isSome && client.device.isSome && value bound.device != value client.device then
    false
  else
    let conn := peers.spineConnection client
    if !hasMultipleEnergyGuards peers conn then true
    else !(u.boundClients bindings).any fun bound =>
      peers.spineConnection bound == conn && value bound.entity != value client.entity

/-- A device that is left out, or empty, is that of the sender or the receiver. -/
def completeRequest (header : Header) (request : Entry) : Entry where
  client := if (value request.client.device).isEmpty then
      { request.client with device := some (value header.addressSource.device) }
    else request.client
  server := if (value request.server.device).isEmpty then
      { request.server with device := some u.spineDeviceName }
    else request.server

def handleBindingRequest (peers : Peers) (header : Header) (reads : EntryReads)
    (bindings : List Entry) : Option Entry → List Entry
  | none => bindings
  | some request =>
    let binding := (u.completeRequest header request).afterReads reads
    if checkIsBound bindings binding.client binding.server &&
        (peers.spineConnection header.addressSource).isSome then
      bindings
    else if !(u.validateBindingRequest peers bindings binding.client binding.server &&
        peers.otherUsecasesAccept binding) then
      bindings
    else bindings ++ [binding]

end LoadControlFeatures

/-- A part that is not there matches anything. -/
def optionalEqualOrUndefined {α : Type*} [DecidableEq α] (a b : Option α) : Bool :=
  match a, b with
  | some a, some b => a == b
  | _, _ => true

/-- The addresses of a delete call with the devices that are filled in. -/
def fillInDevices (header : Header) (call : Entry) : Entry :=
  if call.client.device.isNone && call.server.device.isSome then
    { client := { call.client with device := some (value header.addressSource.device) }
      server := { call.server with device := some (value header.addressDestination.device) } }
  else if call.client.device.isSome && call.server.device.isNone then
    { call with server := { call.server with device := some (value header.addressSource.device) } }
  else if call.client.device.isNone && call.server.device.isSome then
    { call with
      client := { call.client with device := some (value header.addressDestination.device) } }
  else call

/-- Whether a delete call finds the entry. -/
def deleteCallMatches (header : Header) (call entry : Entry) : Bool :=
  let address := fillInDevices header call
  if value address.client.device != value entry.client.device &&
      value address.server.device != value entry.server.device then
    false
  else
    optionalEqualOrUndefined address.client.entity entry.client.entity &&
    optionalEqualOrUndefined address.server.entity entry.server.entity &&
    optionalEqualOrUndefined address.client.feature entry.client.feature &&
    optionalEqualOrUndefined address.server.feature entry.server.feature

/-- Deleting subscriptions and deleting bindings. -/
def handleDelete (header : Header) (call : Entry) (entries : List Entry) : List Entry :=
  entries.filter fun entry => !deleteCallMatches header call entry

def removeEntriesForDevice (device : String) (entries : List Entry) : List Entry :=
  if device.isEmpty then entries
  else entries.filter fun entry =>
    !(value entry.client.device == device || value entry.server.device == device)

inductive NodeManagementEvent where
  | subscriptionRequest (request : Option Entry)
  | bindingRequest (peers : Peers) (header : Header) (reads : EntryReads) (request : Option Entry)
  | subscriptionDelete (header : Header) (call : Entry)
  | bindingDelete (header : Header) (call : Entry)
  | disconnect (device : String)
  | lookUp (subscriptions bindings : ℕ → EntryReads)

/-- Reading fields of stored entries. -/
def readEntries (reads : ℕ → EntryReads) (entries : List Entry) : List Entry :=
  entries.mapIdx fun i entry => entry.afterReads (reads i)

def NodeManagement.step (u : LoadControlFeatures) (s : NodeManagement) :
    NodeManagementEvent → NodeManagement
  | .subscriptionRequest request =>
    { s with subscriptions := handleSubscriptionRequest s.subscriptions request }
  | .bindingRequest peers header reads request =>
    { s with bindings := u.handleBindingRequest peers header reads s.bindings request }
  | .subscriptionDelete header call =>
    { s with subscriptions := handleDelete header call s.subscriptions }
  | .bindingDelete header call => { s with bindings := handleDelete header call s.bindings }
  | .disconnect device =>
    { subscriptions := removeEntriesForDevice device s.subscriptions
      bindings := removeEntriesForDevice device s.bindings }
  | .lookUp subscriptions bindings =>
    { subscriptions := readEntries subscriptions s.subscriptions
      bindings := readEntries bindings s.bindings }

section

variable {α : Type*} [Inhabited α] {read : Bool} {o : Option α}

@[simp] theorem value_afterRead : value (afterRead read o) = value o := by
  cases read <;> rfl

theorem isSome_afterRead (h : o.isSome = true) : (afterRead read o).isSome = true := by
  cases read with
  | false => exact h
  | true => rfl

theorem isSome_of_value_ne (h : value o ≠ default) : ∃ a, o = some a := by
  cases o with
  | none => exact absurd rfl h
  | some a => exact ⟨a, rfl⟩

end

section

variable {u : LoadControlFeatures} {bindings : List Entry} {binding : Entry}

/-- The binding is one to a feature that the Energy Guard binds. -/
def LoadControlFeatures.binds (u : LoadControlFeatures) (binding : Entry) : Bool :=
  [u.loadControl, u.deviceConfiguration].any fun feature =>
    compareSpineAddresses binding.server (u.featureAddress feature)

/-- All bindings of the Energy Guard belong to one device. -/
def LoadControlFeatures.OneOwner (u : LoadControlFeatures) (bindings : List Entry) : Prop :=
  ∀ a ∈ bindings, ∀ b ∈ bindings, u.binds a = true → u.binds b = true →
    value a.client.device = value b.client.device

/-- What the bindings keep over a run: one owner, and a device in every client address. -/
structure LoadControlFeatures.Owned (u : LoadControlFeatures) (bindings : List Entry) : Prop where
  oneOwner : u.OneOwner bindings
  named : ∀ binding ∈ bindings, binding.client.device.isSome = true

theorem compareSpineAddresses_featureAddress {server : FeatureAddress} {feature : ℤ} :
    compareSpineAddresses server (u.featureAddress feature) = true ↔
      value server.device = u.spineDeviceName ∧ value server.entity = u.entityAddress ∧
        value server.feature = feature := by
  simp only [compareSpineAddresses, LoadControlFeatures.featureAddress, Bool.and_eq_true,
    beq_iff_eq, Option.some.injEq, and_assoc]
  rw [eq_comm, eq_comm (a := u.entityAddress), eq_comm (a := feature)]

theorem LoadControlFeatures.binds_iff : u.binds binding = true ↔
    value binding.server.device = u.spineDeviceName ∧
      value binding.server.entity = u.entityAddress ∧
        (value binding.server.feature = u.loadControl ∨
          value binding.server.feature = u.deviceConfiguration) := by
  simp only [binds, List.any_cons, List.any_nil, Bool.or_false, Bool.or_eq_true,
    compareSpineAddresses_featureAddress]
  tauto

/-- Reading fields changes no binding. -/
theorem LoadControlFeatures.binds_afterReads {reads : EntryReads} :
    u.binds (binding.afterReads reads) = u.binds binding := by
  rw [Bool.eq_iff_iff, binds_iff, binds_iff]
  simp only [Entry.afterReads, FeatureAddress.afterReads, value_afterRead]

theorem LoadControlFeatures.mem_boundClients {client : FeatureAddress} :
    client ∈ u.boundClients bindings ↔
      ∃ binding ∈ bindings, u.binds binding = true ∧ binding.client = client := by
  simp only [boundClients, getBoundClients, List.mem_flatMap, List.mem_map, List.mem_filter, binds,
    List.any_eq_true]
  constructor
  · rintro ⟨feature, hfeature, binding, ⟨hbinding, hserver⟩, rfl⟩
    exact ⟨binding, hbinding, ⟨feature, hfeature, hserver⟩, rfl⟩
  · rintro ⟨binding, hbinding, ⟨feature, hfeature, hserver⟩, rfl⟩
    exact ⟨feature, hfeature, binding, ⟨hbinding, hserver⟩, rfl⟩

/-- A binding to one of the two features is recognised as one. -/
theorem LoadControlFeatures.isEnergyGuardBindingTarget_of_binds (h : u.binds binding = true) :
    u.isEnergyGuardBindingTarget binding.server = true := by
  obtain ⟨hdevice, hentity, hfeature⟩ := binds_iff.mp h
  obtain ⟨entity, hentity'⟩ := isSome_of_value_ne
    (fun hnil => u.entityAddress_ne (hentity.symm.trans hnil))
  obtain ⟨feature, hfeature'⟩ : ∃ feature, binding.server.feature = some feature := by
    apply isSome_of_value_ne
    intro hzero
    rcases hfeature with hfeature | hfeature
    · exact u.loadControl_ne (hfeature.symm.trans hzero)
    · exact u.deviceConfiguration_ne (hfeature.symm.trans hzero)
  rw [hentity'] at hentity
  rw [hfeature'] at hfeature
  change entity = _ at hentity
  have hother : ¬ binding.server.device.any (· ≠ u.spineDeviceName) = true := by
    cases hname : binding.server.device with
    | none => exact Bool.noConfusion
    | some device =>
      rw [hname] at hdevice
      change device = _ at hdevice
      simp [hdevice]
  rw [isEnergyGuardBindingTarget, hentity', hfeature']
  dsimp only
  rw [if_neg (not_not.mpr hentity), if_neg hother, Bool.or_eq_true, beq_iff_eq, beq_iff_eq]
  exact hfeature

/-- A binding that is entered has the owner of those that are there. -/
theorem LoadControlFeatures.Owned.append (h : u.Owned bindings) {peers : Peers}
    (hnamed : binding.client.device.isSome = true)
    (hvalid : u.validateBindingRequest peers bindings binding.client binding.server = true) :
    u.Owned (bindings ++ [binding]) := by
  have hsame (old : Entry) (hold : old ∈ bindings) (hbinds : u.binds old = true)
      (hnew : u.binds binding = true) :
      value old.client.device = value binding.client.device := by
    rw [validateBindingRequest, isEnergyGuardBindingTarget_of_binds hnew] at hvalid
    by_contra hne
    have hother : (u.boundClients bindings).any (fun bound =>
        bound.device.isSome && binding.client.device.isSome &&
          value bound.device != value binding.client.device) = true := by
      apply List.any_eq_true.mpr
      refine ⟨old.client, mem_boundClients.mpr ⟨old, hold, hbinds, rfl⟩, ?_⟩
      rw [h.named old hold, hnamed]
      simpa using hne
    rw [if_pos hother] at hvalid
    cases hvalid
  refine ⟨?_, ?_⟩
  · intro a ha b hb habinds hbbinds
    rcases List.mem_append.mp ha with hold | hnew <;>
      rcases List.mem_append.mp hb with hold' | hnew'
    · exact h.oneOwner a hold b hold' habinds hbbinds
    · obtain rfl := List.mem_singleton.mp hnew'
      exact hsame a hold habinds hbbinds
    · obtain rfl := List.mem_singleton.mp hnew
      exact (hsame b hold' hbbinds habinds).symm
    · rw [List.mem_singleton.mp hnew, List.mem_singleton.mp hnew']
  · intro b hb
    rcases List.mem_append.mp hb with hb | hb
    · exact h.named b hb
    · rw [List.mem_singleton.mp hb]
      exact hnamed

theorem LoadControlFeatures.Owned.filter (h : u.Owned bindings) (keep : Entry → Bool) :
    u.Owned (bindings.filter keep) where
  oneOwner := fun a ha b hb =>
    h.oneOwner a (List.mem_of_mem_filter ha) b (List.mem_of_mem_filter hb)
  named := fun b hb => h.named b (List.mem_of_mem_filter hb)

theorem LoadControlFeatures.Owned.readEntries (h : u.Owned bindings) (reads : ℕ → EntryReads) :
    u.Owned (readEntries reads bindings) := by
  have hmem (entry : Entry) (hentry : entry ∈ Eebus.readEntries reads bindings) :
      ∃ old ∈ bindings, ∃ read, entry = old.afterReads read := by
    obtain ⟨i, hi, heq⟩ := List.mem_mapIdx.mp hentry
    exact ⟨bindings[i], List.getElem_mem hi, reads i, heq.symm⟩
  refine ⟨?_, ?_⟩
  · intro a ha b hb habinds hbbinds
    obtain ⟨a, holda, reada, rfl⟩ := hmem a ha
    obtain ⟨b, holdb, readb, rfl⟩ := hmem b hb
    rw [binds_afterReads] at habinds hbbinds
    simpa only [Entry.afterReads, FeatureAddress.afterReads, value_afterRead] using
      h.oneOwner a holda b holdb habinds hbbinds
  · intro b hb
    obtain ⟨b, holdb, readb, rfl⟩ := hmem b hb
    exact isSome_afterRead (h.named b holdb)

theorem LoadControlFeatures.completeRequest_named {header : Header} {request : Entry} :
    (u.completeRequest header request).client.device.isSome = true := by
  rw [completeRequest]
  split
  · rfl
  · next hempty =>
      cases hdevice : request.client.device with
      | some device => rfl
      | none =>
        rw [hdevice] at hempty
        exact absurd rfl hempty

theorem LoadControlFeatures.Owned.handleBindingRequest (h : u.Owned bindings) (peers : Peers)
    (header : Header) (reads : EntryReads) (request : Option Entry) :
    u.Owned (u.handleBindingRequest peers header reads bindings request) := by
  cases request with
  | none => exact h
  | some request =>
    rw [LoadControlFeatures.handleBindingRequest]
    split
    · exact h
    · split
      · exact h
      · next hvalid =>
          rw [Bool.not_eq_true, Bool.not_eq_false', Bool.and_eq_true] at hvalid
          exact h.append (isSome_afterRead completeRequest_named) hvalid.1

end

section

variable {header : Header} {call entry : Entry} {entries : List Entry}

/-- Entities and features of an entry match those of a delete call. -/
def partsMatch (call entry : Entry) : Bool :=
  optionalEqualOrUndefined call.client.entity entry.client.entity &&
    optionalEqualOrUndefined call.server.entity entry.server.entity &&
    optionalEqualOrUndefined call.client.feature entry.client.feature &&
    optionalEqualOrUndefined call.server.feature entry.server.feature

/-- The entry is one of the sender of a delete call, with a server device that matches. -/
def ownDevices (header : Header) (call entry : Entry) : Bool :=
  value entry.client.device == value header.addressSource.device &&
    optionalEqualOrUndefined call.server.device entry.server.device

/-- What a delete call should find: entries of the sender that match in all other parts. -/
def ownMatches (header : Header) (call entry : Entry) : Bool :=
  ownDevices header call entry && partsMatch call entry

/-- The client and the server device that the entries are compared with. -/
def comparedDevices (header : Header) (call : Entry) : String × String :=
  match call.client.device, call.server.device with
  | none, none => (default, default)
  | none, some _ => (value header.addressSource.device, value header.addressDestination.device)
  | some client, none => (client, value header.addressSource.device)
  | some client, some server => (client, server)

/-- Of the entries that match in entities and features, those of the sender with a matching server
device have one of the compared devices, and no other entry has any of them. -/
def ReachesOwnOnly (header : Header) (call : Entry) (entries : List Entry) : Prop :=
  ∀ entry ∈ entries, partsMatch call entry = true →
    if ownDevices header call entry = true then
      value entry.client.device = (comparedDevices header call).1 ∨
        value entry.server.device = (comparedDevices header call).2
    else
      value entry.client.device ≠ (comparedDevices header call).1 ∧
        value entry.server.device ≠ (comparedDevices header call).2

theorem fillInDevices_eq (header : Header) (call : Entry) :
    value (fillInDevices header call).client.device = (comparedDevices header call).1 ∧
      value (fillInDevices header call).server.device = (comparedDevices header call).2 ∧
      ∀ entry, partsMatch (fillInDevices header call) entry = partsMatch call entry := by
  obtain ⟨⟨client, clientEntity, clientFeature⟩, ⟨server, serverEntity, serverFeature⟩⟩ := call
  cases client <;> cases server <;> exact ⟨rfl, rfl, fun _ => rfl⟩

theorem deleteCallMatches_iff : deleteCallMatches header call entry = true ↔
    (value entry.client.device = (comparedDevices header call).1 ∨
        value entry.server.device = (comparedDevices header call).2) ∧
      partsMatch call entry = true := by
  obtain ⟨hclient, hserver, hparts⟩ := fillInDevices_eq header call
  rw [deleteCallMatches, hclient, hserver, ← hparts]
  by_cases hskip : ((comparedDevices header call).1 != value entry.client.device &&
      (comparedDevices header call).2 != value entry.server.device) = true
  · rw [if_pos hskip]
    rw [Bool.and_eq_true, bne_iff_ne, bne_iff_ne] at hskip
    constructor
    · exact fun h => Bool.noConfusion h
    · rintro ⟨hclient | hserver, -⟩
      · exact absurd hclient.symm hskip.1
      · exact absurd hserver.symm hskip.2
  · rw [if_neg hskip]
    rw [Bool.and_eq_true, bne_iff_ne, bne_iff_ne, not_and_or, not_not, not_not] at hskip
    exact ⟨fun h => ⟨hskip.imp Eq.symm Eq.symm, h⟩, And.right⟩

/-- A delete call removes exactly the entries of its sender that match if and only if the devices
that are compared lead to these and to no other. -/
theorem handleDelete_iff :
    handleDelete header call entries = entries.filter (fun entry => !ownMatches header call entry) ↔
      ReachesOwnOnly header call entries := by
  have hagree : handleDelete header call entries =
      entries.filter (fun entry => !ownMatches header call entry) ↔ ∀ entry ∈ entries,
          (deleteCallMatches header call entry = true ↔ ownMatches header call entry = true) := by
    constructor
    · intro h entry hentry
      have hmem : entry ∈ handleDelete header call entries ↔
          entry ∈ entries.filter (fun entry => !ownMatches header call entry) := by rw [h]
      rw [handleDelete, List.mem_filter, List.mem_filter] at hmem
      have hkept := and_congr_right_iff.mp hmem hentry
      rw [Bool.not_eq_true', Bool.not_eq_true'] at hkept
      apply not_iff_not.mp
      rw [Bool.not_eq_true, Bool.not_eq_true]
      exact hkept
    · intro h
      apply List.filter_congr
      intro entry hentry
      rw [Bool.eq_iff_iff.mpr (h entry hentry)]
  rw [hagree]
  apply forall₂_congr
  intro entry _
  rw [deleteCallMatches_iff, ownMatches, Bool.and_eq_true]
  by_cases hown : ownDevices header call entry = true
  · rw [if_pos hown]
    tauto
  · rw [if_neg hown]
    tauto

end

variable {u : LoadControlFeatures}

theorem NodeManagement.owned_step (s : NodeManagement) (event : NodeManagementEvent)
    (h : u.Owned s.bindings) : u.Owned (s.step u event).bindings := by
  cases event with
  | subscriptionRequest | subscriptionDelete => exact h
  | bindingRequest peers header reads request =>
    exact h.handleBindingRequest peers header reads request
  | bindingDelete header call => exact h.filter _
  | disconnect device =>
    change u.Owned (removeEntriesForDevice device s.bindings)
    rw [removeEntriesForDevice]
    split
    · exact h
    · exact h.filter _
  | lookUp subscriptions bindings => exact h.readEntries bindings

/-- In every run the bindings of the Energy Guard have one owner, and a delete call removes exactly
the matching entries of its sender if and only if it reaches only these. -/
theorem entries_of_owners (u : LoadControlFeatures) (events : List NodeManagementEvent) :
    u.OneOwner (run (NodeManagement.step u) {} events).bindings ∧ ∀ header call,
        (((run (NodeManagement.step u) {} events).step u
              (.subscriptionDelete header call)).subscriptions =
            (run (NodeManagement.step u) {} events).subscriptions.filter
              (fun entry => !ownMatches header call entry) ↔
          ReachesOwnOnly header call (run (NodeManagement.step u) {} events).subscriptions) ∧
        (((run (NodeManagement.step u) {} events).step u (.bindingDelete header call)).bindings =
            (run (NodeManagement.step u) {} events).bindings.filter
              (fun entry => !ownMatches header call entry) ↔
          ReachesOwnOnly header call (run (NodeManagement.step u) {} events).bindings) := by
  have hinitial : u.Owned ({} : NodeManagement).bindings :=
    ⟨fun a ha => absurd ha List.not_mem_nil, fun b hb => absurd hb List.not_mem_nil⟩
  have howned := run_invariant (I := fun s : NodeManagement => u.Owned s.bindings)
    (fun s event h => s.owned_step event h) hinitial events
  exact ⟨howned.oneOwner, fun header call => ⟨handleDelete_iff, handleDelete_iff⟩⟩

/-- The use case at entity 1, with its features at 4 and 6. -/
def boxFeatures : LoadControlFeatures :=
  ⟨"d:_n:box", [1], 4, 6, List.cons_ne_nil _ _, by decide, by decide⟩

def knownPeers : Peers := ⟨fun _ => some 0, fun _ => false, fun _ => true⟩

def guardBinding : Entry :=
  ⟨⟨some "guard", some [1], some 2⟩, ⟨some "d:_n:box", some [1], some 4⟩⟩

def guardHeader : Header := ⟨⟨some "guard", some [0], some 0⟩, ⟨some "d:_n:box", some [0], some 0⟩⟩

/-- From another peer, without its own device. -/
def otherHeader : Header := ⟨⟨some "other", some [0], some 0⟩, ⟨some "d:_n:box", some [0], some 0⟩⟩

def otherCall : Entry := ⟨⟨none, some [1], some 2⟩, ⟨some "d:_n:box", some [1], some 4⟩⟩

/-- A delete call of one peer removes the binding of another one. -/
theorem other_binding_deleted :
    guardBinding ∈ (run (NodeManagement.step boxFeatures) {}
        [.bindingRequest knownPeers guardHeader {} (some guardBinding)]).bindings.filter
          (fun entry => !ownMatches otherHeader otherCall entry) ∧
      (run (NodeManagement.step boxFeatures) {}
        [.bindingRequest knownPeers guardHeader {} (some guardBinding),
          .bindingDelete otherHeader otherCall]).bindings = [] := by
  decide

end Esp32Firmware.Eebus
