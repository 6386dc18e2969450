import Mathlib.Data.List.Basic
import Mathlib.Data.Int.Init

/-!
# State of the remote access

The configured users with their key files, the tunnels to them, the request to the relay that is
in flight and the tasks that wait for their turn.

## Implementation notes

The contents of a key file are of any type. A response body is given by what its readers make of
it: the JSON members that the firmware looks at, and the token that a service token decodes to.
Configuration members that only appear in requests to the relay, time stamps, the copy of the
configuration in the flash and the states shown to the user interface are left out.
-/

namespace Esp32Firmware.RemoteAccess

/-- `OPTIONS_REMOTE_ACCESS_MAX_USERS()` -/
abbrev maxUsers : Nat := 5

/-- `OPTIONS_REMOTE_ACCESS_MAX_KEYS_PER_USER()` -/
abbrev maxKeysPerUser : Nat := 5

/-- `MAX_USER_CONNECTIONS` -/
abbrev maxUserConnections : Nat := 5

/-- `MAX_SERVICE_TOKEN_REMOVAL_ATTEMPTS` -/
abbrev maxServiceTokenRemovalAttempts : Nat := 10

/-- `MAX_HTTP_BODY_BYTES` -/
abbrev maxHttpBodyBytes : Nat := 5120

structure User where
  id : Nat
  email : String
  uuid : String
  publicKey : String
deriving DecidableEq, Repr

/-- The key files by user and key; a file that is cut short is as good as none. -/
def KeyFiles (κ : Type*) := Nat → Nat → Option κ

namespace KeyFiles

variable {κ : Type*}

def removeKey (files : KeyFiles κ) (userId keyId : Nat) : KeyFiles κ :=
  fun u k => if u = userId ∧ k = keyId then none else files u k

def storeKey (files : KeyFiles κ) (userId keyId : Nat) (key : Option κ) : KeyFiles κ :=
  fun u k => if u = userId ∧ k = keyId then key else files u k

/-- The loop over all keys of a user. -/
def removeKeys (files : KeyFiles κ) (userId : Nat) : KeyFiles κ :=
  (List.range maxKeysPerUser).foldl (fun files k => files.removeKey userId k) files

/-- The loop that empties the key cache, from the key `first` on. -/
def storeKeys (files : KeyFiles κ) (userId : Nat) (first : Nat) : List κ → KeyFiles κ
  | [] => files
  | key :: keys =>
    if first < maxKeysPerUser then
      (files.storeKey userId first (some key)).storeKeys userId (first + 1) keys
    else files

theorem removeKeys_apply (files : KeyFiles κ) (userId u k : Nat) :
    files.removeKeys userId u k =
      if u = userId ∧ k < maxKeysPerUser then none else files u k := by
  rw [removeKeys]
  generalize maxKeysPerUser = n
  induction n with
  | zero => simp
  | succ n ih =>
    rw [List.range_succ, List.foldl_append, List.foldl_cons, List.foldl_nil, removeKey, ih]
    split_ifs <;> first | rfl | omega

theorem storeKeys_of_ne {files : KeyFiles κ} {userId u : Nat} (h : u ≠ userId) (k : Nat)
    (keys : List κ) : ∀ first, files.storeKeys userId first keys u k = files u k := by
  induction keys generalizing files with
  | nil => exact fun _ => rfl
  | cons key keys ih =>
    intro first
    simp only [storeKeys]
    split
    · rw [ih]
      exact if_neg fun hu => h hu.1
    · rfl

/-- What a key file holds after storing was there before or is one of the keys. -/
theorem storeKeys_apply {files : KeyFiles κ} {userId u k : Nat} {key : κ} {keys : List κ} :
    ∀ {first}, files.storeKeys userId first keys u k = some key →
      files u k = some key ∨ (u = userId ∧ key ∈ keys) := by
  induction keys generalizing files with
  | nil => exact fun h => .inl h
  | cons head keys ih =>
    intro first h
    simp only [storeKeys] at h
    split at h
    · obtain hold | ⟨rfl, hmem⟩ := ih h
      · simp only [storeKey] at hold
        split at hold
        · rename_i hu
          obtain rfl := Option.some.inj hold
          exact .inr ⟨hu.1, List.mem_cons_self⟩
        · exact .inl hold
      · exact .inr ⟨rfl, List.mem_cons_of_mem _ hmem⟩
    · exact .inl h

end KeyFiles

/-- A WireGuard tunnel: its number is in its addresses, its key is a copy of the key file. -/
structure Tunnel (κ : Type*) where
  number : Nat
  key : κ
deriving DecidableEq, Repr

/-- The ID of the user a connection number belongs to. -/
def userOf (number : Nat) : Nat := number / maxKeysPerUser + 1

/-- A slot of `remote_connections`. -/
structure Connection (κ : Type*) where
  id : Nat := 0
  conn : Option (Tunnel κ) := none
  inProgress : Bool := false
  connectionUuid : Nat := 0
deriving DecidableEq, Repr

/-- A lookup of the relay's address for a tunnel that is being set up. -/
structure Lookup where
  number : Nat
  connIdx : Nat
  connectionUuid : Nat
deriving DecidableEq, Repr

/-- A JSON value as far as the firmware tells them apart. -/
inductive JsonValue where
  | null
  | bool (value : Bool)
  | integer (value : Int)
  | string (value : String)
deriving DecidableEq, Repr

namespace JsonValue

/-- The comparison with the text `null`, which the JSON null does not equal. -/
def isNullText : JsonValue → Bool
  | string value => value = "null"
  | _ => false

/-- The comparison with the number 0. -/
def isZero : JsonValue → Bool
  | bool value => !value
  | integer value => value = 0
  | _ => false

/-- The conversion to `const char *` is not the null pointer. -/
def isString : JsonValue → Bool
  | string _ => true
  | _ => false

/-- The conversion to a `String`, which spells the JSON null. -/
def toText : JsonValue → String
  | null => "null"
  | bool value => toString value
  | integer value => toString value
  | string value => value

end JsonValue

/-- The members of a response that the firmware reads; a missing one is null. -/
structure Document where
  chargerUuid : JsonValue := .null
  chargerPassword : JsonValue := .null
  managementPub : JsonValue := .null
  userId : JsonValue := .null
  uuid : JsonValue := .null
  configuredUsers : List JsonValue := []
  configuredUsersEmails : List JsonValue := []
  configuredUsersUuids : List JsonValue := []
deriving DecidableEq, Repr

/-- An element of an array of the response. -/
def element (array : List JsonValue) (idx : Nat) : JsonValue := array.getD idx .null

structure AuthorizationToken where
  userUuid : String
  userPublicKey : String
  userEmail : String
deriving DecidableEq, Repr

/-- `response_body`, read as JSON or as a signed service token. -/
structure ResponseBody where
  document : Except String Document := .error "EmptyInput"
  token : Except String AuthorizationToken := .error "remote_access.script.error.empty_service_token"

/-- The keys that are generated for a request. -/
structure FreshKeys (κ : Type*) where
  management : κ
  users : List κ

structure RegistrationConfig where
  enable : Bool
  email : String
deriving DecidableEq, Repr

/-- How a management request names a user. -/
inductive RequestedUser where
  | userId (uuid : String)
  | email (email : String)
deriving DecidableEq, Repr

/-- A request to the relay with what its `next_stage` keeps. The users that `register` replaces
are only kept to tell what the request has changed so far; nothing reads them. -/
inductive Pending (κ : Type*) where
  | serviceToken
  | registration (config : RegistrationConfig) (keys : FreshKeys κ) (publicKey email : String)
      (isServiceToken : Bool) (replaced : List User)
  | addUser (keys : List κ) (publicKey email : String) (nextUserId : Nat) (isServiceToken : Bool)
  | management (oldApi : Bool) (configuredUsers : List RequestedUser)
  | selfdestruct

inductive RegistrationState where
  | none
  | inProgress
  | success
  | error (message : String)
deriving DecidableEq, Repr

/-- An upload configuration of the charge tracker. -/
structure UploadConfig where
  userId : Int
  lastUploadTimestampMin : Nat
deriving DecidableEq, Repr

structure State (κ : Type*) where
  users : List User
  keys : KeyFiles κ
  uuid : String
  enable : Bool
  serviceTokenUserUuid : String
  uploadConfigs : List UploadConfig
  serviceTokenRemovalTask : Bool
  serviceTokenRemovalAttempts : Nat := 0
  registrationState : RegistrationState := .none
  managementRequestAllowed : Bool := true
  managementRequestDone : Bool := false
  managementRequestFailed : Bool := false
  managementAuthFailed : Bool := false
  inFlight : Option (Pending κ) := none
  responseBody : ResponseBody := {}
  nextStages : List (Pending κ) := []
  cleanups : Nat := 0
  connections : List (Connection κ) := List.replicate maxUserConnections {}
  lookups : List Lookup := []
  connectRetries : List Nat := []
  management : Bool := false
  managementRetries : Nat := 0
  applyConfigs : Nat := 0
  resolveTask : Bool := false
  aborted : Option String := none

namespace State

variable {κ : Type*}

/-- `esp_system_abort` -/
def abort (s : State κ) (message : String) : State κ := { s with aborted := some message }

/-- The tunnels that are open. -/
def tunnels (s : State κ) : List (Tunnel κ) := s.connections.filterMap (·.conn)

def requestCleanup (s : State κ) : State κ :=
  { s with inFlight := none, responseBody := {}, managementRequestAllowed := true }

/-- `update_registration_state` with an error, and `request_cleanup`. -/
def registrationError (s : State κ) (message : String) : State κ :=
  { s with registrationState := .error message }.requestCleanup

/-- The cancelled removal of a service user whose UUID is forgotten. -/
def forgetServiceToken (s : State κ) : State κ :=
  { s with serviceTokenUserUuid := "", serviceTokenRemovalTask := false }

end State

end Esp32Firmware.RemoteAccess
