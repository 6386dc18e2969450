import Esp32Firmware.Library.StaleIndices
import Esp32Firmware.RemoteAccess.Connections
import Esp32Firmware.Library.Run

/-!
# The remote access at work

One request is in flight at a time. Its answer is read by a task of its own, which finds the body
of the response in a variable that all requests share.

A request of the web interface is checked, keys are generated for it and it is passed on to the
relay. What the relay answers is read later and completes the registration, or the new user.

Requests of the web interface, answers of the relay, packets and commands of the relay, timers and
tasks come in any order.

## Implementation notes

A second request while one is in flight is lost, and the first one is told that the client is busy.
A request whose client cannot be set up is one that fails right after. What a management request
says of the charger is left out, of a user it has the UUID or else the email address.

What receiving, decoding and decrypting a body give is part of the request, as are the keys that
are generated, or the error of generating them. Texts are not cut to the size of their buffers.

What is scheduled may run at any time. After an abort nothing happens until the device starts again
from what it has stored.
-/

namespace Esp32Firmware.RemoteAccess

variable {κ : Type*}

structure RelayError where
  text : String
  unauthorized : Bool
deriving DecidableEq, Repr

/-- `AsyncHTTPSClientError::Busy` -/
def RelayError.busy : RelayError :=
  ⟨"remote_access.script.error.http_client_error\nAsyncHTTPSClient busy (1)", false⟩

def User.requested (user : User) : RequestedUser :=
  if user.uuid = "" then .email user.email else .userId user.uuid

/-- The response says that the user at this position is not configured. -/
def Document.reports (doc : Document) (idx : Nat) : Bool := (element doc.configuredUsers idx).isZero

/-- The indices of the upload configurations of a user. -/
def findChargeTrackerConfigs (configs : List UploadConfig) (userId : Nat) : List Nat :=
  configs.findIdxs fun config => config.userId = (userId : Int)

namespace State

def managementAuthFail (s : State κ) : State κ :=
  if s.managementAuthFailed then s
  else { s with managementAuthFailed := true, managementRequestFailed := true, enable := false }

/-- The callback of a request with an error. -/
def requestError (s : State κ) (error : RelayError) : Pending κ → State κ
  | .management _ _ =>
    let s := if error.unauthorized then s.managementAuthFail
      else { s with managementRequestFailed := true }
    { s with responseBody := {}, cleanups := s.cleanups + 1 }
  | _ =>
    { s with
      registrationState := .error error.text
      responseBody := {}
      cleanups := s.cleanups + 1 }

def runRequestWithNextStage (s : State κ) (nextStage : Pending κ) : State κ :=
  let s := { s with responseBody := {} }
  match s.inFlight with
  | none => { s with inFlight := some nextStage }
  | some pending => { s with inFlight := none }.requestError .busy pending

/-- A part of the response; the variable holds all of it that is there. -/
def responseChunk (s : State κ) (body : ResponseBody) : State κ :=
  match s.inFlight with
  | none => s
  | some _ => { s with responseBody := body }

def requestFinished (s : State κ) : State κ :=
  match s.inFlight with
  | none => s
  | some pending => { s with inFlight := none, nextStages := s.nextStages ++ [pending] }

def resolveManagement (s : State κ) : State κ :=
  if s.managementRequestAllowed then
    let oldApi := s.uuid = ""
    let configuredUsers := if oldApi then [] else s.users.map User.requested
    { s with managementRequestAllowed := false }.runRequestWithNextStage
      (.management oldApi configuredUsers)
  else s

def connectManagement (s : State κ) (clockSynced : Bool) : State κ :=
  if clockSynced then { s with management := (s.keys 0 0).isSome }
  else { s with managementRetries := s.managementRetries + 1 }

def applyConfig (s : State κ) (uplink : Bool) : State κ :=
  let s := if s.management then { s.closeAllRemoteConnections with management := false } else s
  { s with
    managementAuthFailed := false
    managementRequestFailed := false
    managementRequestDone := false
    resolveTask := s.enable && uplink }

/-- The periodic task. -/
def resolveTick (s : State κ) : State κ :=
  if s.resolveTask && !s.managementRequestDone && !s.managementAuthFailed then s.resolveManagement
  else s

def removeUser (s : State κ) (id : Nat) : State κ :=
  match s.users.findIdx? fun user => user.id = id with
  | none => s
  | some idx =>
    let uuid := (s.users.getD idx ⟨0, "", "", ""⟩).uuid
    let s := if s.serviceTokenUserUuid = uuid then s.forgetServiceToken else s
    let s := { s with users := s.users.eraseIdx idx, keys := s.keys.removeKeys id }
    if s.users.any fun user => user.id ≠ 255 then
      if !s.managementRequestDone && !s.managementAuthFailed then s.resolveManagement else s
    else
      let s := s.runRequestWithNextStage .selfdestruct
      { s with
        keys := s.keys.removeKey 0 0
        enable := false
        applyConfigs := s.applyConfigs + 1 }

/-- The packet names the user by the text of the UUID. -/
def handleRemoveUserPacket (s : State κ) (uuid : String) : State κ :=
  match s.users.find? fun user => user.uuid = uuid with
  | none => s
  | some user =>
    if user.id = 255 then s else (s.closeConnectionsOf user.id).removeUser user.id

/-- The removal is tried again, also after it succeeded, up to a number of attempts. -/
def retryServiceTokenRemoval (s : State κ) : State κ :=
  let attempts := s.serviceTokenRemovalAttempts + 1
  if attempts ≥ maxServiceTokenRemovalAttempts then
    { s with serviceTokenUserUuid := "", serviceTokenRemovalAttempts := 0 }
  else { s with serviceTokenRemovalAttempts := attempts, serviceTokenRemovalTask := true }

def removeServiceTokenUser (s : State κ) : State κ :=
  let s := { s with serviceTokenRemovalTask := false }
  if s.serviceTokenUserUuid = "" then { s with serviceTokenRemovalAttempts := 0 }
  else
    match s.users.find? fun user => user.uuid = s.serviceTokenUserUuid with
    | none => s.retryServiceTokenRemoval
    | some user => (s.removeUser user.id).retryServiceTokenRemoval

/-- One turn of the loop over the users, from the last to the first. -/
def syncUser (doc : Document) (s : State κ) (idx : Nat) : State κ :=
  match s.users[idx]? with
  | none => s
  | some user =>
    if doc.reports idx then
      let s := if s.serviceTokenUserUuid = user.uuid then s.forgetServiceToken else s
      { s with
        keys := s.keys.removeKeys user.id
        uploadConfigs := eraseAll s.uploadConfigs
          (findChargeTrackerConfigs s.uploadConfigs user.id)
        users := s.users.eraseIdx idx }
    else
      let email := (element doc.configuredUsersEmails idx).toText
      let uuid := (element doc.configuredUsersUuids idx).toText
      if email ≠ "null" then { s with users := s.users.set idx { user with email, uuid } } else s

def syncUsers (s : State κ) (doc : Document) : State κ :=
  (List.range s.users.length).reverse.foldl (syncUser doc) s

/-- The service user whose UUID no user has any more. -/
def forgetMissingServiceUser (s : State κ) : State κ :=
  if s.serviceTokenUserUuid ≠ "" ∧ ¬ s.users.any fun user => user.uuid = s.serviceTokenUserUuid then
    s.forgetServiceToken
  else s

def managementResponse (s : State κ) (oldApi clockSynced : Bool) : State κ :=
  let s := { s with
    managementRequestFailed := false
    managementRequestAllowed := true
    managementAuthFailed := false }
  match s.responseBody.document with
  | .error _ => s.requestCleanup
  | .ok doc =>
    if oldApi then { s with uuid := doc.uuid.toText }.requestCleanup
    else
      let s := ({ s with responseBody := {} }.syncUsers doc).forgetMissingServiceUser
      let s := { s with managementRequestDone := true }.requestCleanup
      s.connectManagement clockSynced

end State

variable {κ δ : Type*}

inductive Response where
  | ok
  | error (status : Nat) (text : String)
deriving DecidableEq, Repr

/-- The error that a response reports. -/
def Response.errorText : Response → Option String
  | ok => none
  | error _ text => some text

/-- A request body on its way to a JSON document. -/
structure RequestBody (δ : Type*) where
  contentLength : Nat
  memory : Bool
  received : Bool
  document : Except String δ

/-- The checks that all handlers start with. -/
def RequestBody.read (body : RequestBody δ) : Except (Nat × String) δ :=
  if body.contentLength = 0 then .error (400, "remote_access.script.error.empty_body")
  else if body.contentLength > maxHttpBodyBytes then
    .error (413, "remote_access.script.error.body_too_large")
  else if !body.memory then .error (500, "remote_access.script.error.low_memory")
  else if !body.received then .error (500, "remote_access.script.error.read_request_body")
  else
    match body.document with
    | .error text => .error (400, "remote_access.script.error.deserialize_request_body\n" ++ text)
    | .ok doc => .ok doc

/-- The key material of a body: a key for the stored secret, which may not open it, or a public
key, which may not decode. -/
inductive KeyMaterial where
  | secretKey (opened : Except String String)
  | publicKey (decoded : Option String)
  | missing

def KeyMaterial.read (missingText : String) : KeyMaterial → Except (Nat × String) String
  | .secretKey (.ok pk) => .ok pk
  | .secretKey (.error text) => .error (500, text)
  | .publicKey (some pk) => .ok pk
  | .publicKey none => .error (500, "remote_access.script.error.low_memory")
  | .missing => .error (400, missingText)

structure RegisterDocument where
  config : Except String RegistrationConfig
  key : KeyMaterial

/-- Members that are missing read as the text `null`. -/
structure AddUserDocument where
  email : String
  userUuid : String
  key : KeyMaterial
  loginKey : String
  authToken : String

def checkRegister (body : RequestBody RegisterDocument) :
    Except (Nat × String) (RegistrationConfig × String) := do
  let doc ← body.read
  match doc.config with
  | .error text => .error (400, text)
  | .ok config =>
    if !config.enable then .error (400, "remote_access.script.error.register_not_enabled")
    else
      let pk ← doc.key.read "remote_access.script.error.no_key_provided"
      return (config, pk)

def userAlreadyRegistered (users : List User) (email : String) : Bool :=
  users.any fun user => email = user.email

def checkAddUser (users : List User) (body : RequestBody AddUserDocument) :
    Except (Nat × String) (AddUserDocument × String) := do
  let doc ← body.read
  if (doc.email = "null" && doc.userUuid = "null") || userAlreadyRegistered users doc.email then
    .error (400, "remote_access.script.error.user_exists_or_empty")
  else
    let pk ← doc.key.read "remote_access.script.error.no_public_key_provided"
    if doc.loginKey = "" && doc.authToken = "" then
      .error (400, "remote_access.script.error.no_login_key_or_token")
    else return (doc, pk)

/-- The first ID that no user has; the last one if all are taken. -/
def nextUserId (users : List User) : Nat :=
  (((List.range maxUsers).map (· + 1)).find? fun i => !users.any fun user => user.id = i).getD
    maxUsers

namespace State

def registerWithRelay (s : State κ) (config : RegistrationConfig) (keys : FreshKeys κ)
    (pk email : String) (isServiceToken : Bool) (replaced : List User) : State κ :=
  { s with registrationState := .inProgress }.runRequestWithNextStage
    (.registration config keys pk email isServiceToken replaced)

def allowUserAtRelay (s : State κ) (keys : FreshKeys κ) (pk email : String) (nextUserId : Nat)
    (isServiceToken : Bool) : State κ :=
  { s with registrationState := .inProgress }.runRequestWithNextStage
    (.addUser keys.users pk email nextUserId isServiceToken)

/-- `remote_access/register` -/
def register (s : State κ) (body : RequestBody RegisterDocument)
    (fresh : Except String (FreshKeys κ)) : State κ × Response :=
  let replaced := s.users
  let s := { s with users := [] }
  match checkRegister body with
  | .error (status, text) => (s.requestCleanup, .error status text)
  | .ok (config, pk) =>
    match fresh with
    | .error text => (s, .error 500 text)
    | .ok keys => (s.registerWithRelay config keys pk config.email false replaced, .ok)

/-- `remote_access/add_user` -/
def addUser (s : State κ) (body : RequestBody AddUserDocument)
    (fresh : Except String (FreshKeys κ)) : State κ × Response :=
  match checkAddUser s.users body with
  | .error (status, text) => (s.requestCleanup, .error status text)
  | .ok (doc, pk) =>
    match fresh with
    | .error text => (s.requestCleanup, .error 500 text)
    | .ok keys => (s.allowUserAtRelay keys pk doc.email (nextUserId s.users) false, .ok)

/-- `remote_access/remove_user` -/
def removeUserRequest (s : State κ) (body : RequestBody Nat) : State κ × Response :=
  match body.read with
  | .error (status, text) => (s, .error status text)
  | .ok id =>
    if s.users.any fun user => user.id = id then (s.removeUser id, .ok)
    else (s, .error 400 "remote_access.script.error.user_does_not_exist")

/-- `remote_access/service_token_register` -/
def serviceTokenRegister (s : State κ) : State κ :=
  let s := { s with managementRequestAllowed := false }
  if s.serviceTokenUserUuid ≠ "" then
    { s with serviceTokenRemovalTask := true, registrationState := .success }
  else { s with registrationState := .inProgress }.runRequestWithNextStage .serviceToken

/-- The state and the error, if reading the answer ends in one. -/
def parseServiceToken (s : State κ) (fresh : Except String (FreshKeys κ)) :
    State κ × Option String :=
  match s.responseBody.token with
  | .error text => (s.registrationError text, some text)
  | .ok token =>
    let s := { s with enable := true, responseBody := {} }
    match fresh with
    | .error text => (s.registrationError text, some text)
    | .ok keys =>
      let s := if s.users ≠ [] then
        s.allowUserAtRelay keys token.userPublicKey token.userEmail (nextUserId s.users) true
      else
        s.registerWithRelay ⟨s.enable, token.userEmail⟩ keys token.userPublicKey
          token.userEmail true []
      ({ s with serviceTokenRemovalTask := true, responseBody := {} }, none)

/-- A missing `management_pub` leaves the management key file short. A missing `charger_password`
is a `String` of the null pointer, which is invalid. -/
def parseRegistration (s : State κ) (config : RegistrationConfig) (keys : FreshKeys κ)
    (publicKey email : String) (isServiceToken uplink : Bool) : State κ × Option String :=
  match s.responseBody.document with
  | .error text =>
    let text := "remote_access.script.error.deserialize_registration\n" ++ text
    (s.registrationError text, some text)
  | .ok doc =>
    if doc.chargerUuid.isNullText || doc.chargerPassword.isNullText ||
        doc.managementPub.isNullText then
      let text := "remote_access.script.error.missing_registration_fields"
      (s.registrationError text, some text)
    else
      let management := if doc.managementPub.isString then some keys.management else none
      let s := { s with
        keys := (s.keys.storeKey 0 0 management).storeKeys 1 0 keys.users
        enable := config.enable }
      if !doc.chargerPassword.isString then
        (s.abort "Can't update string, val is invalid string!", none)
      else if s.users ≠ [] then (s.abort "Expected 'users' to be empty", none)
      else
        let s := { s with
          uuid := doc.chargerUuid.toText
          users := [⟨1, email, doc.userId.toText, publicKey⟩]
          serviceTokenUserUuid :=
            if isServiceToken then doc.userId.toText else s.serviceTokenUserUuid }
        ({ s.applyConfig uplink with registrationState := .success }.requestCleanup, none)

/-- The keys are stored before the answer is read. -/
def parseAddUser (s : State κ) (keys : List κ) (publicKey email : String) (nextUserId : Nat)
    (isServiceToken : Bool) : State κ × Option String :=
  let s := { s with keys := s.keys.storeKeys nextUserId 0 keys }
  match s.responseBody.document with
  | .error text =>
    let text := "remote_access.script.error.deserialize_add_user\n" ++ text
    (s.registrationError text, some text)
  | .ok doc =>
    if doc.userId.isNullText then
      let text := "remote_access.script.error.user_id_missing"
      (s.registrationError text, some text)
    else if s.users.length ≥ maxUsers then
      (s.abort ("Tried to add to an ConfArray that already has the max allowed number of " ++
        "elements (5)."), none)
    else
      ({ s with
          users := s.users ++ [⟨nextUserId, email, doc.userId.toText, publicKey⟩]
          serviceTokenUserUuid :=
            if isServiceToken then doc.userId.toText else s.serviceTokenUserUuid
          registrationState := .success }, none)

/-- The task that a finished request has scheduled. -/
def nextStage (s : State κ) (index : Nat) (fresh : Except String (FreshKeys κ))
    (clockSynced uplink : Bool) : State κ × Option String :=
  match s.nextStages[index]? with
  | none => (s, none)
  | some pending =>
    let s := { s with nextStages := s.nextStages.eraseIdx index }
    match pending with
    | .serviceToken => s.parseServiceToken fresh
    | .registration config keys publicKey email isServiceToken _ =>
      s.parseRegistration config keys publicKey email isServiceToken uplink
    | .addUser keys publicKey email nextUserId isServiceToken =>
      s.parseAddUser keys publicKey email nextUserId isServiceToken
    | .management oldApi _ => (s.managementResponse oldApi clockSynced, none)
    | .selfdestruct => (s.requestCleanup, none)

end State

/-- What happens, with what the environment answers to it. -/
inductive Event (κ : Type*) where
  | register (body : RequestBody RegisterDocument) (fresh : Except String (FreshKeys κ))
  | addUser (body : RequestBody AddUserDocument) (fresh : Except String (FreshKeys κ))
  | removeUser (body : RequestBody Nat)
  | serviceTokenRegister
  | responseChunk (body : ResponseBody)
  | requestFinished
  | requestError (error : RelayError)
  | nextStage (index : Nat) (fresh : Except String (FreshKeys κ)) (clockSynced uplink : Bool)
  | cleanup
  | removeUserPacket (uuid : String)
  | serviceTokenRemoval
  | connectCommand (connectionNo : Int) (connectionUuid : Nat) (connectClosed portFound : Bool)
  | disconnectCommand (connectionNo : Int)
  | lookupDone (index : Nat) (answerSent clockSynced : Bool)
  | connectRetry (index : Nat) (clockSynced : Bool)
  | managementRetry (clockSynced : Bool)
  | managementLost
  | managementTimeout
  | resolveTick
  | configUpdate (enable : Bool)
  | applyConfigTask (uplink : Bool)
  | networkChange (uplink : Bool)

namespace State

/-- The state after an event, and the error in which its request ends. -/
def handle (s : State κ) : Event κ → State κ × Option String
  | .register body fresh =>
    let (s, response) := s.register body fresh
    (s, response.errorText)
  | .addUser body fresh =>
    let (s, response) := s.addUser body fresh
    (s, response.errorText)
  | .removeUser body =>
    let (s, response) := s.removeUserRequest body
    (s, response.errorText)
  | .serviceTokenRegister => (s.serviceTokenRegister, none)
  | .responseChunk body => (s.responseChunk body, none)
  | .requestFinished => (s.requestFinished, none)
  | .requestError error =>
    match s.inFlight with
    | none => (s, none)
    | some pending => ({ s with inFlight := none }.requestError error pending, some error.text)
  | .nextStage index fresh clockSynced uplink => s.nextStage index fresh clockSynced uplink
  | .cleanup =>
    (if s.cleanups = 0 then s else { s with cleanups := s.cleanups - 1 }.requestCleanup, none)
  | .removeUserPacket uuid => (s.handleRemoveUserPacket uuid, none)
  | .serviceTokenRemoval =>
    (if s.serviceTokenRemovalTask then s.removeServiceTokenUser else s, none)
  | .connectCommand connectionNo connectionUuid connectClosed portFound =>
    (s.connectCommand connectionNo connectionUuid connectClosed portFound, none)
  | .disconnectCommand connectionNo => (s.disconnectCommand connectionNo, none)
  | .lookupDone index answerSent clockSynced => (s.lookupDone index answerSent clockSynced, none)
  | .connectRetry index clockSynced => (s.connectRetry index clockSynced, none)
  | .managementRetry clockSynced =>
    (if s.managementRetries = 0 then s
      else { s with managementRetries := s.managementRetries - 1 }.connectManagement clockSynced,
      none)
  | .managementLost => ({ s with managementRequestDone := false }.closeAllRemoteConnections, none)
  | .managementTimeout => ({ s with managementRequestDone := false }, none)
  | .resolveTick => (s.resolveTick, none)
  | .configUpdate enable => ({ s with enable, applyConfigs := s.applyConfigs + 1 }, none)
  | .applyConfigTask uplink =>
    (if s.applyConfigs = 0 then s
      else { s with applyConfigs := s.applyConfigs - 1 }.applyConfig uplink, none)
  | .networkChange uplink => (s.applyConfig uplink, none)

def step (s : State κ) (event : Event κ) : State κ :=
  if s.aborted.isSome then s else (s.handle event).1

end State

/-- The stored configuration: the IDs of the users are in range. -/
structure StoredConfig (κ : Type*) where
  users : List User
  keys : KeyFiles κ
  uuid : String
  enable : Bool
  serviceTokenUserUuid : String
  uploadConfigs : List UploadConfig
  ids_in_range : ∀ user ∈ users, 1 ≤ user.id ∧ user.id ≤ maxUsers

/-- `setup`; the removal of a service user is scheduled if there is one. -/
def StoredConfig.setup (config : StoredConfig κ) : State κ where
  users := config.users
  keys := config.keys
  uuid := config.uuid
  enable := config.enable
  serviceTokenUserUuid := config.serviceTokenUserUuid
  uploadConfigs := config.uploadConfigs
  serviceTokenRemovalTask := config.serviceTokenUserUuid ≠ ""

/-- The state after a sequence of events. -/
def StoredConfig.after (config : StoredConfig κ) (events : List (Event κ)) : State κ :=
  run State.step config.setup events

end Esp32Firmware.RemoteAccess
