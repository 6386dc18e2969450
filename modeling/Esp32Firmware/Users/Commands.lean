import Esp32Firmware.Library.Run

/-!
# User configuration and username file

Active users are configured, with an ID of eight bits each. The username file has a slot for
every ID and keeps the names of removed users as long as charges are tracked for them. An ID
can be given away when its slot is empty.

## Implementation notes

A command is its validator followed by its callback. Names are bytes without the terminating
zero. Authentication by password, NFC tags and the EVSE slot are left out, whether a user has
tracked charges is part of the command that asks for it.
-/

namespace Esp32Firmware.Users

structure CString where
  bytes : List UInt8
  noNul : 0 ∉ bytes
  deriving DecidableEq

namespace CString

def empty : CString := ⟨[], List.not_mem_nil⟩

def isEmpty (s : CString) : Bool := s.bytes.isEmpty

/-- At most `n` bytes of a string. -/
def take (s : CString) (n : Nat) : CString :=
  ⟨s.bytes.take n, fun h => s.noNul (List.mem_of_mem_take h)⟩

theorem isEmpty_iff {s : CString} : s.isEmpty ↔ s = empty := by
  cases s
  simp [isEmpty, empty]

theorem isEmpty_take {s : CString} {n : Nat} : (s.take (n + 1)).isEmpty = s.isEmpty := by
  cases h : s.bytes <;> simp [isEmpty, take, h]

end CString

structure User where
  id : UInt8
  roles : UInt32
  current : UInt16
  displayName : CString
  username : CString
  digestHash : CString
  deriving DecidableEq

structure Config where
  users : List User
  nextUserId : UInt8
  deriving DecidableEq

structure Slot where
  username : CString
  displayName : CString
  deriving DecidableEq

/-- The configuration, its copy in the flash and the username file. -/
structure State where
  config : Config
  stored : Config
  usernameFile : UInt8 → Slot

/-- An array with one name too many for the file has its last byte cut. -/
def nameLength : Nat := 31

/-- All user IDs, in the order of the username file. -/
def userIds : List UInt8 := (List.finRange 256).map UInt8.ofFin

@[simp] theorem mem_userIds (id : UInt8) : id ∈ userIds :=
  List.mem_map.mpr ⟨id.toFin, List.mem_finRange _, rfl⟩

def isUserConfigured (config : Config) (userId : UInt8) : Bool :=
  config.users.any fun user => user.id = userId

namespace State

def renameUser (s : State) (userId : UInt8) (username displayName : CString) : State :=
  let slot := ⟨username.take nameLength, displayName.take nameLength⟩
  { s with usernameFile := Function.update s.usernameFile userId slot }

/-- `API::writeConfig` -/
def writeConfig (s : State) : State := { s with stored := s.config }

def setNextUserId (s : State) (userId : UInt8) : State :=
  { s with config := { s.config with nextUserId := userId } }

/-- The loop of `search_next_free_user`; `none` if it is still running. -/
def searchLoop (file : UInt8 → Slot) (startUid : UInt8) : Nat → UInt8 → Option UInt8
  | 0, _ => none
  | fuel + 1, userId =>
    if startUid = userId then some userId
    else
      let userId := if userId = 0 then userId + 1 else userId
      if (file userId).username.isEmpty then some userId
      else searchLoop file startUid fuel (userId + 1)

def searchNextFreeUser (s : State) : Option State :=
  let startUid := s.config.nextUserId
  match searchLoop s.usernameFile startUid 257 (startUid + 1) with
  | none => none
  | some userId => some (s.setNextUserId (if userId = startUid then 0 else userId))

def removeFromUsernameFile (s : State) (userId : UInt8) : State :=
  if isUserConfigured s.config userId then s
  else
    let s := s.renameUser userId .empty .empty
    if s.config.nextUserId = 0 then (s.setNextUserId userId).writeConfig else s

/-- The validator of `users/add`. -/
def validateAdd (maxActiveUsers : Nat) (s : State) (add : User) : Option String :=
  if s.config.nextUserId = 0 then
    some "Can't add user. All user IDs in use."
  else if add.id ≠ s.config.nextUserId then
    some "Can't add user. Wrong next user ID"
  else if s.config.users.length = maxActiveUsers then
    some "Can't add user. Already have the maximum number of active users."
  else if s.config.users.any fun user => user.username = add.username then
    some "Can't add user. A user with this username already exists."
  else if userIds.any fun id => (s.usernameFile id).username = add.username then
    some "Can't add user. A user with this username already has tracked charges."
  else none

/-- `users/add`; a rejected command has no effect. -/
def add (maxActiveUsers : Nat) (s : State) (request : User) : Option State :=
  match s.validateAdd maxActiveUsers request with
  | some _ => some s
  | none =>
    let users := s.config.users ++ [request]
    let s := { s with config := { s.config with users } }
    s.searchNextFreeUser.map fun s =>
      s.writeConfig.renameUser request.id request.username request.displayName

end State

/-- `___MARKER___VALUE___` -/
def markerValue : CString :=
  ⟨[95, 95, 95, 77, 65, 82, 75, 69, 82, 95, 95, 95, 86, 65, 76, 85, 69, 95, 95, 95], by decide⟩

/-- A request to modify a user, with markers for what is not passed. -/
structure Modify where
  id : Nat := 256
  roles : UInt32 := 0
  current : UInt16 := 32001
  displayName : CString := markerValue
  username : CString := markerValue
  digestHash : CString := markerValue

namespace Modify

def idPassed (m : Modify) : Bool := m.id < 256
def rolesPassed (m : Modify) : Bool := m.roles ≠ 0
def currentPassed (m : Modify) : Bool := m.current < 32001
def displayNamePassed (m : Modify) : Bool := m.displayName ≠ markerValue
def usernamePassed (m : Modify) : Bool := m.username ≠ markerValue
def digestHashPassed (m : Modify) : Bool := m.digestHash ≠ markerValue

/-- What is not passed keeps the value of the user. -/
def fill (m : Modify) (user : User) : Modify where
  id := m.id
  roles := if m.rolesPassed then m.roles else user.roles
  current := if m.currentPassed then m.current else user.current
  displayName := if m.displayNamePassed then m.displayName else user.displayName
  username := if m.usernamePassed then m.username else user.username
  digestHash := if m.digestHashPassed then m.digestHash else user.digestHash

/-- The user after the modification. -/
def apply (m : Modify) (user : User) : User where
  id := user.id
  roles := m.roles
  current := m.current
  displayName := m.displayName
  username := m.username
  digestHash := m.digestHash

end Modify

namespace State

def findUser (s : State) (id : Nat) : Option User := s.config.users.find? fun u => u.id.toNat = id

/-- The validator of `users/modify`: an error or the completed request. -/
def validateModify (s : State) (m : Modify) : Except String Modify :=
  if !m.idPassed then
    .error "Can't modify user. User ID is null or missing."
  else if m.id = 0 ∧ m.usernamePassed then
    .error "Can't modify anonymous user. Username needs to be null or missing."
  else if m.id = 0 ∧ m.digestHashPassed then
    .error "Can't modify anonymous user. Digest_hash needs to be null or missing."
  else if m.id = 0 ∧ m.rolesPassed then
    .error "Can't modify anonymous user. Roles need to be null or missing."
  else if m.id = 0 ∧ m.currentPassed then
    .error "Can't modify anonymous user. Current need to be null or missing."
  else
    match s.findUser m.id with
    | none => .error "Can't modify user. User with this ID not found."
    | some user =>
      if m.usernamePassed ∧ !m.digestHashPassed ∧ user.username ≠ m.username ∧
          !user.digestHash.isEmpty then
        .error "Changing the username without updating the digest hash is not allowed!"
      else if s.config.users.any fun u => u.id.toNat ≠ m.id ∧ u.username = m.username then
        .error "Can't modify user. Another user with the same username already exists."
      else if userIds.any fun id => id.toNat ≠ m.id ∧ (s.usernameFile id).username = m.username then
        .error "Can't modify user. A user with this username already has tracked charges."
      else .ok (m.fill user)

/-- The first user with the ID is replaced. -/
def replaceUser (id : Nat) (user' : User) : List User → List User
  | [] => []
  | user :: rest =>
    if user.id.toNat = id then user' :: rest else user :: replaceUser id user' rest

/-- `users/modify`; a rejected command has no effect. -/
def modify (s : State) (request : Modify) : State :=
  match s.validateModify request with
  | .error _ => s
  | .ok m =>
    match s.findUser m.id with
    | none => s
    | some user =>
      let user' := m.apply user
      let users := replaceUser m.id user' s.config.users
      let s := ({ s with config := { s.config with users } }).writeConfig
      if user'.displayName ≠ user.displayName ∨ user'.username ≠ user.username then
        s.renameUser user'.id user'.username user'.displayName
      else s

/-- The validator of `users/remove`. -/
def validateRemove (s : State) (id : UInt8) : Option String :=
  if id = 0 then some "The anonymous user can't be removed."
  else if isUserConfigured s.config id then none
  else some "Can't remove user. User with this ID not found."

/-- The first user with the ID is dropped. -/
def eraseUser (id : UInt8) : List User → List User
  | [] => []
  | user :: rest => if user.id = id then rest else user :: eraseUser id rest

/-- `users/remove`; `tracked` is what `is_user_tracked` returns. -/
def remove (s : State) (id : UInt8) (tracked : Bool) : State :=
  match s.validateRemove id with
  | some _ => s
  | none =>
    let users := eraseUser id s.config.users
    let s := ({ s with config := { s.config with users } }).writeConfig
    if tracked then s
    else
      let s := s.renameUser id .empty .empty
      if s.config.nextUserId = 0 then (s.setNextUserId id).writeConfig else s

/-- `setup` after a reboot: the configuration is the one in the flash. -/
def setup (s : State) : Option State :=
  let s := { s with config := s.stored }
  if s.config.nextUserId = 0 then s.searchNextFreeUser else some s

end State

/-- `anonymous` -/
def anonymous : User where
  id := 0
  roles := 0xFFFFFFFF
  current := 32000
  displayName := ⟨[65, 110, 111, 110, 121, 109, 111, 117, 115], by decide⟩
  username := ⟨[97, 110, 111, 110, 121, 109, 111, 117, 115], by decide⟩
  digestHash := .empty

def defaultConfig : Config := ⟨[anonymous], 0⟩

/-- A new device: no file in the flash, the username file is created by `setup`. -/
def factory : State :=
  ({ config := defaultConfig, stored := defaultConfig,
     usernameFile := fun _ => ⟨.empty, .empty⟩ } : State).renameUser
    anonymous.id anonymous.username anonymous.displayName

/-- What happens to the users; the last one is the removal of the last tracked charge. -/
inductive Command where
  | add (request : User)
  | modify (request : Modify)
  | remove (id : UInt8) (tracked : Bool)
  | reboot
  | removeFromUsernameFile (id : UInt8)

/-- `none` if the firmware hangs. -/
def step (maxActiveUsers : Nat) (s : State) : Command → Option State
  | .add request => s.add maxActiveUsers request
  | .modify request => some (s.modify request)
  | .remove id tracked => some (s.remove id tracked)
  | .reboot => s.setup
  | .removeFromUsernameFile id => some (s.removeFromUsernameFile id)

end Esp32Firmware.Users
