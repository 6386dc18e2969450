import Esp32Firmware.Users.Commands

/-!
# User IDs stay with their users

The search for the next free ID ends and misses no free ID. Commands, removals from the
username file and reboots keep the IDs of configured users apart and the next ID free, as
long as no user gets an empty name.
-/

namespace Esp32Firmware.Users

open State

/-- Steps of the search from the slot after `start` to `userId`. -/
def distance (start userId : UInt8) : Nat := (userId - start - 1).toNat

theorem distance_eq (start userId : UInt8) :
    distance start userId = (userId.toNat + 511 - start.toNat) % 256 := by
  have hstart := start.toNat_lt
  simp only [distance, UInt8.toNat_sub, UInt8.toNat_one]
  omega

theorem distance_lt (start userId : UInt8) : distance start userId < 256 := UInt8.toNat_lt _

theorem distance_start (start : UInt8) : distance start start = 255 := by
  rw [distance_eq]
  omega

theorem distance_first (start : UInt8) : distance start (start + 1) = 0 := by
  simp [distance]

theorem distance_inj {start a b : UInt8} (h : distance start a = distance start b) : a = b := by
  have hstart := start.toNat_lt
  have ha := a.toNat_lt
  have hb := b.toNat_lt
  rw [distance_eq, distance_eq] at h
  apply UInt8.toNat_inj.mp
  omega

theorem distance_succ {start userId : UInt8} (h : start ≠ userId) :
    distance start (userId + 1) = distance start userId + 1 := by
  have hstart := start.toNat_lt
  have huser := userId.toNat_lt
  have hne : start.toNat ≠ userId.toNat := fun heq => h (UInt8.toNat_inj.mp heq)
  rw [distance_eq, distance_eq, UInt8.toNat_add, UInt8.toNat_one]
  omega

/-- The slot of `id` can be given to a new user. -/
def IsFree (file : UInt8 → Slot) (id : UInt8) : Prop := (file id).username.isEmpty

/-- The loop ends on a free ID or, after all others, on the start. -/
theorem searchLoop_spec {file : UInt8 → Slot} {start : UInt8}
    (hstart : start ≠ 0 → IsFree file start) (fuel : Nat) (userId : UInt8)
    (hfuel : 256 ≤ fuel + distance start userId)
    (hseen : ∀ id, id ≠ 0 → distance start id < distance start userId → ¬ IsFree file id) :
    ∃ found, searchLoop file start fuel userId = some found ∧
      (found = start → ∀ id, id ≠ 0 → id ≠ start → ¬ IsFree file id) ∧
      (found ≠ start → found ≠ 0 ∧ IsFree file found) := by
  induction fuel generalizing userId with
  | zero =>
    have := distance_lt start userId
    omega
  | succ fuel ih =>
    rw [searchLoop]
    by_cases hend : start = userId
    · subst hend
      refine ⟨start, if_pos rfl, fun _ id hid hne => hseen id hid ?_, fun h => absurd rfl h⟩
      have hbound := distance_lt start id
      have : distance start id ≠ distance start start := fun h => hne (distance_inj h)
      rw [distance_start] at this ⊢
      omega
    · rw [if_neg hend]
      -- 0 is skipped: the slot that is read is this one or the next one
      set next := if userId = 0 then userId + 1 else userId with hnext
      have hnext0 : next ≠ 0 := by
        rw [hnext]
        split
        · simp_all
        · assumption
      have hread : distance start userId ≤ distance start next ∧
          ∀ id, id ≠ 0 → distance start id < distance start next → ¬ IsFree file id := by
        rw [hnext]
        split
        · rename_i hzero
          rw [distance_succ hend]
          refine ⟨Nat.le_succ _, fun id hid hlt => ?_⟩
          rcases Nat.lt_succ_iff_lt_or_eq.mp hlt with hlt | heq
          · exact hseen id hid hlt
          · exact absurd ((distance_inj heq).trans hzero) hid
        · exact ⟨le_rfl, hseen⟩
      by_cases hfree : IsFree file next
      · refine ⟨next, if_pos hfree, fun hsame id hid hne => hread.2 id hid ?_,
          fun _ => ⟨hnext0, hfree⟩⟩
        have hbound := distance_lt start id
        have : distance start id ≠ distance start start := fun h => hne (distance_inj h)
        rw [hsame, distance_start] at *
        omega
      · have hother : start ≠ next := fun h => hfree (h ▸ hstart (h ▸ hnext0))
        have hstep := distance_succ hother
        obtain ⟨found, hfound, hspec⟩ := ih (next + 1) (by omega) fun id hid hlt => by
          rw [hstep] at hlt
          rcases Nat.lt_succ_iff_lt_or_eq.mp hlt with hlt | heq
          · exact hread.2 id hid hlt
          · exact distance_inj heq ▸ hfree
        refine ⟨found, ?_, hspec⟩
        exact (if_neg hfree).trans hfound

section

variable {s s' : State} {id : UInt8} {username displayName : CString} {maxActiveUsers : Nat}

/-- The search finds a free ID, or 0 if there is none but the one it started from. -/
theorem searchNextFreeUser_spec
    (hstart : s.config.nextUserId ≠ 0 → IsFree s.usernameFile s.config.nextUserId) :
    ∃ found, s.searchNextFreeUser = some (s.setNextUserId found) ∧
      (found = 0 → ∀ id, id ≠ 0 → id ≠ s.config.nextUserId → ¬ IsFree s.usernameFile id) ∧
      (found ≠ 0 → found ≠ s.config.nextUserId ∧ IsFree s.usernameFile found) := by
  obtain ⟨found, hfound, hsame, hother⟩ := searchLoop_spec hstart 257 (s.config.nextUserId + 1)
    (by rw [distance_first]; omega) (fun id _ h => by rw [distance_first] at h; omega)
  refine ⟨if found = s.config.nextUserId then 0 else found, ?_, ?_, ?_⟩
  · simp only [searchNextFreeUser, hfound]
  · split
    · rename_i heq
      exact fun _ => hsame heq
    · rename_i hne
      exact fun h => absurd h (hother hne).1
  · split
    · exact fun h => absurd rfl h
    · rename_i hne
      exact fun _ => ⟨hne, (hother hne).2⟩

@[simp] theorem renameUser_config : (s.renameUser id username displayName).config = s.config := rfl
@[simp] theorem writeConfig_usernameFile : s.writeConfig.usernameFile = s.usernameFile := rfl
@[simp] theorem setNextUserId_usernameFile :
    (s.setNextUserId id).usernameFile = s.usernameFile := rfl

theorem isFree_renameUser : IsFree (s.renameUser id username displayName).usernameFile id ↔
    username.isEmpty := by
  simp [IsFree, renameUser, nameLength, CString.isEmpty_take]

theorem isFree_renameUser_of_ne {other : UInt8} (h : other ≠ id) :
    IsFree (s.renameUser id username displayName).usernameFile other ↔
      IsFree s.usernameFile other := by
  simp [IsFree, renameUser, h]

variable {config : Config} {file : UInt8 → Slot} {users : List User} {number : Nat}

theorem isUserConfigured_iff :
    isUserConfigured config id ↔ ∃ user ∈ config.users, user.id = id := by
  simp [isUserConfigured]

/-- Configured users have different IDs and, but for the anonymous one, a name and a slot. -/
structure UsersNamed (users : List User) (file : UInt8 → Slot) : Prop where
  distinct : (users.map User.id).Nodup
  named : ∀ user ∈ users, user.id ≠ 0 → ¬ user.username.isEmpty
  slot : ∀ user ∈ users, user.id ≠ 0 → ¬ IsFree file user.id

/-- The next ID is 0 or free and nobody's. -/
def NextIsFree (config : Config) (file : UInt8 → Slot) : Prop :=
  config.nextUserId ≠ 0 →
    ¬ isUserConfigured config config.nextUserId ∧ IsFree file config.nextUserId

/-- What all commands keep. -/
structure Invariant (s : State) : Prop where
  users : UsersNamed s.config.users s.usernameFile
  next : NextIsFree s.config s.usernameFile
  exhausted : s.config.nextUserId = 0 → ∀ id, id ≠ 0 → ¬ IsFree s.usernameFile id
  storedUsers : s.stored.users = s.config.users
  storedNext : s.stored.nextUserId = s.config.nextUserId ∨ s.stored.nextUserId = 0

theorem UsersNamed.configured_not_free (h : UsersNamed config.users file) (hid : id ≠ 0)
    (hfree : IsFree file id) :
    ¬ isUserConfigured config id := by
  intro hconfigured
  obtain ⟨user, hmem, rfl⟩ := isUserConfigured_iff.mp hconfigured
  exact h.slot user hmem hid hfree

/-- Names are kept when slots of other IDs are cleared. -/
theorem UsersNamed.renameUser (h : UsersNamed s.config.users s.usernameFile)
    (hid : ¬ isUserConfigured s.config id) :
    UsersNamed s.config.users (s.renameUser id username displayName).usernameFile where
  distinct := h.distinct
  named := h.named
  slot user hmem hne := by
    have hother : user.id ≠ id := fun heq => hid (isUserConfigured_iff.mpr ⟨user, hmem, heq⟩)
    rw [isFree_renameUser_of_ne hother]
    exact h.slot user hmem hne

/-- The slot of an ID without a user is cleared, the ID is used next if there is no other. -/
theorem Invariant.release (h : Invariant s) (hid : ¬ isUserConfigured s.config id) :
    let s := s.renameUser id .empty .empty
    Invariant (if s.config.nextUserId = 0 then (s.setNextUserId id).writeConfig else s) := by
  intro r
  have husers : UsersNamed s.config.users r.usernameFile := h.users.renameUser hid
  have hfree : IsFree r.usernameFile id := by
    rw [isFree_renameUser]
    rfl
  split
  · rename_i hzero
    constructor
    · exact husers
    · intro _
      exact ⟨hid, hfree⟩
    · intro hnext other hother
      have hne : other ≠ id := fun heq => hother (heq.trans hnext)
      simp only [writeConfig_usernameFile, setNextUserId_usernameFile]
      rw [isFree_renameUser_of_ne hne]
      exact h.exhausted hzero other hother
    · rfl
    · exact Or.inl rfl
  · rename_i hnext
    refine ⟨husers, fun hne => ?_, fun hzero => absurd hzero hnext, h.storedUsers, h.storedNext⟩
    obtain ⟨hnobody, hslot⟩ := h.next hne
    refine ⟨hnobody, ?_⟩
    rcases eq_or_ne s.config.nextUserId id with heq | hother
    · simpa only [r, renameUser_config, heq] using hfree
    · exact (isFree_renameUser_of_ne hother).mpr hslot

theorem Invariant.removeFromUsernameFile (h : Invariant s) (id : UInt8) :
    Invariant (s.removeFromUsernameFile id) := by
  unfold State.removeFromUsernameFile
  split
  · exact h
  · rename_i hid
    exact h.release hid

/-- What the flash holds can be restored by a reboot. -/
structure Restorable (s : State) : Prop where
  users : UsersNamed s.stored.users s.usernameFile
  next : NextIsFree s.stored s.usernameFile

theorem Invariant.restorable (h : Invariant s) : Restorable s where
  users := h.storedUsers ▸ h.users
  next hne := by
    have hnext : s.stored.nextUserId = s.config.nextUserId := h.storedNext.resolve_right hne
    have hconfig : s.stored = s.config := by
      cases hs : s.stored
      cases hc : s.config
      have husers := h.storedUsers
      simp_all
    rw [hconfig] at hne ⊢
    exact h.next hne

theorem Restorable.setup (h : Restorable s) : ∃ s', s.setup = some s' ∧ Invariant s' := by
  by_cases hzero : s.stored.nextUserId = 0
  · obtain ⟨found, hfound, hnone, hsome⟩ :=
      searchNextFreeUser_spec (s := { s with config := s.stored }) (fun hne => absurd hzero hne)
    refine ⟨_, (if_pos hzero).trans hfound, h.users, ?_, ?_, rfl, Or.inr hzero⟩
    · intro hne
      exact ⟨h.users.configured_not_free hne (hsome hne).2, (hsome hne).2⟩
    · intro hnext id hid
      exact hnone hnext id hid (hzero ▸ hid)
  · refine ⟨_, if_neg hzero, h.users, h.next, fun hnext => absurd hnext hzero, rfl, Or.inl rfl⟩

theorem validateAdd_eq_none {request : User} :
    s.validateAdd maxActiveUsers request = none ↔
      s.config.nextUserId ≠ 0 ∧ request.id = s.config.nextUserId ∧
        s.config.users.length ≠ maxActiveUsers ∧
        (∀ user ∈ s.config.users, user.username ≠ request.username) ∧
        ∀ id, (s.usernameFile id).username ≠ request.username := by
  unfold State.validateAdd
  split_ifs <;> simp_all

/-- A new user has a name: an empty one equals the name in the free slot. -/
theorem Invariant.add (h : Invariant s) (request : User) :
    ∃ s', s.add maxActiveUsers request = some s' ∧ Invariant s' := by
  unfold State.add
  cases hcheck : s.validateAdd maxActiveUsers request with
  | some error => exact ⟨s, rfl, h⟩
  | none =>
    obtain ⟨hnext, hid, -, -, hfile⟩ := validateAdd_eq_none.mp hcheck
    obtain ⟨hnobody, hfree⟩ := h.next hnext
    have hname : ¬ request.username.isEmpty := by
      intro hempty
      apply hfile s.config.nextUserId
      rw [CString.isEmpty_iff.mp hempty]
      exact CString.isEmpty_iff.mp hfree
    set grown : State := { s with config := { s.config with users := s.config.users ++ [request] } }
      with hgrown
    obtain ⟨found, hfound, hnone, hsome⟩ :=
      searchNextFreeUser_spec (s := grown) (fun _ => hfree)
    refine ⟨_, congrArg (Option.map _) hfound, ?_⟩
    set last := (grown.setNextUserId found).writeConfig with hlast
    have hold : ∀ user ∈ s.config.users, user.id ≠ request.id := by
      intro user hmem heq
      exact hnobody (isUserConfigured_iff.mpr ⟨user, hmem, heq.trans hid⟩)
    have hslot : ∀ other, other ≠ request.id →
        (IsFree (last.renameUser request.id request.username request.displayName).usernameFile
          other ↔ IsFree s.usernameFile other) := fun other hne => isFree_renameUser_of_ne hne
    have hown : ¬ IsFree (last.renameUser request.id request.username
        request.displayName).usernameFile request.id := by
      rw [isFree_renameUser]
      exact hname
    have husers : UsersNamed (s.config.users ++ [request])
        (last.renameUser request.id request.username request.displayName).usernameFile := by
      constructor
      · rw [List.map_append, List.map_singleton, List.nodup_append]
        refine ⟨h.users.distinct, List.nodup_singleton _, ?_⟩
        intro id hmem other hother
        obtain ⟨user, huser, rfl⟩ := List.mem_map.mp hmem
        rw [List.mem_singleton.mp hother]
        exact hold user huser
      · intro user hmem hne
        rcases List.mem_append.mp hmem with hmem | hmem
        · exact h.users.named user hmem hne
        · rwa [List.mem_singleton.mp hmem]
      · intro user hmem hne
        rcases List.mem_append.mp hmem with hmem | hmem
        · rw [hslot _ (hold user hmem)]
          exact h.users.slot user hmem hne
        · rwa [List.mem_singleton.mp hmem]
    have hfreeNext : found ≠ 0 → IsFree (last.renameUser request.id request.username
        request.displayName).usernameFile found := by
      intro hne
      have hother : found ≠ request.id := by
        rw [hid]
        exact (hsome hne).1
      exact (hslot found hother).mpr (hsome hne).2
    refine ⟨husers, ?_, ?_, rfl, Or.inl rfl⟩
    · intro hne
      exact ⟨UsersNamed.configured_not_free husers hne (hfreeNext hne), hfreeNext hne⟩
    · intro hzero other hother
      rcases eq_or_ne other request.id with rfl | hne
      · exact hown
      · rw [hslot other hne]
        exact hnone hzero other hother (hid ▸ hne)

theorem eraseUser_sublist (id : UInt8) (users : List User) :
    (eraseUser id users).Sublist users := by
  induction users with
  | nil => exact List.Sublist.refl _
  | cons user rest ih =>
    rw [eraseUser]
    split
    · exact List.sublist_cons_self user rest
    · exact ih.cons_cons user

theorem UsersNamed.sublist {kept : List User} (h : UsersNamed users file)
    (hkept : kept.Sublist users) : UsersNamed kept file where
  distinct := h.distinct.sublist (hkept.map User.id)
  named user hmem := h.named user (hkept.subset hmem)
  slot user hmem := h.slot user (hkept.subset hmem)

theorem not_mem_eraseUser (h : (users.map User.id).Nodup) :
    ∀ user ∈ eraseUser id users, user.id ≠ id := by
  induction users with
  | nil => exact fun user hmem => absurd hmem List.not_mem_nil
  | cons first rest ih =>
    obtain ⟨hfirst, hrest⟩ := List.nodup_cons.mp h
    rw [eraseUser]
    split
    · rename_i heq
      intro user hmem hid
      exact hfirst (List.mem_map.mpr ⟨user, hmem, hid.trans heq.symm⟩)
    · rename_i hne
      intro user hmem
      rcases List.mem_cons.mp hmem with rfl | hmem
      · exact hne
      · exact ih hrest user hmem

/-- The rest of the users with the same next ID. -/
theorem Invariant.eraseUser (h : Invariant s) (id : UInt8) :
    Invariant ({ s with config := { s.config with
      users := State.eraseUser id s.config.users } } : State).writeConfig where
  users := h.users.sublist (eraseUser_sublist id _)
  next hne := by
    obtain ⟨hnobody, hslot⟩ := h.next hne
    refine ⟨fun hconfigured => hnobody ?_, hslot⟩
    obtain ⟨user, hmem, huser⟩ := isUserConfigured_iff.mp hconfigured
    exact isUserConfigured_iff.mpr ⟨user, (eraseUser_sublist id _).subset hmem, huser⟩
  exhausted := h.exhausted
  storedUsers := rfl
  storedNext := Or.inl rfl

theorem Invariant.remove (h : Invariant s) (id : UInt8) (tracked : Bool) :
    Invariant (s.remove id tracked) := by
  unfold State.remove
  split
  · exact h
  · have herased := h.eraseUser id
    cases tracked with
    | true => exact herased
    | false =>
      apply herased.release
      rw [isUserConfigured_iff]
      rintro ⟨user, hmem, huser⟩
      exact not_mem_eraseUser h.users.distinct user hmem huser

theorem findUser_eq_some {user : User} (h : s.findUser number = some user) :
    user ∈ s.config.users ∧ user.id.toNat = number :=
  ⟨List.mem_of_find?_eq_some h,
    of_decide_eq_true (List.find?_some (p := fun u : User => decide (u.id.toNat = number)) h)⟩

theorem validateModify_eq_ok {request m : Modify} (h : s.validateModify request = .ok m) :
    ∃ user, s.findUser request.id = some user ∧ m = request.fill user := by
  unfold State.validateModify at h
  split at h
  · cases h
  split at h
  · cases h
  split at h
  · cases h
  split at h
  · cases h
  split at h
  · cases h
  cases hfind : s.findUser request.id with
  | none =>
    rw [hfind] at h
    cases h
  | some user =>
    simp only [hfind] at h
    split at h
    · cases h
    split at h
    · cases h
    split at h
    · cases h
    exact ⟨user, rfl, (Except.ok.inj h).symm⟩

theorem map_id_replaceUser {user' : User} (h : user'.id.toNat = number) (users : List User) :
    (replaceUser number user' users).map User.id = users.map User.id := by
  induction users with
  | nil => rfl
  | cons user rest ih =>
    rw [replaceUser]
    split
    · rename_i heq
      have hid : user'.id = user.id := UInt8.toNat_inj.mp (h.trans heq.symm)
      simp [hid]
    · simp [ih]

/-- The other users stay as they are. -/
theorem mem_replaceUser (user' : User) (number : Nat) (hdistinct : (users.map User.id).Nodup) :
    ∀ user ∈ replaceUser number user' users,
      user = user' ∨ (user ∈ users ∧ user.id.toNat ≠ number) := by
  induction users with
  | nil => exact fun user hmem => absurd hmem List.not_mem_nil
  | cons first rest ih =>
    obtain ⟨hfirst, hrest⟩ := List.nodup_cons.mp hdistinct
    rw [replaceUser]
    intro user hmem
    split at hmem
    · rename_i heq
      rcases List.mem_cons.mp hmem with rfl | hmem
      · exact Or.inl rfl
      · refine Or.inr ⟨List.mem_cons_of_mem _ hmem, fun hnumber => hfirst ?_⟩
        have hid : user.id = first.id := UInt8.toNat_inj.mp (hnumber.trans heq.symm)
        exact List.mem_map.mpr ⟨user, hmem, hid⟩
    · rename_i hne
      rcases List.mem_cons.mp hmem with rfl | hmem
      · exact Or.inr ⟨List.mem_cons_self, hne⟩
      · exact (ih hrest user hmem).imp_right (And.imp_left (List.mem_cons_of_mem _))

theorem isUserConfigured_congr (config config' : Config)
    (h : config'.users.map User.id = config.users.map User.id) (id : UInt8) :
    isUserConfigured config' id = isUserConfigured config id := by
  have hmem : ∀ c : Config, isUserConfigured c id = true ↔ id ∈ c.users.map User.id := by
    intro c
    rw [isUserConfigured_iff, List.mem_map]
  rw [Bool.eq_iff_iff, hmem, hmem, h]

/-- A user gets other data under the same ID. -/
theorem Invariant.modify {request : Modify} (h : Invariant s)
    (hname : ∀ m, s.validateModify request = .ok m → ¬ request.username.isEmpty) :
    Invariant (s.modify request) := by
  unfold State.modify
  cases hcheck : s.validateModify request with
  | error text => exact h
  | ok m =>
    obtain ⟨user, hfind, rfl⟩ := validateModify_eq_ok hcheck
    have hid : (request.fill user).id = request.id := rfl
    obtain ⟨huser, hnumber⟩ := findUser_eq_some hfind
    dsimp only
    rw [hid, hfind]
    dsimp only
    set user' := (request.fill user).apply user with huser'
    have hnumber' : user'.id.toNat = request.id := hnumber
    have hname' : user.id ≠ 0 → ¬ user'.username.isEmpty := by
      intro hne
      show ¬ (if request.usernamePassed then request.username else user.username).isEmpty
      split
      · exact hname _ hcheck
      · exact h.users.named user huser hne
    have hids := map_id_replaceUser hnumber' s.config.users
    have hmembers := mem_replaceUser user' request.id h.users.distinct
    set users' := replaceUser request.id user' s.config.users with husers'
    set written : State := ({ s with config := { s.config with users := users' } } :
      State).writeConfig with hwritten
    -- the slots of the other users are the old ones, that of this user is not empty
    have hkeep : ∀ file, (∀ other, other ≠ user.id → (IsFree file other ↔
        IsFree s.usernameFile other)) → (user.id ≠ 0 → ¬ IsFree file user.id) →
        Invariant { written with usernameFile := file } := by
      intro file hother hown
      refine ⟨⟨hids ▸ h.users.distinct, ?_, ?_⟩, ?_, ?_, rfl, Or.inl rfl⟩
      · intro user₂ hmem hne
        rcases hmembers user₂ hmem with rfl | ⟨hmem, _⟩
        · exact hname' hne
        · exact h.users.named user₂ hmem hne
      · intro user₂ hmem hne
        rcases hmembers user₂ hmem with rfl | ⟨hmem, hdiff⟩
        · exact hown hne
        · have hdiffer : user₂.id ≠ user.id := fun heq => hdiff (heq ▸ hnumber)
          rw [hother _ hdiffer]
          exact h.users.slot user₂ hmem hne
      · intro hne
        obtain ⟨hnobody, hslot⟩ := h.next hne
        have hdiffer : s.config.nextUserId ≠ user.id :=
          fun heq => hnobody (isUserConfigured_iff.mpr ⟨user, huser, heq.symm⟩)
        refine ⟨?_, (hother _ hdiffer).mpr hslot⟩
        rw [isUserConfigured_congr s.config _ hids]
        exact hnobody
      · intro hzero id hne
        rcases eq_or_ne id user.id with rfl | hdiffer
        · exact hown hne
        · rw [hother id hdiffer]
          exact h.exhausted hzero id hne
    split
    · apply hkeep
      · exact fun other hne => isFree_renameUser_of_ne (s := written) hne
      · intro hne
        exact fun hfree => hname' hne ((isFree_renameUser (s := written)).mp hfree)
    · exact hkeep s.usernameFile (fun _ _ => Iff.rfl) (h.users.slot user huser)

end

/-- No accepted modification takes the name of a user away. -/
def KeepsNames (s : Option State) : Command → Prop
  | .modify request => ∀ s', s = some s' →
      ¬ (request.username.isEmpty ∧ ∃ m, s'.validateModify request = .ok m)
  | _ => True

/-- A device that hangs stays so. -/
def stepRunning (maxActiveUsers : Nat) (s : Option State) (command : Command) : Option State :=
  s.bind fun s => step maxActiveUsers s command

theorem stepRunning_invariant {maxActiveUsers : Nat} {s : Option State} {command : Command}
    (h : ∃ running, s = some running ∧ Invariant running) (hok : KeepsNames s command) :
    ∃ running, stepRunning maxActiveUsers s command = some running ∧ Invariant running := by
  obtain ⟨running, rfl, hinv⟩ := h
  cases command with
  | add request => exact hinv.add request
  | modify request =>
    refine ⟨_, rfl, hinv.modify fun m hm hempty => ?_⟩
    exact hok running rfl ⟨hempty, m, hm⟩
  | remove id tracked => exact ⟨_, rfl, hinv.remove id tracked⟩
  | reboot => exact hinv.restorable.setup
  | removeFromUsernameFile id => exact ⟨_, rfl, hinv.removeFromUsernameFile id⟩

/-- IDs are distinct, the next one is free, users other than the anonymous one have a slot. -/
structure IdsInUse (s : State) : Prop where
  distinct : (s.config.users.map User.id).Nodup
  next : s.config.nextUserId = 0 ∨
    ¬ isUserConfigured s.config s.config.nextUserId ∧ IsFree s.usernameFile s.config.nextUserId
  slots : ∀ user ∈ s.config.users, user.id ≠ 0 → ¬ IsFree s.usernameFile user.id

/-- A user whose name is a single byte, its ID. -/
def namedUser (id : UInt8) : User where
  id := id
  roles := 0
  current := 32000
  displayName := .empty
  username := if hid : id = 0 then .empty else ⟨[id], fun h => hid (List.mem_singleton.mp h).symm⟩
  digestHash := .empty

theorem namedUser_bytes {id : UInt8} (hid : id ≠ 0) : (namedUser id).username.bytes = [id] := by
  simp [namedUser, hid]

/-- Some ID other than `taken` can be given away. -/
def FreeIdLeft (s : State) (taken : UInt8) : Prop :=
  ∃ id, id ≠ 0 ∧ id ≠ taken ∧ ¬ isUserConfigured s.config id ∧ IsFree s.usernameFile id

theorem factory_restorable : Restorable factory where
  users := ⟨List.nodup_singleton _, fun _ hmem hne => absurd (List.mem_singleton.mp hmem ▸ rfl) hne,
    fun _ hmem hne => absurd (List.mem_singleton.mp hmem ▸ rfl) hne⟩
  next hne := absurd rfl hne

/-- From the first start of a device on. -/
theorem userIds_not_reused (maxActiveUsers : Nat) (commands : List Command)
    (h : Meets (stepRunning maxActiveUsers) KeepsNames factory.setup commands) :
    ∃ s, run (stepRunning maxActiveUsers) factory.setup commands = some s ∧ IdsInUse s ∧
      (s.config.nextUserId = 0 → ¬ FreeIdLeft s 0) ∧
      ∃ s', s.searchNextFreeUser = some s' ∧
        (s'.config.nextUserId = 0 → ¬ FreeIdLeft s s.config.nextUserId) := by
  obtain ⟨s, hrun, hinv⟩ := h.invariant (fun s command => stepRunning_invariant)
    factory_restorable.setup
  obtain ⟨found, hfound, hnone, -⟩ := searchNextFreeUser_spec fun hne => (hinv.next hne).2
  refine ⟨s, hrun, ⟨hinv.users.distinct, or_iff_not_imp_left.mpr hinv.next, hinv.users.slot⟩,
    ?_, _, hfound, ?_⟩
  · rintro hzero ⟨id, hid, -, -, hfree⟩
    exact hinv.exhausted hzero id hid hfree
  · rintro hzero ⟨id, hid, hne, -, hfree⟩
    exact hnone hzero id hid hne hfree

/-- A user is added, modified, removed without tracked charges, and the device restarts. -/
theorem userIds_not_reused_for_one_user :
    let commands := [.add (namedUser 1), .modify { id := 1, current := 16000 }, .remove 1 false, .reboot]
    ∃ s, run (stepRunning 33) factory.setup commands = some s ∧ IdsInUse s ∧
      (s.config.nextUserId = 0 → ¬ FreeIdLeft s 0) ∧
      ∃ s', s.searchNextFreeUser = some s' ∧
        (s'.config.nextUserId = 0 → ¬ FreeIdLeft s s.config.nextUserId) :=
  userIds_not_reused 33 _
    ⟨trivial, fun _ _ h => absurd h.1 (by decide), trivial, trivial, trivial⟩

/-- The names in the file after `k` users came and left. -/
def leftNames (k : Nat) (id : UInt8) : CString :=
  if id = 0 then anonymous.username
  else if id.toNat ≤ k then (namedUser id).username
  else .empty

/-- `k` users came and left tracked charges behind. -/
structure Filled (k : Nat) (s : State) : Prop where
  config : s.config = ⟨[anonymous], UInt8.ofNat (k + 1)⟩
  names : ∀ id, (s.usernameFile id).username = leftNames k id

theorem leftNames_ne {k : Nat} {next : UInt8} (hnext : next ≠ 0) (hnew : k < next.toNat)
    (id : UInt8) : leftNames k id ≠ (namedUser next).username := by
  rw [leftNames]
  split
  · intro heq
    have := congrArg (fun name => name.bytes.length) heq
    simp [anonymous, namedUser_bytes hnext] at this
  · rename_i hid
    split
    · rename_i hold
      intro heq
      have hbytes := congrArg CString.bytes heq
      rw [namedUser_bytes hid, namedUser_bytes hnext, List.singleton_inj] at hbytes
      rw [hbytes] at hold
      omega
    · intro heq
      have hbytes := congrArg CString.bytes heq
      rw [namedUser_bytes hnext] at hbytes
      cases hbytes

theorem leftNames_isEmpty {k : Nat} {id : UInt8} : (leftNames k id).isEmpty ↔ k < id.toNat := by
  rw [leftNames]
  split
  · rename_i hid
    simp [hid, anonymous, CString.isEmpty]
  · rename_i hid
    split <;> simp_all [namedUser_bytes, CString.isEmpty, CString.empty]

/-- One user more is added to the file. -/
theorem leftNames_succ {k : Nat} {next id : UInt8} (hid : next ≠ 0) (hnumber : next.toNat = k + 1) :
    leftNames (k + 1) id = if id = next then (namedUser next).username else leftNames k id := by
  split
  · rename_i heq
    subst heq
    rw [leftNames, if_neg hid, if_pos (by omega)]
  · rename_i hne
    have hdiffer : id.toNat ≠ k + 1 := fun h => hne (UInt8.toNat_inj.mp (h.trans hnumber.symm))
    have hbound : id.toNat ≤ k + 1 ↔ id.toNat ≤ k := by omega
    simp only [leftNames, hbound]

/-- The next user of a file with room. -/
theorem Filled.add {k : Nat} {s : State} (h : Filled k s) {maxActiveUsers : Nat}
    (hmax : 1 < maxActiveUsers) {next : UInt8} (hid : next ≠ 0) (hnumber : next.toNat = k + 1) :
    ∃ grown found, s.add maxActiveUsers (namedUser next) = some grown ∧
      grown.config = ⟨[anonymous, namedUser next], found⟩ ∧
      (next.toNat < 255 → found = next + 1) ∧
      ∀ id, (grown.usernameFile id).username = leftNames (k + 1) id := by
  have hnext : s.config.nextUserId = next := by
    rw [h.config]
    apply UInt8.toNat_inj.mp
    have := next.toNat_lt
    show (UInt8.ofNat (k + 1)).toNat = _
    rw [UInt8.toNat_ofNat', hnumber]
    omega
  have hcheck : s.validateAdd maxActiveUsers (namedUser next) = none := by
    rw [validateAdd_eq_none, hnext, h.config]
    refine ⟨hid, rfl, fun hone => ?_, fun user hmem => ?_, fun id => ?_⟩
    · have : 1 = maxActiveUsers := hone
      omega
    · rw [List.mem_singleton.mp hmem]
      exact leftNames_ne (k := k) hid (by omega) 0
    · rw [h.names]
      exact leftNames_ne hid (by omega) id
  have hfree : IsFree s.usernameFile next := by
    rw [IsFree, h.names, leftNames_isEmpty]
    omega
  set users := s.config.users ++ [namedUser next] with husers
  set grown : State := { s with config := { s.config with users } } with hgrown
  obtain ⟨found, hfound, -⟩ := searchNextFreeUser_spec (s := grown) fun _ => hnext ▸ hfree
  refine ⟨(grown.setNextUserId found).writeConfig.renameUser next (namedUser next).username
    (namedUser next).displayName, found, ?_, ?_, ?_, ?_⟩
  · unfold State.add
    rw [hcheck]
    exact congrArg (Option.map _) hfound
  · show (⟨users, found⟩ : Config) = _
    rw [husers, h.config]
    rfl
  · intro hlast
    have hsucc : next ≠ next + 1 := fun heq => by
      have := congrArg UInt8.toNat heq
      rw [UInt8.toNat_add, UInt8.toNat_one] at this
      omega
    have hpositive : next + 1 ≠ 0 := fun heq => by
      have := congrArg UInt8.toNat heq
      rw [UInt8.toNat_add, UInt8.toNat_one, UInt8.toNat_zero] at this
      omega
    have hempty : (s.usernameFile (next + 1)).username.isEmpty := by
      rw [h.names, leftNames_isEmpty, UInt8.toNat_add, UInt8.toNat_one]
      omega
    have hloop : searchLoop grown.usernameFile next 257 (next + 1) = some (next + 1) := by
      rw [searchLoop, if_neg hsucc]
      rw [if_neg hpositive]
      exact if_pos hempty
    have hstart : grown.config.nextUserId = next := hnext
    have hresult : grown.searchNextFreeUser = some (grown.setNextUserId (next + 1)) := by
      unfold State.searchNextFreeUser
      rw [hstart]
      dsimp only
      rw [hloop]
      dsimp only
      rw [if_neg hsucc.symm]
    have hsame := Option.some.inj (hfound.symm.trans hresult)
    exact congrArg (fun s => s.config.nextUserId) hsame
  · intro id
    rw [leftNames_succ hid hnumber]
    split
    · rename_i heq
      rw [heq]
      simp [State.renameUser, namedUser, hid, CString.take, nameLength]
    · rename_i hne
      show (Function.update s.usernameFile next _ id).username = _
      rw [Function.update_of_ne hne]
      exact h.names id

/-- Users with the IDs from 1 to `k`, each removed with tracked charges left. -/
def fillCommands : Nat → List Command
  | 0 => []
  | k + 1 =>
    fillCommands k ++ [.add (namedUser (.ofNat (k + 1))), .remove (.ofNat (k + 1)) true]

theorem toNat_next {k : Nat} (hk : k < 255) :
    (UInt8.ofNat (k + 1)).toNat = k + 1 ∧ UInt8.ofNat (k + 1) ≠ 0 := by
  have hnumber : (UInt8.ofNat (k + 1)).toNat = k + 1 := by
    rw [UInt8.toNat_ofNat', Nat.mod_eq_of_lt (by omega)]
  refine ⟨hnumber, fun hzero => ?_⟩
  have := congrArg UInt8.toNat hzero
  rw [hnumber, UInt8.toNat_zero] at this
  omega

theorem run_fillCommands (k : Nat) (hk : k < 255) :
    ∃ s, run (stepRunning 33) factory.setup (fillCommands k) = some s ∧ Filled k s := by
  induction k with
  | zero =>
    refine ⟨_, rfl, rfl, fun id => ?_⟩
    rcases eq_or_ne id 0 with rfl | hid
    · rfl
    · have hnumber : ¬ id.toNat ≤ 0 := fun h => hid (UInt8.toNat_inj.mp (Nat.le_zero.mp h))
      rw [leftNames, if_neg hid, if_neg hnumber]
      have hslot : ∀ (file : UInt8 → Slot) slot, Function.update file 0 slot id = file id :=
        fun file slot => Function.update_of_ne hid slot file
      exact congrArg Slot.username (hslot (fun _ => ⟨.empty, .empty⟩) _)
  | succ k ih =>
    obtain ⟨s, hrun, hfilled⟩ := ih (by omega)
    obtain ⟨hnumber, hid⟩ := toNat_next (k := k) (by omega)
    obtain ⟨grown, found, hadd, hconfig, hfound, hnames⟩ :=
      hfilled.add (show 1 < 33 by omega) hid hnumber
    set next := UInt8.ofNat (k + 1) with hnext
    have hcheck : grown.validateRemove next = none := by
      unfold State.validateRemove
      rw [if_neg hid, if_pos]
      rw [isUserConfigured_iff, hconfig]
      exact ⟨namedUser next, by simp, rfl⟩
    have herase : eraseUser next grown.config.users = [anonymous] := by
      rw [hconfig]
      show (if (0 : UInt8) = next then _ else _ :: (if next = next then _ else _)) = _
      rw [if_neg hid.symm, if_pos rfl]
    refine ⟨grown.remove next true, ?_, ?_, ?_⟩
    · rw [fillCommands, run_append, hrun]
      show (s.add 33 (namedUser next)).bind (fun s => some (s.remove next true)) = _
      rw [hadd]
      rfl
    · unfold State.remove
      rw [hcheck]
      show (⟨eraseUser next grown.config.users, grown.config.nextUserId⟩ : Config) = _
      rw [herase, hconfig, hfound (by omega), hnext]
      simp
    · unfold State.remove
      rw [hcheck]
      exact hnames

/-- With all other slots in use the last user can be left without a name. -/
theorem userId_reused_after_modify :
    ¬ ∀ (maxActiveUsers : Nat) (commands : List Command),
      ∃ s, run (stepRunning maxActiveUsers) factory.setup commands = some s ∧ IdsInUse s ∧
        (s.config.nextUserId = 0 → ¬ FreeIdLeft s 0) ∧
        ∃ s', s.searchNextFreeUser = some s' ∧
          (s'.config.nextUserId = 0 → ¬ FreeIdLeft s s.config.nextUserId) := by
  intro hclaim
  obtain ⟨s, hrun, hfilled⟩ := run_fillCommands 254 (by omega)
  obtain ⟨grown, found, hadd, hconfig, -, hnames⟩ :=
    hfilled.add (show 1 < 33 by omega) (show (255 : UInt8) ≠ 0 by decide) rfl
  let unnamed : Modify := { id := 255, username := .empty }
  obtain ⟨last, hlast, hids, -⟩ := hclaim 33 (fillCommands 254 ++ [.add (namedUser 255), .modify unnamed])
  have hmodified : grown.modify unnamed = last := by
    rw [run_append, hrun] at hlast
    have hbind : (s.add 33 (namedUser 255)).bind (fun s => some (s.modify unnamed)) = some last := hlast
    rw [hadd] at hbind
    exact Option.some.inj hbind
  have hfind : grown.findUser 255 = some (namedUser 255) := by
    unfold State.findUser
    rw [hconfig]
    rfl
  have hcheck : grown.validateModify unnamed = .ok (unnamed.fill (namedUser 255)) := by
    have hnone : ¬ (grown.config.users.any fun u => u.id.toNat ≠ 255 ∧ u.username = .empty) := by
      rw [hconfig]
      exact Bool.false_ne_true
    have hfile : ¬ (userIds.any fun id => id.toNat ≠ 255 ∧
        (grown.usernameFile id).username = .empty) := by
      rw [List.any_eq_true]
      rintro ⟨id, -, hboth⟩
      obtain ⟨hne, hempty⟩ := of_decide_eq_true hboth
      rw [hnames, ← CString.isEmpty_iff, leftNames_isEmpty] at hempty
      have := id.toNat_lt
      omega
    have hid : unnamed.id ≠ 0 := by decide
    unfold State.validateModify
    rw [if_neg (by decide), if_neg (fun h => hid h.1), if_neg (fun h => hid h.1),
      if_neg (fun h => hid h.1), if_neg (fun h => hid h.1)]
    have hunnamed : grown.findUser unnamed.id = some (namedUser 255) := hfind
    rw [hunnamed]
    dsimp only
    rw [if_neg (by decide), if_neg hnone, if_neg hfile]
  have hfound : grown.findUser (unnamed.fill (namedUser 255)).id = some (namedUser 255) := hfind
  -- the nameless user is still configured, its slot is free
  let user' := (unnamed.fill (namedUser 255)).apply (namedUser 255)
  have husers : last.config.users = [anonymous, user'] := by
    rw [← hmodified]
    unfold State.modify
    rw [hcheck]
    dsimp only
    rw [hfound]
    show replaceUser 255 user' grown.config.users = _
    rw [hconfig]
    rfl
  have hslot : (last.usernameFile 255).username = .empty := by
    rw [← hmodified]
    unfold State.modify
    rw [hcheck]
    dsimp only
    rw [hfound]
    rfl
  apply hids.slots user' (by rw [husers]; exact List.mem_cons_of_mem _ List.mem_cons_self) (by decide)
  show (last.usernameFile 255).username.isEmpty
  rw [hslot]
  rfl

end Esp32Firmware.Users
