import Esp32Firmware.RemoteAccess.Numbering

/-!
# Users that the relay does not know

A management request lists the users, and its response says by position who is not configured and
what email address and UUID the others have. The positions are taken for those of the users that
are there when the response is read. Users may have been removed in between.

## Implementation notes

A user keeps the position that the request had for it as long as it is there. Between request and
response anything may happen that adds no user: new users come with other answers of the relay.
-/

namespace Esp32Firmware.RemoteAccess

variable {κ : Type*}

/-- What a response says; one that cannot be read says nothing. -/
def ResponseBody.answer (body : ResponseBody) : Document :=
  match body.document with
  | .error _ => {}
  | .ok doc => doc

namespace State

/-- The users of a request that are still there after some events, with their positions in it. -/
def stillListed (s : State κ) (listed : List (User × Nat)) : List (Event κ) → List (User × Nat)
  | [] => listed
  | event :: rest =>
    (s.step event).stillListed
      (match s.removalTarget event with
        | none => listed
        | some id => listed.eraseP fun entry => entry.1.id = id)
      rest

theorem step_addsNoUser {s : State κ} (hrunning : s.aborted = none) {event : Event κ}
    (h : event.addsNoUser = true) :
    (s.step event).users = (match s.removalTarget event with
        | none => s.users
        | some id => s.users.eraseP fun user => user.id = id) ∧
      (s.step event).aborted = none := by
  obtain ⟨husers, haborted⟩ := handle_addsNoUser s h
  rw [step, hrunning, if_neg (by simp)]
  exact ⟨husers, haborted.trans hrunning⟩

/-- The users that are there are those still listed, in the order of the request. -/
theorem stillListed_users {events : List (Event κ)}
    (h : ∀ event ∈ events, event.addsNoUser = true) {s : State κ} (hrunning : s.aborted = none)
    {listed : List (User × Nat)} (hlisted : listed.map Prod.fst = s.users) :
    (s.stillListed listed events).map Prod.fst = (run step s events).users ∧
      (run step s events).aborted = none := by
  induction events generalizing s listed with
  | nil => exact ⟨hlisted, hrunning⟩
  | cons event rest ih =>
    obtain ⟨husers, haborted⟩ := step_addsNoUser hrunning (h event List.mem_cons_self)
    refine ih (fun e he => h e (List.mem_cons_of_mem _ he)) haborted ?_
    rw [husers]
    cases s.removalTarget event with
    | none => exact hlisted
    | some id =>
      dsimp only
      rw [← hlisted, List.eraseP_map]
      rfl

theorem stillListed_sublist (events : List (Event κ)) (s : State κ) (listed : List (User × Nat)) :
    (s.stillListed listed events).Sublist listed := by
  induction events generalizing s listed with
  | nil => exact List.Sublist.refl _
  | cons event rest ih =>
    refine (ih _ _).trans ?_
    cases s.removalTarget event with
    | none => exact List.Sublist.refl _
    | some id => exact List.eraseP_sublist

/-- A readable or unreadable response to a request that lists the users. -/
theorem core_managementResponse_answer (s : State κ) (clockSynced : Bool) :
    (s.managementResponse false clockSynced).core = { s.core with
        users := s.responseBody.answer.keeps s.users
        keys := s.keys.dropUsers (s.responseBody.answer.reported s.users)
        uploadConfigs := dropUploads s.uploadConfigs (s.responseBody.answer.reported s.users) } := by
  cases h : s.responseBody.document with
  | ok doc =>
    rw [core_managementResponse_ok h clockSynced, ResponseBody.answer, h]
  | error text =>
    have hreports (idx : Nat) : ({} : Document).reports idx = false := by
      simp [Document.reports, element, JsonValue.isZero]
    have hupdate (idx : Nat) (user : User) : ({} : Document).update idx user = user := by
      simp [Document.update, element, JsonValue.toText]
    have hanswer : s.responseBody.answer = {} := by rw [ResponseBody.answer, h]
    have hkeeps : ({} : Document).keeps s.users = s.users := by
      simp [Document.keeps, hreports, hupdate]
    have hreported : ({} : Document).reported s.users = [] := by
      simp [Document.reported, hreports]
    rw [hanswer, hkeeps, hreported]
    simp only [managementResponse, h]
    rfl

theorem core_step_response {t : State κ} (hrunning : t.aborted = none) {index : Nat}
    {requested : List RequestedUser}
    (hstage : t.nextStages[index]? = some (.management false requested))
    (fresh : Except String (FreshKeys κ)) (clockSynced uplink : Bool) :
    (t.step (.nextStage index fresh clockSynced uplink)).core = { t.core with
        users := t.responseBody.answer.keeps t.users
        keys := t.keys.dropUsers (t.responseBody.answer.reported t.users)
        uploadConfigs := dropUploads t.uploadConfigs (t.responseBody.answer.reported t.users)
        nextStages := t.nextStages.eraseIdx index } := by
  rw [step, hrunning, if_neg (by simp)]
  simp only [handle, nextStage, hstage]
  exact core_managementResponse_answer { t with nextStages := t.nextStages.eraseIdx index }
    clockSynced

end State

/-- What a response has to do, given what is still listed: the reported users go, nobody gets what
it says of another one, and the upload configurations of those who go are removed. -/
structure Synchronised (doc : Document) (listed : List (User × Nat)) (s s' : State κ) : Prop where
  users : List.Forall₂ (fun entry user => user = entry.1 ∨ user = doc.update entry.2 entry.1)
    (listed.filter fun entry => !doc.reports entry.2) s'.users
  uploadConfigs : s'.uploadConfigs = s.uploadConfigs.filter fun config =>
    ∀ entry ∈ listed, doc.reports entry.2 = true → config.userId ≠ (entry.1.id : Int)

/-- The response reports of each place in the list what it reports of the position that its user
had in the request, and updates the user to the same or not at all. No user who goes has two
upload configurations. -/
structure InStep (doc : Document) (listed : List (User × Nat)) (configs : List UploadConfig) :
    Prop where
  reports : ∀ place ∈ listed.zipIdx, doc.reports place.1.2 = doc.reports place.2
  updates : ∀ place ∈ listed.zipIdx, doc.reports place.1.2 = false →
    doc.update place.2 place.1.1 = place.1.1 ∨
      doc.update place.2 place.1.1 = doc.update place.1.2 place.1.1
  uploads : ∀ entry ∈ listed, doc.reports entry.2 = true →
    configs.countP (fun config => config.userId = (entry.1.id : Int)) ≤ 1

/-- The users by their places among those listed. -/
theorem Document.keeps_listed (doc : Document) (listed : List (User × Nat)) :
    doc.keeps (listed.map Prod.fst) =
      (listed.zipIdx.filter fun place => !doc.reports place.2).map fun place =>
        doc.update place.2 place.1.1 := by
  rw [keeps, List.zipIdx_map, List.filter_map, List.map_map]
  rfl

theorem Document.mem_reported {doc : Document} {listed : List (User × Nat)} {id : Int} :
    (id ∈ (doc.reported (listed.map Prod.fst)).map fun user => (user.id : Int)) ↔
      ∃ place ∈ listed.zipIdx, doc.reports place.2 = true ∧ (place.1.1.id : Int) = id := by
  rw [reported, List.zipIdx_map]
  simp only [List.filter_map, List.map_map, List.mem_map, List.mem_reverse, List.mem_filter]
  constructor
  · rintro ⟨user, ⟨place, ⟨hplace, hreports⟩, rfl⟩, rfl⟩
    exact ⟨place, hplace, hreports, rfl⟩
  · rintro ⟨place, hplace, hreports, rfl⟩
    exact ⟨_, ⟨place, ⟨hplace, hreports⟩, rfl⟩, rfl⟩

section

variable {doc : Document} {listed : List (User × Nat)} {configs : List UploadConfig}

/-- With places that agree, the reported IDs are those of the reported entries. -/
theorem mem_reported_of_agree
    (h : ∀ place ∈ listed.zipIdx, doc.reports place.1.2 = doc.reports place.2) {id : Int} :
    (id ∈ (doc.reported (listed.map Prod.fst)).map fun user => (user.id : Int)) ↔
      ∃ entry ∈ listed, doc.reports entry.2 = true ∧ (entry.1.id : Int) = id := by
  rw [Document.mem_reported]
  constructor
  · rintro ⟨place, hplace, hreports, hid⟩
    exact ⟨place.1, (List.mem_zipIdx' hplace).2 ▸ List.getElem_mem _,
      (h place hplace).trans hreports, hid⟩
  · rintro ⟨entry, hentry, hreports, hid⟩
    obtain ⟨i, hlt, rfl⟩ := List.mem_iff_getElem.mp hentry
    have hplace : (listed[i], i) ∈ listed.zipIdx :=
      List.mk_mem_zipIdx_iff_getElem?.mpr (List.getElem?_eq_getElem hlt)
    exact ⟨_, hplace, (h _ hplace).symm.trans hreports, hid⟩

theorem InStep.users (h : InStep doc listed configs) :
    List.Forall₂ (fun entry user => user = entry.1 ∨ user = doc.update entry.2 entry.1)
      (listed.filter fun entry => !doc.reports entry.2) (doc.keeps (listed.map Prod.fst)) := by
  rw [doc.keeps_listed]
  refine @forall₂_filter_zipIdx _ _ _ _ _ (fun i => !doc.reports i) _ ?_ ?_
  · intro entry i hi
    exact congrArg (!·) (h.reports (entry, i) (List.mk_mem_zipIdx_iff_getElem?.mpr hi))
  · intro entry i hi hkept
    exact h.updates (entry, i) (List.mk_mem_zipIdx_iff_getElem?.mpr hi) (by simpa using hkept)

theorem InStep.uploadConfigs (h : InStep doc listed configs) :
    dropUploads configs (doc.reported (listed.map Prod.fst)) = configs.filter fun config =>
      ∀ entry ∈ listed, doc.reports entry.2 = true → config.userId ≠ (entry.1.id : Int) := by
  rw [dropUploads, eraseKeys_eq_filter]
  · apply List.filter_congr
    intro config _
    rw [decide_eq_decide, mem_reported_of_agree h.reports]
    simp only [not_exists, not_and, ne_eq, eq_comm]
  · intro id hid
    obtain ⟨entry, hentry, hreports, rfl⟩ := (mem_reported_of_agree h.reports).mp hid
    exact h.uploads entry hentry hreports

/-- For users with IDs of their own nothing less will do. -/
theorem InStep.of_synchronised {s s' : State κ} (hnodup : (listed.map fun e => e.1.id).Nodup)
    (husers : s'.users = doc.keeps (listed.map Prod.fst))
    (hconfigs : s'.uploadConfigs = dropUploads s.uploadConfigs (doc.reported (listed.map Prod.fst)))
    (h : Synchronised doc listed s s') : InStep doc listed s.uploadConfigs := by
  have hplaces {entry : User × Nat} {i : Nat} (hi : listed[i]? = some entry) :
      (!doc.reports entry.2) = (!doc.reports i) ∧ ((!doc.reports entry.2) = true →
        (doc.update i entry.1 = entry.1 ∨ doc.update i entry.1 = doc.update entry.2 entry.1)) := by
    have hkept := h.users
    rw [husers, doc.keeps_listed] at hkept
    refine @keepAt_of_forall₂ _ _ _ _ _ _ (fun i => !doc.reports i) _
      (fun e : User × Nat => e.1.id) User.id hnodup ?_ ?_ hkept _ _ hi
    · intro e user huser
      obtain rfl | rfl := huser
      · rfl
      · exact doc.update_id e.2 e.1
    · exact fun e j => doc.update_id j e.1
  have hreports : ∀ place ∈ listed.zipIdx, doc.reports place.1.2 = doc.reports place.2 := by
    intro place hplace
    simpa using (hplaces (List.mk_mem_zipIdx_iff_getElem?.mp hplace)).1
  refine ⟨hreports, ?_, ?_⟩
  · intro place hplace hkept
    exact (hplaces (List.mk_mem_zipIdx_iff_getElem?.mp hplace)).2 (by rw [hkept]; rfl)
  · intro entry hentry hreport
    have hleft := hconfigs.symm.trans h.uploadConfigs
    rw [dropUploads] at hleft
    refine countP_le_one_of_eraseKeys ?_ ?_ (entry.1.id : Int)
      ((mem_reported_of_agree hreports).mpr ⟨entry, hentry, hreport, rfl⟩)
    · -- the reported users are some of the listed ones, from the last to the first
      rw [Document.reported, List.map_reverse, List.nodup_reverse, List.zipIdx_map]
      refine List.Nodup.sublist ?_ ((List.nodup_map_iff Int.ofNat_injective).mpr hnodup)
      rw [List.map_map, List.filter_map, List.map_map, List.map_map]
      have hsub := (List.filter_sublist (l := listed.zipIdx)
        (p := fun place => doc.reports place.2)).map fun place => (place.1.1.id : Int)
      have hall : listed.zipIdx.map (fun place => (place.1.1.id : Int)) =
          listed.map fun e => (e.1.id : Int) := by
        conv_rhs => rw [← List.zipIdx_map_fst 0 listed, List.map_map]
        rfl
      rw [hall] at hsub
      exact hsub
    · intro config hconfig hmem
      rw [hleft] at hconfig
      obtain ⟨e, he, hreport', hid⟩ := (mem_reported_of_agree hreports).mp hmem
      have hkept := (List.mem_filter.mp hconfig).2
      simp only [decide_eq_true_eq] at hkept
      exact hkept e he hreport' hid.symm

end

namespace State

/-- The response to the request that lists the users of `s`, read after some events: it hits the
right users where it is in step with what is still listed, and for users with IDs of their own
only there. -/
theorem response_synchronises (s : State κ) (hrunning : s.aborted = none)
    (events : List (Event κ)) (hevents : ∀ event ∈ events, event.addsNoUser = true)
    (index : Nat) (fresh : Except String (FreshKeys κ)) (clockSynced uplink : Bool)
    (hstage : (run step s.resolveManagement events).nextStages[index]? =
      some (.management false (s.users.map User.requested))) :
    let t := run step s.resolveManagement events
    let doc := t.responseBody.answer
    let listed := s.resolveManagement.stillListed s.users.zipIdx events
    (InStep doc listed t.uploadConfigs →
        Synchronised doc listed t (t.step (.nextStage index fresh clockSynced uplink))) ∧
      ((s.users.map User.id).Nodup →
        Synchronised doc listed t (t.step (.nextStage index fresh clockSynced uplink)) →
          InStep doc listed t.uploadConfigs) := by
  intro t doc listed
  have hsent := core_resolveManagement s
  have hstart : s.users.zipIdx.map Prod.fst = s.resolveManagement.users :=
    (List.zipIdx_map_fst 0 s.users).trans (congrArg Core.users hsent).symm
  obtain ⟨hlisted, haborted⟩ := stillListed_users hevents
    ((congrArg Core.aborted hsent).trans hrunning) hstart
  have hcore := core_step_response haborted hstage fresh clockSynced uplink
  have husers : (t.step (.nextStage index fresh clockSynced uplink)).users =
      doc.keeps (listed.map Prod.fst) := (congrArg Core.users hcore).trans (by rw [hlisted])
  have hconfigs : (t.step (.nextStage index fresh clockSynced uplink)).uploadConfigs =
      dropUploads t.uploadConfigs (doc.reported (listed.map Prod.fst)) :=
    (congrArg Core.uploadConfigs hcore).trans (by rw [hlisted])
  constructor
  · intro h
    refine ⟨?_, ?_⟩
    · rw [husers]
      exact h.users
    · rw [hconfigs]
      exact h.uploadConfigs
  · intro hnodup h
    refine InStep.of_synchronised ?_ husers hconfigs h
    have hsub := (stillListed_sublist events s.resolveManagement s.users.zipIdx).map
      fun e : User × Nat => e.1.id
    have hall : s.users.zipIdx.map (fun e => e.1.id) = s.users.map User.id := by
      conv_rhs => rw [← List.zipIdx_map_fst 0 s.users, List.map_map]
      rfl
    rw [hall] at hsub
    exact hnodup.sublist hsub

end State

/-- Three users, the second of them with an upload configuration. -/
def threeUsers : StoredConfig Unit where
  users := [⟨1, "a@example.com", "00-01", "A"⟩, ⟨2, "b@example.com", "00-02", "B"⟩,
    ⟨3, "c@example.com", "00-03", "C"⟩]
  keys _ _ := none
  uuid := "charger"
  enable := true
  serviceTokenUserUuid := ""
  uploadConfigs := [⟨2, 0⟩]
  ids_in_range := by decide

/-- The relay does not know the second of three users; another one is removed meanwhile. -/
def removedMeanwhile (id : Nat) : List (Event Unit) :=
  [.removeUser ⟨8, true, true, .ok id⟩, .responseChunk { document := .ok {
          configuredUsers := [.integer 1, .integer 0, .integer 1]
          configuredUsersEmails := [.string "a@example.org"]
          configuredUsersUuids := [.string "00-01"] } },
    .requestFinished]

/-- With a user behind removed, the second one goes and the first one has the new address. -/
theorem response_synchronises_behind :
    let s : State Unit := threeUsers.setup
    let t := run State.step s.resolveManagement (removedMeanwhile 3)
    Synchronised t.responseBody.answer
      (s.resolveManagement.stillListed s.users.zipIdx (removedMeanwhile 3)) t
      (t.step (.nextStage 0 (.error "") true true)) :=
  (State.response_synchronises threeUsers.setup rfl (removedMeanwhile 3) (by decide) 0 (.error "")
    true true rfl).1
    ⟨by decide, by decide, by decide⟩

/-- With the user in front removed, the third one goes in place of the second, which gets the address of the
first one. -/
theorem response_removes_other :
    let s : State Unit := threeUsers.setup
    let t := run State.step s.resolveManagement (removedMeanwhile 1)
    t.nextStages[0]? = some (.management false (s.users.map User.requested)) ∧
    ¬ Synchronised t.responseBody.answer
      (s.resolveManagement.stillListed s.users.zipIdx (removedMeanwhile 1)) t
      (t.step (.nextStage 0 (.error "") true true)) := by
  intro s t
  refine ⟨rfl, fun h => ?_⟩
  have hlisted : ((s.resolveManagement.stillListed s.users.zipIdx (removedMeanwhile 1)).filter
      fun entry => !t.responseBody.answer.reports entry.2) =
        [(⟨3, "c@example.com", "00-03", "C"⟩, 2)] := by decide
  have hleft : (t.step (.nextStage 0 (.error "") true true)).users =
      [⟨2, "a@example.org", "00-01", "B"⟩] := by decide
  have hid : ∀ user ∈ (t.step (.nextStage 0 (.error "") true true)).users, user.id = 3 := by
    intro user huser
    obtain ⟨entry, hentry, hright⟩ := exists_of_forall₂ h.users.flip huser
    rw [hlisted] at hentry
    obtain rfl := List.mem_singleton.mp hentry
    obtain rfl | rfl := hright
    · rfl
    · exact Document.update_id _ _ _
  rw [hleft] at hid
  exact absurd (hid _ List.mem_cons_self) (by decide)

end Esp32Firmware.RemoteAccess
