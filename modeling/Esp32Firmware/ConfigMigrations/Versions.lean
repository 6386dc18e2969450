import Esp32Firmware.ConfigMigrations.Migrate

/-!
# Versions of the configuration

A version that the firmware writes is the one it reads back. The loop over the migrations executes
exactly those that are newer, and migrated files need no further migration.
-/

namespace Esp32Firmware.ConfigMigrations

namespace Version

variable {a b c : Version}

theorem lessThan_iff : a.lessThan b = true ↔
    a.major.toNat < b.major.toNat ∨ a.major.toNat = b.major.toNat ∧
      (a.minor.toNat < b.minor.toNat ∨ a.minor.toNat = b.minor.toNat ∧
        a.patch.toNat < b.patch.toNat) := by
  simp only [lessThan, Bool.or_eq_true, Bool.and_eq_true, decide_eq_true_iff, beq_iff_eq,
    UInt8.lt_iff_toNat_lt, ← UInt8.toNat_inj]
  omega

theorem lessThan_trans (hab : a.lessThan b = true) (hbc : b.lessThan c = true) :
    a.lessThan c = true := by
  rw [lessThan_iff] at hab hbc ⊢
  omega

theorem lessThan_asymm (hab : a.lessThan b = true) : b.lessThan a = false := by
  rw [← Bool.not_eq_true, lessThan_iff]
  rw [lessThan_iff] at hab
  omega

theorem lessThan_irrefl (a : Version) : a.lessThan a = false := by
  rw [← Bool.not_eq_true, lessThan_iff]
  omega

theorem takeWhile_append_stop {α : Type*} {p : α → Bool} {as rest : List α} {a : α}
    (has : ∀ a ∈ as, p a = true) (ha : p a = false) :
    (as ++ a :: rest).takeWhile p = as ∧ (as ++ a :: rest).dropWhile p = a :: rest := by
  induction as with
  | nil => simp [ha]
  | cons first as ih =>
    rw [List.forall_mem_cons] at has
    obtain ⟨htake, hdrop⟩ := ih has.2
    rw [List.cons_append, List.takeWhile_cons, List.dropWhile_cons, if_pos has.1, if_pos has.1,
      htake, hdrop]
    exact ⟨rfl, rfl⟩

/-- The digits of a number. -/
def number (n : UInt8) : List Char := (toString n.toNat).toList

variable (n : UInt8)

theorem number_eq : number n = Nat.toDigits 10 n.toNat := Nat.toList_repr

theorem toInt_number : toInt (number n) = n.toNat := by
  have hall : ∀ n : Fin 256, toInt (Nat.toDigits 10 n.1) = n.1 := by decide +kernel
  exact (congrArg toInt (number_eq n)).trans (hall ⟨n.toNat, n.toNat_lt⟩)

theorem isDigit_number {n : UInt8} {c : Char} (hc : c ∈ number n) : c.isDigit = true := by
  have hall : ∀ n : Fin 256, (Nat.toDigits 10 n.1).all Char.isDigit = true := by decide +kernel
  rw [number_eq] at hc
  exact List.all_eq_true.mp (hall ⟨n.toNat, n.toNat_lt⟩) c hc

theorem number_ne {n : UInt8} {c d : Char} (hd : d.isDigit = false) (hc : c ∈ number n) :
    c ≠ d := by
  intro heq
  rw [heq] at hc
  exact absurd (isDigit_number hc) (by simp [hd])

theorem text_toList (v : Version) :
    v.text.toList = number v.major ++ '.' :: (number v.minor ++ '.' :: number v.patch) := by
  simp [text, number]

theorem afterDot_number (rest : List Char) :
    afterDot (number n ++ '.' :: rest) = some rest := by
  have hnumber : ∀ c ∈ number n, decide (c ≠ '.') = true := fun c hc =>
    decide_eq_true (number_ne (by decide) hc)
  rw [afterDot, (takeWhile_append_stop hnumber (by decide)).2]

theorem takeWhile_number (rest : List Char) :
    (number n ++ '.' :: rest).takeWhile (· ≠ '.') = number n := by
  have hnumber : ∀ c ∈ number n, decide (c ≠ '.') = true := fun c hc =>
    decide_eq_true (number_ne (by decide) hc)
  exact (takeWhile_append_stop hnumber (by decide)).1

theorem ofInt_toNat : UInt8.ofInt n.toNat = n := by
  apply UInt8.toNat_inj.mp
  have hlt := n.toNat_lt
  rw [UInt8.ofInt, UInt8.toNat_ofNat']
  omega

/-- A printed version is read back. -/
theorem ofChars_text (v : Version) : ofChars v.text.toList = v := by
  rw [text_toList, ofChars, afterDot_number, takeWhile_number]
  dsimp only [Option.getD_some]
  rw [afterDot_number, takeWhile_number, Option.getD_some, toInt_number, toInt_number,
    toInt_number, ofInt_toNat, ofInt_toNat, ofInt_toNat]

theorem isDigit_or_dot {v : Version} {c : Char} (hc : c ∈ v.text.toList) :
    c.isDigit = true ∨ c = '.' := by
  rw [text_toList] at hc
  simp only [List.mem_append, List.mem_cons] at hc
  rcases hc with hc | hc | hc | hc | hc
  · exact .inl (isDigit_number hc)
  · exact .inr hc
  · exact .inl (isDigit_number hc)
  · exact .inr hc
  · exact .inl (isDigit_number hc)

/-- Only digits and dots are printed. -/
theorem not_mem_text {c : Char} (hdigit : c.isDigit = false) (hdot : c ≠ '.') (v : Version) :
    c ∉ v.text.toList := by
  intro hc
  rcases isDigit_or_dot hc with h | h
  · exact absurd (hdigit.symm.trans h) (by decide)
  · exact hdot h

end Version

namespace Firmware

open Version

variable (firmware : Firmware)

theorem currentOf_printed (v : Version) (configType : String) :
    currentOf ⟨v.text, some configType⟩ = ⟨v, configType, false⟩ := by
  have htake : v.text.toList.takeWhile (· ≠ '-') = v.text.toList := by
    rw [List.takeWhile_eq_self_iff]
    exact fun c hc => decide_eq_true fun heq => not_mem_text (by decide) (by decide) v (heq ▸ hc)
  have hcontains : v.text.toList.contains '-' = false := by
    rw [← Bool.not_eq_true, List.contains_iff_mem]
    exact not_mem_text (by decide) (by decide) v
  rw [currentOf, htake, ofChars_text, hcontains]
  rfl

/-- What is known about files with a version of this firmware. -/
theorem readVersion_insert (dir : Dir) (v : Version) :
    firmware.readVersion (dir.insert "version" (firmware.versionText v)) =
      ⟨v, firmware.configType, false⟩ := by
  rw [readVersion, Finmap.lookup_insert]
  dsimp only
  rw [versionText, firmware.deserialize_printed, currentOf_printed]

theorem mismatch_own (v : Version) (writeVersionFile : Bool) :
    firmware.mismatch ⟨v, firmware.configType, writeVersionFile⟩ = false := by
  simp [mismatch]

variable {migrations : List ConfigMigration}

/-- The loop executes the newer migrations. -/
theorem executed_eq {current : Version}
    (hordered : migrations.Pairwise fun a b => a.version.lessThan b.version) :
    let newer := migrations.filter fun mig => current.lessThan mig.version
    executed current migrations =
      (newer, (newer.getLast?.map ConfigMigration.version).getD current) := by
  induction migrations generalizing current with
  | nil => rfl
  | cons mig rest ih =>
    obtain ⟨hfirst, hrest⟩ := List.pairwise_cons.mp hordered
    dsimp only
    rw [executed]
    cases hnewer : current.lessThan mig.version with
    | false =>
      rw [if_neg Bool.false_ne_true, List.filter_cons_of_neg (by simp [hnewer])]
      exact ih hrest
    | true =>
      have hall (bound : Version) (h : ∀ other ∈ rest, bound.lessThan other.version = true) :
          rest.filter (fun other => bound.lessThan other.version) = rest :=
        List.filter_eq_self.mpr h
      have hlater := hall current fun other hother =>
        lessThan_trans hnewer (hfirst other hother)
      rw [if_pos rfl, List.filter_cons_of_pos (by simp [hnewer]), hlater, ih hrest,
        hall mig.version hfirst]
      cases hlast : rest.getLast? with
      | none =>
        rw [List.getLast?_eq_none_iff.mp hlast]
        rfl
      | some last =>
        have hcons : (mig :: rest).getLast? = some last := by
          rw [List.getLast?_cons, hlast]
          rfl
        rw [hcons]
        rfl

/-- No migration is newer than the last one. -/
theorem not_newer_than_last {migrations : List ConfigMigration}
    (hordered : migrations.Pairwise fun a b => a.version.lessThan b.version)
    {last mig : ConfigMigration} (hlast : migrations.getLast? = some last)
    (hmig : mig ∈ migrations) : last.version.lessThan mig.version = false := by
  obtain ⟨before, rfl⟩ := List.getLast?_eq_some_iff.mp hlast
  rw [List.mem_append, List.mem_singleton] at hmig
  rcases hmig with hmig | rfl
  · exact lessThan_asymm ((List.pairwise_append.mp hordered).2.2 mig hmig last (by simp))
  · exact lessThan_irrefl _

/-- No migration is newer than the newest one that was executed. -/
theorem newer_of_last (hordered : migrations.Pairwise fun a b => a.version.lessThan b.version)
    (current : Version) :
    let newer := migrations.filter fun mig => current.lessThan mig.version
    (migrations.filter fun mig =>
      ((newer.getLast?.map ConfigMigration.version).getD current).lessThan mig.version) = [] := by
  dsimp only
  rw [List.filter_eq_nil_iff]
  intro mig hmig hlater
  cases hlast : (migrations.filter fun mig => current.lessThan mig.version).getLast? with
  | none =>
    rw [hlast] at hlater
    rw [List.getLast?_eq_none_iff, List.filter_eq_nil_iff] at hlast
    exact hlast mig hmig hlater
  | some last =>
    rw [hlast] at hlater
    change last.version.lessThan mig.version = true at hlater
    have hnewer := (List.mem_filter.mp (List.mem_of_getLast? hlast)).2
    have hmem : mig ∈ migrations.filter fun mig => current.lessThan mig.version :=
      List.mem_filter.mpr ⟨hmig, lessThan_trans hnewer hlater⟩
    rw [not_newer_than_last (hordered.filter _) hlast hmem] at hlater
    cases hlater

/-- The version after the newer migrations. -/
def finalVersion (dir : Dir) : Version :=
  ((firmware.newer dir).getLast?.map ConfigMigration.version).getD
    (firmware.readVersion dir).version

theorem executed_readVersion (dir : Dir) :
    executed (firmware.readVersion dir).version firmware.migrations =
      (firmware.newer dir, firmware.finalVersion dir) :=
  executed_eq firmware.ordered

variable {firmware} {dir outside : Dir}

theorem result_of_mismatch (h : firmware.mismatch (firmware.readVersion dir) = true) :
    firmware.result dir outside = dir := by
  rw [result, if_pos h]

theorem result_of_current (h : firmware.mismatch (firmware.readVersion dir) = false)
    (hnewer : firmware.newer dir = [])
    (hwrite : (firmware.readVersion dir).writeVersionFile = false) :
    firmware.result dir outside = dir := by
  rw [result, if_neg (Bool.not_eq_true _ ▸ h), if_pos ⟨hnewer, hwrite⟩]

theorem result_of_newer (h : firmware.mismatch (firmware.readVersion dir) = false)
    (hwrite : firmware.newer dir ≠ [] ∨ (firmware.readVersion dir).writeVersionFile = true) :
    firmware.result dir outside = (migrated (firmware.newer dir) dir outside).insert "version"
      (firmware.versionText (firmware.finalVersion dir)) := by
  rw [result, if_neg (Bool.not_eq_true _ ▸ h), if_neg]
  · rfl
  · rintro ⟨hnewer, hkept⟩
    rcases hwrite with hwrite | hwrite
    · exact hwrite hnewer
    · exact absurd (hwrite.symm.trans hkept) (by decide)

/-- Files that were migrated stay as they are. -/
theorem result_result (dir outside outside' : Dir) :
    firmware.result (firmware.result dir outside) outside' = firmware.result dir outside := by
  cases hmismatch : firmware.mismatch (firmware.readVersion dir) with
  | true => rw [result_of_mismatch hmismatch, result_of_mismatch hmismatch]
  | false =>
    by_cases hwrite : firmware.newer dir ≠ [] ∨ (firmware.readVersion dir).writeVersionFile = true
    · have hread : firmware.readVersion (firmware.result dir outside) =
          ⟨firmware.finalVersion dir, firmware.configType, false⟩ := by
        rw [result_of_newer hmismatch hwrite, readVersion_insert]
      apply result_of_current
      · rw [hread, mismatch_own]
      · rw [newer, hread]
        exact newer_of_last firmware.ordered _
      · rw [hread]
    · obtain ⟨hnewer, hkept⟩ := not_or.mp hwrite
      rw [result_of_current hmismatch (not_not.mp hnewer) (Bool.not_eq_true _ ▸ hkept),
        result_of_current hmismatch (not_not.mp hnewer) (Bool.not_eq_true _ ▸ hkept)]

theorem migrated_local (h : ∀ mig ∈ migrations, mig.Local) (dir outside outside' : Dir) :
    migrated migrations dir outside = migrated migrations dir outside' := by
  induction migrations generalizing dir outside outside' with
  | nil => rfl
  | cons mig rest ih =>
    rw [List.forall_mem_cons] at h
    have hstep : ∀ outside, migrated (mig :: rest) dir outside =
        migrated rest (migrate (dir, outside) mig).1 (migrate (dir, outside) mig).2 :=
      fun _ => rfl
    have hcopy : (migrate (dir, outside) mig).1 = (migrate (dir, outside') mig).1 :=
      congrArg (run applyDir dir) (h.1 dir outside outside')
    rw [hstep, hstep, hcopy]
    exact ih h.2 _ _ _

/-- Migrations that only look at their copy lead to the same result, whatever is outside. -/
theorem result_local (h : ∀ mig ∈ firmware.newer dir, mig.Local) (outside' : Dir) :
    firmware.result dir outside = firmware.result dir outside' := by
  rw [result, result, migrated_local h dir outside outside']

end Firmware

end Esp32Firmware.ConfigMigrations
