import Esp32Firmware.Library.CivilDates
import Mathlib.Data.Int.Interval

/-!
# Cron rules

When a cron rule applies to a local time, and which samples of the clock raise the trigger.

## Implementation notes

A time zone has a standard offset and one for the summer, both in quarters of an hour, and changes
its clocks at full minutes. `mktime` takes the offset from `tm_isdst`, as `localtime` has set it.
A sample of the clock counts the microseconds since 1970-01-01. A local minute begins with a second
whose local minute is not that of the second before. The clock can be set as long as it is not
synchronised.
-/

namespace Esp32Firmware.Automation.Cron

open CivilDates

section

/-- A time zone rule. Which of the offsets applies depends on the time only. -/
structure TimeZone where
  standard : ℤ
  daylight : ℤ
  isDst : ℤ → Bool
  standard_quarter : standard % 900 = 0
  daylight_quarter : daylight % 900 = 0
  aligned : ∀ t, isDst t = isDst (t / 60 * 60)
  near : -86400 < daylight - standard ∧ daylight - standard < 86400

variable (zone : TimeZone)

def TimeZone.offsetOf (isdst : Bool) : ℤ := if isdst then zone.daylight else zone.standard

def TimeZone.offset (t : ℤ) : ℤ := zone.offsetOf (zone.isDst t)

/-- The local time as seconds since 1970-01-01. -/
def TimeZone.localSeconds (t : ℤ) : ℤ := t + zone.offset t

def localtime (t : ℤ) : StructTm :=
  { gmtime (zone.localSeconds t) with isdst := zone.isDst t }

def mktime (tm : StructTm) : ℤ := tm.utc - zone.offsetOf tm.isdst

theorem mktime_localtime (t : ℤ) : mktime zone (localtime zone t) = t := by
  have hutc : (localtime zone t).utc = zone.localSeconds t := utc_gmtime _
  rw [mktime, hutc]
  change t + zone.offset t - zone.offset t = t
  omega

theorem offset_quarter (t : ℤ) : zone.offset t % 900 = 0 := by
  have hstandard := zone.standard_quarter
  have hdaylight := zone.daylight_quarter
  rw [TimeZone.offset, TimeZone.offsetOf]
  split_ifs <;> assumption

theorem offset_near (t t' : ℤ) :
    -86400 < zone.offset t' - zone.offset t ∧ zone.offset t' - zone.offset t < 86400 := by
  have hnear := zone.near
  simp only [TimeZone.offset, TimeZone.offsetOf]
  split_ifs <;> omega

/-- The offset stays the same for a minute. -/
theorem offset_eq {t t' : ℤ} (h : t / 60 = t' / 60) : zone.offset t = zone.offset t' := by
  rw [TimeZone.offset, TimeZone.offset, zone.aligned t, zone.aligned t', h]

end

section

/-- The configuration of a cron trigger. -/
structure CronConfig where
  mday : ℤ
  wday : ℤ
  hour : ℤ
  minute : ℤ
  mday_range : -1 ≤ mday ∧ mday ≤ 32
  wday_range : -1 ≤ wday ∧ wday ≤ 9
  hour_range : -1 ≤ hour ∧ hour ≤ 23
  minute_range : -1 ≤ minute ∧ minute ≤ 59

variable (zone : TimeZone) (cfg : CronConfig)

def isLastDay (time : StructTm) : Bool :=
  let nextDay := mktime zone time + 24 * 60 * 60
  time.mon != (localtime zone nextDay).mon

/-- `has_triggered` for a cron trigger. -/
def hasTriggered (time : StructTm) : Bool :=
  let triggered :=
    if cfg.wday = -1 then
      (cfg.mday == time.mday || cfg.mday == -1 || cfg.mday == 0) ||
        (cfg.mday == 32 && isLastDay zone time)
    else if 7 < cfg.wday then
      (cfg.wday == 8 && decide (0 < time.wday) && decide (time.wday < 6)) ||
        (cfg.wday == 9 && (time.wday == 0 || decide (6 ≤ time.wday)))
    else cfg.wday % 7 == time.wday
  let triggered := (cfg.hour == time.hour || cfg.hour == -1) && triggered
  (cfg.minute == time.min || cfg.minute == -1) && triggered

/-- The day of the week, Sunday is 0. -/
def weekday (day : ℤ) : ℤ := (day + 4) % 7

/-- The rule is for this day of the calendar. -/
def CronConfig.DayMatches (day : ℤ) : Prop :=
  if cfg.wday = 8 then 1 ≤ weekday day ∧ weekday day ≤ 5
  else if cfg.wday = 9 then weekday day = 0 ∨ weekday day = 6
  else if cfg.wday ≠ -1 then weekday day = cfg.wday ∨ (weekday day = 0 ∧ cfg.wday = 7)
  else if cfg.mday = -1 ∨ cfg.mday = 0 then True
  else if cfg.mday = 32 then IsLastDay day
  else (ofDays day).day = cfg.mday

/-- The rule is for this hour and minute. -/
def CronConfig.TimeMatches (seconds : ℤ) : Prop :=
  (cfg.hour = -1 ∨ cfg.hour = seconds % 86400 / 3600) ∧
    (cfg.minute = -1 ∨ cfg.minute = seconds % 3600 / 60)

/-- The rule is for this local time. -/
def CronConfig.Matches (seconds : ℤ) : Prop :=
  cfg.TimeMatches seconds ∧ cfg.DayMatches (seconds / 86400)

/-- The local date. -/
def TimeZone.day (t : ℤ) : ℤ := zone.localSeconds t / 86400

/-- A day later it is still the last day of a month, or the last day was left out. -/
def SkipsLastDay (t : ℤ) : Prop :=
  (zone.day (t + 86400) = zone.day t ∧ IsLastDay (zone.day t)) ∨
    (zone.day (t + 86400) = zone.day t + 2 ∧ ¬IsLastDay (zone.day t) ∧ IsLastDay (zone.day t + 1))

variable {zone cfg} {t : ℤ} (zone : TimeZone)

theorem day_next (t : ℤ) :
    zone.day t ≤ zone.day (t + 86400) ∧ zone.day (t + 86400) ≤ zone.day t + 2 := by
  have hnear := offset_near zone t (t + 86400)
  simp only [TimeZone.day, TimeZone.localSeconds]
  omega

/-- The code finds the last day of the month except around some changes of the clock. -/
theorem isLastDay_iff (t : ℤ) :
    (isLastDay zone (localtime zone t) ↔ IsLastDay (zone.day t)) ↔ ¬SkipsLastDay zone t := by
  have hcode : isLastDay zone (localtime zone t) ↔
      (ofDays (zone.day (t + 86400))).month ≠ (ofDays (zone.day t)).month := by
    have hnext : mktime zone (localtime zone t) + 24 * 60 * 60 = t + 86400 := by
      rw [mktime_localtime]
      omega
    rw [isLastDay, hnext]
    simp only [localtime, gmtime, TimeZone.day, bne_iff_ne, ne_eq]
    omega
  obtain ⟨hlow, hhigh⟩ := day_next zone t
  rw [hcode, SkipsLastDay]
  obtain hday | hday | hday : zone.day (t + 86400) = zone.day t ∨
      zone.day (t + 86400) = zone.day t + 1 ∨ zone.day (t + 86400) = zone.day t + 2 := by omega
  · have hne : zone.day t ≠ zone.day t + 2 := by omega
    simp [hday, hne]
  · have hne : zone.day t + 1 ≠ zone.day t := by omega
    have hne' : zone.day t + 1 ≠ zone.day t + 2 := by omega
    simp [hday, hne, hne', IsLastDay]
  · have hne : zone.day t + 2 ≠ zone.day t := by omega
    have htwo := @IsLastDay.month_add_two (zone.day t)
    have hstep : IsLastDay (zone.day t + 1) ↔
        (ofDays (zone.day t + 2)).month ≠ (ofDays (zone.day t + 1)).month := by
      rw [IsLastDay, show zone.day t + 1 + 1 = zone.day t + 2 by omega]
    rw [hday, hstep]
    by_cases hlast : IsLastDay (zone.day t)
    · simp [hne, hlast, htwo hlast]
    · have hsame : (ofDays (zone.day t + 1)).month = (ofDays (zone.day t)).month := by
        rwa [IsLastDay, not_not] at hlast
      simp [hne, hlast, hsame]

/-- What the code accepts, with its own test for the last day of the month. -/
theorem hasTriggered_iff (cfg : CronConfig) (t : ℤ) :
    hasTriggered zone cfg (localtime zone t) ↔ cfg.TimeMatches (zone.localSeconds t) ∧
      if cfg.wday = -1 ∧ cfg.mday = 32 then isLastDay zone (localtime zone t) = true
      else cfg.DayMatches (zone.day t) := by
  have hdom := day_le (zone.day t)
  obtain ⟨hlow, hhigh⟩ := cfg.wday_range
  have hweek : 0 ≤ weekday (zone.day t) ∧ weekday (zone.day t) ≤ 6 := by
    rw [weekday]
    omega
  have hmin : (localtime zone t).min = zone.localSeconds t % 3600 / 60 := rfl
  have hhour : (localtime zone t).hour = zone.localSeconds t % 86400 / 3600 := rfl
  have hmday : (localtime zone t).mday = (ofDays (zone.day t)).day := rfl
  have hwday : (localtime zone t).wday = weekday (zone.day t) := rfl
  simp only [hasTriggered, CronConfig.TimeMatches, CronConfig.DayMatches, hmin, hhour, hmday, hwday]
  generalize isLastDay zone (localtime zone t) = last
  by_cases hrule : cfg.wday = -1
  · by_cases hend : cfg.mday = 32
    · have hother : (32 : ℤ) ≠ (ofDays (zone.day t)).day := by omega
      simp [hrule, hend, hother]
      tauto
    · by_cases hany : cfg.mday = -1 ∨ cfg.mday = 0
      · simp [hrule, hend, hany]
        omega
      · simp [hrule, hend, hany]
        omega
  · by_cases hspecial : cfg.wday = 8 ∨ cfg.wday = 9
    · obtain hrule | hrule := hspecial <;> simp [hrule] <;> omega
    · have hshort : ¬7 < cfg.wday := by omega
      have height : cfg.wday ≠ 8 := by omega
      have hnine : cfg.wday ≠ 9 := by omega
      simp [hrule, hshort, height, hnine]
      omega

/-- The rules that depend on the last day of the month. -/
def CronConfig.ForLastDay : Prop := cfg.wday = -1 ∧ cfg.mday = 32

theorem hasTriggered_correct_iff (cfg : CronConfig) (t : ℤ) :
    (hasTriggered zone cfg (localtime zone t) ↔ cfg.Matches (zone.localSeconds t)) ↔
      ¬(cfg.ForLastDay ∧ cfg.TimeMatches (zone.localSeconds t) ∧ SkipsLastDay zone t) := by
  rw [hasTriggered_iff, CronConfig.Matches, CronConfig.ForLastDay]
  change (_ ↔ _ ∧ cfg.DayMatches (zone.day t)) ↔ _
  by_cases hrule : cfg.wday = -1 ∧ cfg.mday = 32
  · have hday : cfg.DayMatches (zone.day t) ↔ IsLastDay (zone.day t) := by
      simp [CronConfig.DayMatches, hrule.1, hrule.2]
    have hlast := isLastDay_iff zone t
    rw [if_pos hrule, hday]
    tauto
  · rw [if_neg hrule]
    tauto

end

section

variable (zone : TimeZone) (threshold : ℤ)

def secondsOf (now : ℤ) : ℤ := now / 1000000

def timestampAcceptable (now : ℤ) : Bool := threshold ≤ secondsOf now

/-- What the task for the cron triggers keeps from the sample before. -/
structure CronTask where
  lastMin : ℤ := 0
  wasSynced : Bool := false

variable (task : CronTask) (now : ℤ)

/-- A run of the task raises the trigger for a new minute if the clock was synchronised before. -/
def CronTask.raises : Bool :=
  task.wasSynced && (localtime zone (secondsOf now)).min != task.lastMin

/-- What a run of the task keeps. -/
def taskAfter : CronTask where
  lastMin := (localtime zone (secondsOf now)).min
  wasSynced := timestampAcceptable threshold now

/-- For each sample whether the trigger is raised. -/
def raisings : CronTask → List ℤ → List Bool
  | _, [] => []
  | task, now :: rest => task.raises zone now :: raisings (taskAfter zone threshold now) rest

/-- A local minute begins with this second. -/
def MinuteBegins (t : ℤ) : Prop := zone.localSeconds t / 60 ≠ zone.localSeconds (t - 1) / 60

instance : DecidablePred (MinuteBegins zone) := fun _ => inferInstanceAs (Decidable (_ ≠ _))

/-- The number of local minutes that begin between two samples. -/
def minutesBetween (before now : ℤ) : ℕ :=
  ((@Finset.Ioc ℤ _ Int.instLocallyFiniteOrder (secondsOf before) (secondsOf now)).filter
    (MinuteBegins zone)).card

/-- The local minutes that begin while the clock is synchronised, for each sample. -/
def minutesBegun : List ℤ → List ℕ
  | [] => []
  | first :: rest => 0 :: (first :: rest).zipWith (fun before now =>
    if timestampAcceptable threshold before then minutesBetween zone before now else 0) rest

/-- The next sample follows in less than a minute, unless the clock may be set. -/
def Follows (before now : ℤ) : Prop :=
  timestampAcceptable threshold before → before ≤ now ∧ now < before + 60 * 1000000

variable {zone threshold}

/-- Local minutes begin with the full minutes. -/
theorem minuteBegins_iff (t : ℤ) : MinuteBegins zone t ↔ t % 60 = 0 := by
  have hquarter := offset_quarter zone t
  have hquarter' := offset_quarter zone (t - 1)
  rw [MinuteBegins, TimeZone.localSeconds, TimeZone.localSeconds]
  by_cases hfull : t % 60 = 0
  · omega
  · have hsame : zone.offset t = zone.offset (t - 1) := offset_eq zone (by omega)
    omega

theorem minutesBetween_eq {before now : ℤ} (hle : before ≤ now)
    (hlt : now < before + 60 * 1000000) :
    minutesBetween zone before now =
      if secondsOf before / 60 = secondsOf now / 60 then 0 else 1 := by
  have hbound : secondsOf before ≤ secondsOf now ∧ secondsOf now ≤ secondsOf before + 60 := by
    simp only [secondsOf]
    omega
  split_ifs with hsame
  · rw [minutesBetween, Finset.card_eq_zero, Finset.filter_eq_empty_iff]
    intro t ht
    rw [Finset.mem_Ioc] at ht
    rw [minuteBegins_iff]
    omega
  · rw [minutesBetween, Finset.card_eq_one]
    refine ⟨secondsOf now / 60 * 60, ?_⟩
    ext t
    rw [Finset.mem_filter, Finset.mem_Ioc, Finset.mem_singleton, minuteBegins_iff]
    omega

/-- Two samples less than a minute apart show the same minute only if they are in it. -/
theorem min_eq_iff {t t' : ℤ} (hle : t ≤ t') (hlt : t' ≤ t + 60) :
    (localtime zone t').min = (localtime zone t).min ↔ t / 60 = t' / 60 := by
  have hquarter := offset_quarter zone t
  have hquarter' := offset_quarter zone t'
  change zone.localSeconds t' % 3600 / 60 = zone.localSeconds t % 3600 / 60 ↔ _
  rw [TimeZone.localSeconds, TimeZone.localSeconds]
  constructor
  · intro hmin
    omega
  · intro hsame
    rw [offset_eq zone hsame]
    omega

/-- A sample raises the trigger once for a minute that begins, if the sample before was synced. -/
theorem raises_taskAfter {before now : ℤ} (h : Follows threshold before now) :
    ((taskAfter zone threshold before).raises zone now).toNat =
      if timestampAcceptable threshold before then minutesBetween zone before now else 0 := by
  rw [CronTask.raises, taskAfter]
  by_cases hsynced : timestampAcceptable threshold before
  · obtain ⟨hle, hlt⟩ := h hsynced
    have hbound : secondsOf before ≤ secondsOf now ∧ secondsOf now ≤ secondsOf before + 60 := by
      simp only [secondsOf]
      omega
    have hmin := @min_eq_iff zone _ _ hbound.1 hbound.2
    rw [if_pos hsynced, minutesBetween_eq hle hlt]
    by_cases hsame : secondsOf before / 60 = secondsOf now / 60
    · simp [hsame, hmin.mpr hsame]
    · simp [hsame, hsynced, mt hmin.mp hsame]
  · simp [hsynced]

theorem raisings_taskAfter {first : ℤ} {rest : List ℤ}
    (h : (first :: rest).IsChain (Follows threshold)) :
    (raisings zone threshold (taskAfter zone threshold first) rest).map Bool.toNat =
      (first :: rest).zipWith (fun before now =>
        if timestampAcceptable threshold before then minutesBetween zone before now else 0)
        rest := by
  induction rest generalizing first with
  | nil => simp [raisings]
  | cons now rest ih =>
    rw [List.isChain_cons_cons] at h
    rw [raisings, List.map_cons, ih h.2, raises_taskAfter h.1, List.zipWith_cons_cons]

/-- The trigger is raised once for each minute that begins while the clock is synchronised. -/
theorem raisings_eq {samples : List ℤ} (h : samples.IsChain (Follows threshold)) :
    (raisings zone threshold {} samples).map Bool.toNat = minutesBegun zone threshold samples := by
  cases samples with
  | nil => simp [raisings, minutesBegun]
  | cons first rest =>
    have hfirst : ({} : CronTask).raises zone first = false := by
      simp [CronTask.raises]
    rw [raisings, List.map_cons, raisings_taskAfter h, hfirst, minutesBegun, Bool.toNat_false]

end

/-- A rule applies exactly to the local times it is for, except that a rule for the last day of the
month fails where a day later it is still that day, or where that day was left out. The trigger is
raised once for each local minute that begins while the clock is synchronised. -/
theorem cron_rules (zone : TimeZone) (threshold : ℤ) (cfg : CronConfig) :
    (∀ t, (hasTriggered zone cfg (localtime zone t) ↔ cfg.Matches (zone.localSeconds t)) ↔
      ¬(cfg.ForLastDay ∧ cfg.TimeMatches (zone.localSeconds t) ∧ SkipsLastDay zone t)) ∧
    ∀ samples : List ℤ, samples.IsChain (Follows threshold) →
      (raisings zone threshold {} samples).map Bool.toNat =
        minutesBegun zone threshold samples := by
  constructor
  · intro t
    exact hasTriggered_correct_iff zone cfg t
  · intro samples h
    exact raisings_eq h

/-- Central European time with the summer of 2021. -/
def centralEurope : TimeZone where
  standard := 3600
  daylight := 7200
  isDst t := decide (1616893200 ≤ t) && decide (t < 1635642000)
  standard_quarter := rfl
  daylight_quarter := rfl
  aligned t := by
    rw [Bool.eq_iff_iff]
    simp only [Bool.and_eq_true, decide_eq_true_eq]
    omega
  near := by constructor <;> omega

/-- At midnight of the last day of each month. -/
def lastMidnight : CronConfig where
  mday := 32
  wday := -1
  hour := 0
  minute := 0
  mday_range := by constructor <;> omega
  wday_range := by constructor <;> omega
  hour_range := by constructor <;> omega
  minute_range := by constructor <;> omega

/-- Around a midnight, the first sample from before the clock was set. -/
theorem cron_rules_at_midnight :
    [5000000, 1635631199000000, 1635631200500000].IsChain (Follows 1600000000) ∧
    raisings centralEurope 1600000000 {} [5000000, 1635631199000000, 1635631200500000] =
      [false, false, true] ∧
    (raisings centralEurope 1600000000 {}
        [5000000, 1635631199000000, 1635631200500000]).map Bool.toNat =
      minutesBegun centralEurope 1600000000 [5000000, 1635631199000000, 1635631200500000] := by
  have hchain : [5000000, 1635631199000000, 1635631200500000].IsChain (Follows 1600000000) := by
    simp [Follows, timestampAcceptable, secondsOf]
  exact ⟨hchain, by decide, (cron_rules centralEurope 1600000000 lastMidnight).2 _ hchain⟩

/-- The last day of October 2021 has 25 hours, and the rule does not apply at its midnight. -/
theorem last_midnight_missed :
    ¬(hasTriggered centralEurope lastMidnight (localtime centralEurope 1635631200) ↔
      lastMidnight.Matches (centralEurope.localSeconds 1635631200)) := by
  have hcode : hasTriggered centralEurope lastMidnight (localtime centralEurope 1635631200) =
      false := by decide
  have hmatches : lastMidnight.Matches (centralEurope.localSeconds 1635631200) := by
    have hday : IsLastDay (centralEurope.localSeconds 1635631200 / 86400) := by
      unfold IsLastDay
      decide
    have htime : lastMidnight.TimeMatches (centralEurope.localSeconds 1635631200) := by
      unfold CronConfig.TimeMatches
      decide
    exact ⟨htime, hday⟩
  rw [hcode]
  simp [hmatches]

end Esp32Firmware.Automation.Cron
