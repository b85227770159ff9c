/-
  RefineId.SigningTime — from the system clock to calendar fields.
  ════════════════════════════════════════════════════════════════════════════

  `SigningTime::from_unix_secs` in `crates/refineid-doc-sign/src/cades.rs` turns the seconds
  since 1970 into a date with divisions only: years start in March, so that the leap day is
  the last of its year, and 400 years make one era of 146097 days.

  What it computes is compared with the calendar counted day by day.  Within an era the year
  is found by a quotient that never falls, so that it is enough to look at the first and the
  last day of each year.

  Main results:
    • `dayOfEra_spec`          : the year of an era and the day of that year.
    • `civil_dayNumber`        : the date has the day number it was computed from.
    • `fromUnixSecs_calendar`  : a valid date and time, that many seconds after the epoch; the
                                 conversion is injective and keeps the order.
-/
import RefineId.Cades
import RefineId.Lib.Calendar

namespace RefineId

namespace Cades

open Lib

/-! ## §1. The conversion -/

/-- `u16::try_from(value).unwrap_or(default)` and its like. -/
def narrowOr (max default value : Nat) : Nat := if value ≤ max then value else default

def u8Max : Nat := 2 ^ 8 - 1

def u16Max : Nat := 2 ^ 16 - 1

/-- `year_of_era`. -/
def yearOfEra (dayOfEra : Nat) : Nat :=
  (dayOfEra - dayOfEra / 1460 + dayOfEra / 36524 - dayOfEra / 146096) / 365

/-- The days of an era before a year of it. -/
def eraDays (yearOfEra : Nat) : Nat := 365 * yearOfEra + yearOfEra / 4 - yearOfEra / 100

/-- The date of the day `z`, counted from the first of March of the year 0. -/
def civil (z : Nat) : Date :=
  let era := z / 146097
  let dayOfEra := z - era * 146097
  let yoe := yearOfEra dayOfEra
  let year := yoe + era * 400
  let dayOfYear := dayOfEra - eraDays yoe
  let monthPrime := (5 * dayOfYear + 2) / 153
  let day := dayOfYear - (153 * monthPrime + 2) / 5 + 1
  let month := if monthPrime < 10 then monthPrime + 3 else monthPrime - 9
  ⟨if month ≤ 2 then year + 1 else year, month, day⟩

/-- `SigningTime::from_unix_secs`. -/
def SigningTime.fromUnixSecs (secs : Nat) : SigningTime :=
  let daySecs := secs % 86400
  let date := civil (secs / 86400 + 719468)
  { year := narrowOr u16Max 1970 date.year
    month := narrowOr u8Max 1 date.month
    day := narrowOr u8Max 1 date.day
    hour := narrowOr u8Max 0 (daySecs / 3600)
    minute := narrowOr u8Max 0 (daySecs / 60 % 60)
    second := narrowOr u8Max 0 (daySecs % 60) }

/-! ## §2. The calendar's side -/

/-- The date of a signing time. -/
def SigningTime.date (t : SigningTime) : Date := ⟨t.year, t.month, t.day⟩

/-- A date of the calendar and a time of day. -/
structure SigningTime.Valid (t : SigningTime) : Prop where
  date : t.date.Valid
  hour : t.hour < 24
  minute : t.minute < 60
  second : t.second < 60

/-- Seconds of the day. -/
def SigningTime.daySecs (t : SigningTime) : Nat := t.hour * 3600 + t.minute * 60 + t.second

/-- The day number of the epoch, the first of January 1970. -/
def epochDay : Nat := Date.dayNumber ⟨1970, 1, 1⟩

/-- **Seconds since the epoch**, by counting days. -/
def SigningTime.unixSecs (t : SigningTime) : Nat :=
  (t.date.dayNumber - epochDay) * 86400 + t.daySecs

/-- Earlier by date, then by hour, minute and second. -/
def SigningTime.Before (t t' : SigningTime) : Prop :=
  t.date.Before t'.date ∨ (t.date = t'.date ∧
    (t.hour < t'.hour ∨ (t.hour = t'.hour ∧
      (t.minute < t'.minute ∨ (t.minute = t'.minute ∧ t.second < t'.second)))))

/-- The year of that second fits in 16 bits. -/
def FitsYear (secs : Nat) : Prop := secs / 86400 + epochDay < daysBeforeYear (2 ^ 16)

theorem epochDay_eq : epochDay = 719468 + 60 := by
  have hyears : daysBeforeYear 1970 + 1969 / 100 = 365 * 1970 + 1969 / 4 + 1969 / 400 + 1 :=
    daysBeforeYear_succ_eq 1969
  have hmonths : daysBeforeMonth (isLeap 1970) 1 = 0 := rfl
  simp only [epochDay, Date.dayNumber, hmonths]
  omega

/-! ## §3. Inside an era -/

/-- What is divided by 365 never falls. -/
theorem yearOfEra_mono : Monotone yearOfEra := by
  refine monotone_nat_of_le_succ fun day => ?_
  unfold yearOfEra
  apply Nat.div_le_div_right
  omega

/-- The days of the first 400 years, and the leap day at the end of the last. -/
def lastDay (year : Nat) : Nat := if year = 399 then 146096 else eraDays (year + 1) - 1

/-- On the first and the last day of a year the quotient is that year. -/
theorem yearOfEra_ends (year : Fin 400) :
    yearOfEra (eraDays year) = year ∧ yearOfEra (lastDay year) = year := by
  revert year
  decide +kernel

/-- **The year of an era**, and that the day lies in it. -/
theorem dayOfEra_spec {day : Nat} (h : day < 146097) :
    yearOfEra day < 400 ∧ eraDays (yearOfEra day) ≤ day ∧ day ≤ lastDay (yearOfEra day) := by
  have hlt : yearOfEra day < 400 := by
    have hle := yearOfEra_mono (show day ≤ 146096 by omega)
    have hlast : yearOfEra 146096 = 399 := (yearOfEra_ends 399).2
    omega
  refine ⟨hlt, ?_, ?_⟩
  · -- before its first day the year would be an earlier one
    by_contra hbefore
    have hpos : yearOfEra day ≠ 0 := by
      intro hzero
      rw [hzero] at hbefore
      exact hbefore (Nat.zero_le day)
    obtain ⟨year, hyear⟩ := Nat.exists_eq_succ_of_ne_zero hpos
    have hle : day ≤ lastDay year := by
      rw [hyear] at hbefore
      rw [lastDay, if_neg (by omega)]
      exact Nat.le_sub_one_of_lt (Nat.lt_of_not_le hbefore)
    have hmono := yearOfEra_mono hle
    have hends : yearOfEra (lastDay year) = year := (yearOfEra_ends ⟨year, by omega⟩).2
    omega
  · by_contra hbehind
    by_cases hend : yearOfEra day = 399
    · rw [lastDay, if_pos hend] at hbehind
      omega
    · rw [lastDay, if_neg hend] at hbehind
      have hle : eraDays (yearOfEra day + 1) ≤ day := by omega
      have hmono := yearOfEra_mono hle
      have hends : yearOfEra (eraDays (yearOfEra day + 1)) = yearOfEra day + 1 :=
        (yearOfEra_ends ⟨yearOfEra day + 1, by omega⟩).1
      omega

/-- The months of a year that starts in March, by its days: those from March on, and those of
    the January and February that follow. -/
theorem dayOfYear_months (leap : Bool) {day : Nat} (h : day < 366) :
    let monthPrime := (5 * day + 2) / 153
    let dayOfMonth := day - (153 * monthPrime + 2) / 5 + 1
    (monthPrime < 10 →
      daysBeforeMonth leap (monthPrime + 3) + (dayOfMonth - 1) = day + 59 + leap.toNat ∧
      dayOfMonth ≤ daysInMonth leap (monthPrime + 3)) ∧
    (10 ≤ monthPrime → monthPrime ≤ 11 ∧
      daysBeforeMonth leap (monthPrime - 9) + (dayOfMonth - 1) + 306 = day ∧
      (day < 365 ∨ leap = true → dayOfMonth ≤ daysInMonth leap (monthPrime - 9))) := by
  have htable : ∀ (leap : Bool) (i : Fin 366),
      ((5 * i.val + 2) / 153 < 10 →
        daysBeforeMonth leap ((5 * i.val + 2) / 153 + 3) +
          (i.val - (153 * ((5 * i.val + 2) / 153) + 2) / 5 + 1 - 1) = i.val + 59 + leap.toNat ∧
        i.val - (153 * ((5 * i.val + 2) / 153) + 2) / 5 + 1 ≤
          daysInMonth leap ((5 * i.val + 2) / 153 + 3)) ∧
      (10 ≤ (5 * i.val + 2) / 153 → (5 * i.val + 2) / 153 ≤ 11 ∧
        daysBeforeMonth leap ((5 * i.val + 2) / 153 - 9) +
          (i.val - (153 * ((5 * i.val + 2) / 153) + 2) / 5 + 1 - 1) + 306 = i.val ∧
        (i.val < 365 ∨ leap = true → i.val - (153 * ((5 * i.val + 2) / 153) + 2) / 5 + 1 ≤
          daysInMonth leap ((5 * i.val + 2) / 153 - 9))) := by
    decide +kernel
  exact htable leap ⟨day, h⟩

/-! ## §4. The whole conversion -/

/-- Days from the first of March of the year 0 to that of a later one. -/
theorem marchDays {year : Nat} (h : year < 400) (era : Nat) :
    eraDays year + era * 146097 + 60 =
      daysBeforeYear (year + era * 400) + (isLeap (year + era * 400)).toNat + 59 := by
  have hnext := daysBeforeYear_succ_eq (year + era * 400)
  have hstep : daysBeforeYear (year + era * 400 + 1) = daysBeforeYear (year + era * 400) +
      (365 + (isLeap (year + era * 400)).toNat) := rfl
  have h4 : (year + era * 400) / 4 = year / 4 + era * 100 := by omega
  have h100 : (year + era * 400) / 100 = year / 100 + era * 4 := by omega
  have h400 : (year + era * 400) / 400 = era := by omega
  rw [hstep, h4, h100, h400] at hnext
  unfold eraDays
  omega

/-- A year with a 366th day from March on ends in a leap day. -/
theorem leap_of_lastDay {year : Nat} (h : year < 400) (era : Nat)
    (hlast : eraDays year + 365 ≤ lastDay year) : isLeap (year + era * 400 + 1) = true := by
  have hnow : isLeap (year + 1) = true := by
    have hall : ∀ i : Fin 400, eraDays i + 365 ≤ lastDay i → isLeap (i + 1) = true := by
      decide +kernel
    exact hall ⟨year, h⟩ hlast
  have hcycle : isLeap (year + era * 400 + 1) = isLeap (year + 1) := by
    have h4 : (year + era * 400 + 1) % 4 = (year + 1) % 4 := by omega
    have h100 : (year + era * 400 + 1) % 100 = (year + 1) % 100 := by omega
    have h400 : (year + era * 400 + 1) % 400 = (year + 1) % 400 := by omega
    rw [isLeap, isLeap, h4, h100, h400]
  rw [hcycle, hnow]

/-- **The date of a day has that day's number.**  The first of March of the year 0 is day 60. -/
theorem civil_dayNumber (z : Nat) : (civil z).Valid ∧ (civil z).dayNumber = z + 60 := by
  have hera : z - z / 146097 * 146097 < 146097 := by omega
  obtain ⟨hyear, hfirst, hlast⟩ := dayOfEra_spec hera
  have hbound : z - z / 146097 * 146097 - eraDays (yearOfEra (z - z / 146097 * 146097)) < 366 := by
    have hsize : ∀ i : Fin 400, lastDay i ≤ eraDays i + 365 := by decide +kernel
    have := hsize ⟨_, hyear⟩
    simp only at this
    omega
  have hmarch := marchDays hyear (z / 146097)
  have hsucc : ∀ year, daysBeforeYear (year + 1) =
      daysBeforeYear year + (365 + (isLeap year).toNat) := fun _ => rfl
  have hnext := hsucc (yearOfEra (z - z / 146097 * 146097) + z / 146097 * 400)
  have hleap := leap_of_lastDay hyear (z / 146097)
  have hz : z = z - z / 146097 * 146097 + z / 146097 * 146097 := by omega
  unfold civil
  dsimp only
  generalize hdoe : z - z / 146097 * 146097 = dayOfEra at *
  generalize hyoe : yearOfEra dayOfEra = year at *
  generalize z / 146097 = era at *
  obtain ⟨doy, hdoy⟩ : ∃ doy, dayOfEra - eraDays year = doy := ⟨_, rfl⟩
  rw [hdoy] at hbound ⊢
  by_cases hmonth : (5 * doy + 2) / 153 < 10
  · -- from March on: the year that started in March
    obtain ⟨hcount, hday⟩ :=
      (dayOfYear_months (isLeap (year + era * 400)) hbound).1 hmonth
    rw [if_pos hmonth, if_neg (by omega)]
    refine ⟨⟨by simp, ?_, by simp, hday⟩, ?_⟩
    · show (5 * doy + 2) / 153 + 3 ≤ 12
      omega
    · simp only [Date.dayNumber]
      omega
  · -- January and February belong to the next year
    obtain ⟨hle, hcount, hday⟩ :=
      (dayOfYear_months (isLeap (year + era * 400 + 1)) hbound).2 (by omega)
    rw [if_neg hmonth, if_pos (by omega)]
    refine ⟨⟨?_, ?_, by simp, ?_⟩, ?_⟩
    · show 1 ≤ (5 * doy + 2) / 153 - 9
      omega
    · show (5 * doy + 2) / 153 - 9 ≤ 12
      omega
    · refine hday ?_
      by_cases hend : doy < 365
      · exact .inl hend
      · exact .inr (hleap (by omega))
    · simp only [Date.dayNumber]
      omega

theorem narrowOr_of_le {max default value : Nat} (h : value ≤ max) :
    narrowOr max default value = value := if_pos h

theorem daysInMonth_le (leap : Bool) (month : Nat) : daysInMonth leap month ≤ 31 := by
  have hleap : leap.toNat ≤ 1 := Bool.toNat_le leap
  unfold daysInMonth
  split <;> omega

/-- While the year fits, no field is replaced by its default. -/
theorem fromUnixSecs_date {secs : Nat} (h : FitsYear secs) :
    (SigningTime.fromUnixSecs secs).date = civil (secs / 86400 + 719468) := by
  obtain ⟨hvalid, hnumber⟩ := civil_dayNumber (secs / 86400 + 719468)
  have hyear : (civil (secs / 86400 + 719468)).year ≤ u16Max := by
    by_contra hlarge
    have hmono := daysBeforeYear_mono (show 2 ^ 16 ≤ (civil (secs / 86400 + 719468)).year by
      unfold u16Max at hlarge
      omega)
    have hstart : daysBeforeYear (civil (secs / 86400 + 719468)).year ≤
        (civil (secs / 86400 + 719468)).dayNumber := by
      rw [Date.dayNumber]
      omega
    rw [FitsYear, epochDay_eq] at h
    omega
  have hmonth : (civil (secs / 86400 + 719468)).month ≤ u8Max := by
    have := hvalid.month_le
    unfold u8Max
    omega
  have hday : (civil (secs / 86400 + 719468)).day ≤ u8Max := by
    have hin := hvalid.day_le
    have hmost := daysInMonth_le (isLeap (civil (secs / 86400 + 719468)).year)
      (civil (secs / 86400 + 719468)).month
    unfold u8Max
    omega
  simp only [SigningTime.date, SigningTime.fromUnixSecs, narrowOr_of_le hyear,
    narrowOr_of_le hmonth, narrowOr_of_le hday]

/-- The time of day needs no default. -/
theorem fromUnixSecs_time (secs : Nat) :
    (SigningTime.fromUnixSecs secs).hour = secs % 86400 / 3600 ∧
    (SigningTime.fromUnixSecs secs).minute = secs % 86400 / 60 % 60 ∧
    (SigningTime.fromUnixSecs secs).second = secs % 86400 % 60 := by
  refine ⟨narrowOr_of_le ?_, narrowOr_of_le ?_, narrowOr_of_le ?_⟩ <;> (unfold u8Max; omega)

/-- **The conversion inverts the count of seconds.** -/
theorem fromUnixSecs_spec {secs : Nat} (h : FitsYear secs) :
    (SigningTime.fromUnixSecs secs).Valid ∧ (SigningTime.fromUnixSecs secs).unixSecs = secs := by
  obtain ⟨hhour, hminute, hsecond⟩ := fromUnixSecs_time secs
  obtain ⟨hvalid, hnumber⟩ := civil_dayNumber (secs / 86400 + 719468)
  have hdate := fromUnixSecs_date h
  refine ⟨⟨hdate ▸ hvalid, ?_, ?_, ?_⟩, ?_⟩
  · rw [hhour]
    omega
  · rw [hminute]
    omega
  · rw [hsecond]
    omega
  · rw [SigningTime.unixSecs, SigningTime.daySecs, hdate, hnumber, hhour, hminute, hsecond, epochDay_eq]
    omega

theorem daySecs_lt {t : SigningTime} (h : t.Valid) : t.daySecs < 86400 := by
  have hhour := h.hour
  have hminute := h.minute
  have hsecond := h.second
  rw [SigningTime.daySecs]
  omega

/-- A later signing time is later in seconds. -/
theorem unixSecs_lt {t t' : SigningTime} (h : t.Valid) (h' : t'.Valid)
    (hepoch : epochDay ≤ t.date.dayNumber) (hlt : t.Before t') : t.unixSecs < t'.unixSecs := by
  have hfits := daySecs_lt h
  rw [SigningTime.unixSecs, SigningTime.unixSecs]
  rcases hlt with hdate | ⟨hdate, htime⟩
  · have hday := dayNumber_lt h.date hdate
    omega
  · have hminute := h.minute
    have hsecond := h.second
    have hminute' := h'.minute
    have hsecond' := h'.second
    rw [hdate, SigningTime.daySecs, SigningTime.daySecs]
    omega

/-- Of two signing times that are not the same one is earlier. -/
theorem SigningTime.before_trichotomy (t t' : SigningTime) : t.Before t' ∨ t = t' ∨ t'.Before t := by
  have hdate := Date.before_trichotomy t.date t'.date
  rcases hdate with hdate | hdate | hdate
  · exact .inl (.inl hdate)
  · obtain ⟨hyear, hmonth, hday⟩ : t.year = t'.year ∧ t.month = t'.month ∧ t.day = t'.day := by
      simpa [SigningTime.date] using hdate
    have heq : t = t' ↔ t.hour = t'.hour ∧ t.minute = t'.minute ∧ t.second = t'.second := by
      cases t
      cases t'
      simp_all
    rw [heq]
    simp only [SigningTime.Before, hdate, true_and]
    omega
  · exact .inr (.inr (.inl hdate))

theorem epochDay_le {secs : Nat} (h : FitsYear secs) :
    epochDay ≤ (SigningTime.fromUnixSecs secs).date.dayNumber := by
  rw [fromUnixSecs_date h, (civil_dayNumber _).2, epochDay_eq]
  omega

/-- **The calendar conversion.**  While the year fits in 16 bits, the fields are a date of the
    Gregorian calendar, not before the epoch, and a time of day, that many seconds after the epoch
    counted day by day; different seconds get different fields, and later ones later fields. -/
theorem fromUnixSecs_calendar {secs : Nat} (h : FitsYear secs) :
    (SigningTime.fromUnixSecs secs).Valid ∧
    epochDay ≤ (SigningTime.fromUnixSecs secs).date.dayNumber ∧
    (SigningTime.fromUnixSecs secs).unixSecs = secs ∧
    ∀ other, FitsYear other →
      (SigningTime.fromUnixSecs secs = SigningTime.fromUnixSecs other → secs = other) ∧
      (secs < other ↔ (SigningTime.fromUnixSecs secs).Before (SigningTime.fromUnixSecs other)) := by
  obtain ⟨hvalid, hsecs⟩ := fromUnixSecs_spec h
  refine ⟨hvalid, epochDay_le h, hsecs, fun other hother => ?_⟩
  obtain ⟨hvalid', hsecs'⟩ := fromUnixSecs_spec hother
  refine ⟨fun heq => ?_, fun hlt => ?_, fun hbefore => ?_⟩
  · rw [← hsecs, heq, hsecs']
  · rcases SigningTime.before_trichotomy (SigningTime.fromUnixSecs secs)
      (SigningTime.fromUnixSecs other) with hbefore | heq | hafter
    · exact hbefore
    · rw [heq, hsecs'] at hsecs
      omega
    · have hgt := unixSecs_lt hvalid' hvalid (epochDay_le hother) hafter
      omega
  · have hlt := unixSecs_lt hvalid hvalid' (epochDay_le h) hbefore
    omega

/-- The last second of a leap day at the end of a century. -/
theorem fromUnixSecs_leapDay :
    (SigningTime.fromUnixSecs 951868799).Valid ∧
      (SigningTime.fromUnixSecs 951868799).unixSecs = 951868799 ∧
      SigningTime.fromUnixSecs 951868799 = ⟨2000, 2, 29, 23, 59, 59⟩ := by
  have hfits : FitsYear 951868799 := by
    have hyears := daysBeforeYear_succ_eq 65535
    have hpower : 65535 + 1 = 2 ^ 16 := by norm_num
    rw [hpower] at hyears
    rw [FitsYear, epochDay_eq]
    omega
  obtain ⟨hvalid, -, hsecs, -⟩ := fromUnixSecs_calendar hfits
  exact ⟨hvalid, hsecs, by decide⟩

end Cades

end RefineId
