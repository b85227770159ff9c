/-
  RefineId.Lib.Calendar — counting days in the Gregorian calendar.
  ════════════════════════════════════════════════════════════════════════════

  Days are counted from the first of January of the year 0, with the leap-year rule and the
  lengths of the months and nothing else.

  Main results:
    • `daysBeforeYear_succ_eq` : the leap days before a year in closed form.
    • `dayNumber_lt`           : a later date has a larger day number.
-/
import Mathlib.Tactic

namespace RefineId.Lib

/-! ## §1. Years and months -/

/-- The leap-year rule. -/
def isLeap (year : Nat) : Bool := year % 4 == 0 && (year % 100 != 0 || year % 400 == 0)

/-- Days of a month, by its number from 1. -/
def daysInMonth (leap : Bool) : Nat → Nat
  | 1 | 3 | 5 | 7 | 8 | 10 | 12 => 31
  | 4 | 6 | 9 | 11 => 30
  | 2 => 28 + leap.toNat
  | _ => 0

/-- Days of a year. -/
def yearLength (year : Nat) : Nat := 365 + (isLeap year).toNat

/-- Days from the first of January of the year 0 to that of a year. -/
def daysBeforeYear : Nat → Nat
  | 0 => 0
  | year + 1 => daysBeforeYear year + yearLength year

/-- Days of a year before a month. -/
def daysBeforeMonth (leap : Bool) : Nat → Nat
  | 0 => 0
  | month + 1 => daysBeforeMonth leap month + daysInMonth leap month

/-- The rule, as multiples of 4 that are none of 100 unless they are of 400. -/
theorem isLeap_count (year : Nat) :
    (isLeap year).toNat + (if 100 ∣ year then 1 else 0) =
      (if 4 ∣ year then 1 else 0) + (if 400 ∣ year then 1 else 0) := by
  have h100 : 100 ∣ year → 4 ∣ year := (by decide : 4 ∣ 100).trans
  have h400 : 400 ∣ year → 100 ∣ year := (by decide : 100 ∣ 400).trans
  simp only [Nat.dvd_iff_mod_eq_zero] at h100 h400 ⊢
  by_cases h4 : year % 4 = 0
  · by_cases hcentury : year % 100 = 0
    · by_cases hcycle : year % 400 = 0 <;> simp [isLeap, h4, hcentury, hcycle]
    · simp [isLeap, h4, hcentury, mt h400 hcentury]
  · simp [isLeap, h4, mt h100 h4, mt h400 (mt h100 h4)]

/-- The leap days so far, by the rule's three divisions. -/
theorem daysBeforeYear_succ_eq (year : Nat) :
    daysBeforeYear (year + 1) + year / 100 = 365 * (year + 1) + year / 4 + year / 400 + 1 := by
  induction year with
  | zero => rfl
  | succ year ih =>
    have hcount := isLeap_count (year + 1)
    have hstep : daysBeforeYear (year + 1 + 1) =
        daysBeforeYear (year + 1) + (365 + (isLeap (year + 1)).toNat) := rfl
    rw [hstep, Nat.succ_div, Nat.succ_div, Nat.succ_div]
    generalize daysBeforeYear (year + 1) = days, (isLeap (year + 1)).toNat = leap at ih hcount ⊢
    generalize (if 4 ∣ year + 1 then 1 else 0) = four, (if 100 ∣ year + 1 then 1 else 0) = century,
      (if 400 ∣ year + 1 then 1 else 0) = cycle at hcount ⊢
    omega

theorem daysBeforeMonth_year (leap : Bool) : daysBeforeMonth leap 13 = 365 + leap.toNat := by
  cases leap <;> rfl

theorem daysBeforeMonth_mono (leap : Bool) : Monotone (daysBeforeMonth leap) :=
  monotone_nat_of_le_succ fun month => Nat.le_add_right _ (daysInMonth leap month)

theorem daysBeforeYear_mono : Monotone daysBeforeYear :=
  monotone_nat_of_le_succ fun year => Nat.le_add_right _ (yearLength year)

/-! ## §2. Dates -/

structure Date where
  year : Nat
  month : Nat
  day : Nat
  deriving Repr, DecidableEq

/-- A date of the calendar. -/
structure Date.Valid (d : Date) : Prop where
  month_pos : 1 ≤ d.month
  month_le : d.month ≤ 12
  day_pos : 1 ≤ d.day
  day_le : d.day ≤ daysInMonth (isLeap d.year) d.month

/-- Days from the first of January of the year 0. -/
def Date.dayNumber (d : Date) : Nat :=
  daysBeforeYear d.year + daysBeforeMonth (isLeap d.year) d.month + (d.day - 1)

/-- Earlier by year, then by month, then by day. -/
def Date.Before (d d' : Date) : Prop :=
  d.year < d'.year ∨ (d.year = d'.year ∧
    (d.month < d'.month ∨ (d.month = d'.month ∧ d.day < d'.day)))

/-- A date stands in its month. -/
theorem Date.Valid.lt_month {d : Date} (h : d.Valid) :
    d.dayNumber < daysBeforeYear d.year + daysBeforeMonth (isLeap d.year) (d.month + 1) := by
  obtain ⟨-, -, hpos, hle⟩ := h
  rw [Date.dayNumber, daysBeforeMonth]
  omega

/-- A date stands in its year. -/
theorem Date.Valid.lt_year {d : Date} (h : d.Valid) : d.dayNumber < daysBeforeYear (d.year + 1) := by
  have hmonth := daysBeforeMonth_mono (isLeap d.year) (Nat.succ_le_succ h.month_le)
  rw [daysBeforeMonth_year] at hmonth
  calc d.dayNumber < daysBeforeYear d.year + daysBeforeMonth (isLeap d.year) (d.month + 1) := h.lt_month
    _ ≤ daysBeforeYear d.year + yearLength d.year := Nat.add_le_add_left hmonth _

/-- **A later date has a larger day number.** -/
theorem dayNumber_lt {d d' : Date} (h : d.Valid) (hlt : d.Before d') :
    d.dayNumber < d'.dayNumber := by
  rcases hlt with hyear | ⟨hyear, hmonth | ⟨hmonth, hday⟩⟩
  · calc d.dayNumber < daysBeforeYear (d.year + 1) := h.lt_year
      _ ≤ daysBeforeYear d'.year := daysBeforeYear_mono hyear
      _ ≤ d'.dayNumber := by rw [Date.dayNumber]; omega
  · calc d.dayNumber < daysBeforeYear d.year + daysBeforeMonth (isLeap d.year) (d.month + 1) :=
          h.lt_month
      _ ≤ daysBeforeYear d.year + daysBeforeMonth (isLeap d.year) d'.month :=
          Nat.add_le_add_left (daysBeforeMonth_mono _ hmonth) _
      _ ≤ d'.dayNumber := by rw [Date.dayNumber, hyear]; omega
  · have hpos := h.day_pos
    rw [Date.dayNumber, Date.dayNumber, hyear, hmonth]
    omega

/-- Of two dates that are not the same one is earlier. -/
theorem Date.before_trichotomy (d d' : Date) : d.Before d' ∨ d = d' ∨ d'.Before d := by
  obtain ⟨y, m, a⟩ := d
  obtain ⟨y', m', a'⟩ := d'
  simp only [Date.Before, Date.mk.injEq]
  omega

end RefineId.Lib
