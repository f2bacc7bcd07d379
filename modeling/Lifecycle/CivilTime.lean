import Mathlib.Tactic.SplitIfs
import Mathlib.Order.Basic
import Mathlib.Algebra.Order.Ring.Int

/-!
# Civil time

The proleptic Gregorian calendar with the day, in milliseconds from the
epoch, and back. A `CivilTime` is a date and time of day whose fields are
in range by construction. `CivilTime.timeValue` is the instant it denotes
and `CivilTime.ofTimeValue` the civil time of an instant; the two are
inverse (`timeValue_ofTimeValue`), and instants are ordered as the fields
of their civil times are, most significant first (`timeValue_lt_iff`).
-/

namespace CivilTime

/-! ## Years and months -/

/-- The number of days from the epoch to the first day of a year. -/
def dayFromYear (y : Int) : Int :=
  365 * (y - 1970) + (y - 1969) / 4 - (y - 1901) / 100 + (y - 1601) / 400

/-- The number of leap days in a year. -/
def leapDays (y : Int) : Int :=
  if (y % 4 = 0 ∧ y % 100 ≠ 0) ∨ y % 400 = 0 then 1 else 0

/-- The number of days of a year before its `month`-th month, in a year
with `leap` leap days; the thirteenth month is the next year's first. -/
def monthStart (leap : Int) : Nat → Int
  | 0 => 0
  | 1 => 0
  | 2 => 31
  | 3 => 59 + leap
  | 4 => 90 + leap
  | 5 => 120 + leap
  | 6 => 151 + leap
  | 7 => 181 + leap
  | 8 => 212 + leap
  | 9 => 243 + leap
  | 10 => 273 + leap
  | 11 => 304 + leap
  | 12 => 334 + leap
  | _ => 365 + leap

theorem leapDays_eq (y : Int) : leapDays y = 0 ∨ leapDays y = 1 := by
  unfold leapDays
  split_ifs <;> simp

/-- A year lasts three hundred and sixty-five days and its leap day. -/
theorem dayFromYear_succ (y : Int) :
    dayFromYear (y + 1) = dayFromYear y + 365 + leapDays y := by
  unfold dayFromYear leapDays
  split_ifs <;> omega

theorem dayFromYear_lt {y z : Int} (h : y < z) :
    dayFromYear y + 365 + leapDays y ≤ dayFromYear z := by
  rw [← dayFromYear_succ]
  unfold dayFromYear
  omega

theorem monthStart_succ {leap : Int} (hl : leap = 0 ∨ leap = 1) (m : Nat) :
    monthStart leap m ≤ monthStart leap (m + 1) := by
  rcases m with _ | _ | _ | _ | _ | _ | _ | _ | _ | _ | _ | _ | _ | m <;>
    simp only [monthStart] <;> omega

/-- Months start in their order. -/
theorem monthStart_mono {leap : Int} (hl : leap = 0 ∨ leap = 1) {m n : Nat}
    (h : m ≤ n) : monthStart leap m ≤ monthStart leap n := by
  induction h with
  | refl => exact le_refl _
  | step _ ih => exact le_trans ih (monthStart_succ hl _)

theorem monthStart_le {leap : Int} (hl : leap = 0 ∨ leap = 1) {m : Nat}
    (h : m ≤ 12) : monthStart leap (m + 1) ≤ 365 + leap :=
  monthStart_mono (n := 13) hl (Nat.succ_le_succ h)

/-- The year of a day: an estimate from the length of the four-century
cycle, corrected by one where the estimate falls next to a boundary. -/
def yearOfDay (d : Int) : Int :=
  let y := 1970 + d * 400 / 146097
  if dayFromYear (y + 1) ≤ d then y + 1
  else if d < dayFromYear y then y - 1
  else y

/-- **The year of a day contains it.** -/
theorem dayFromYear_yearOfDay (d : Int) :
    dayFromYear (yearOfDay d) ≤ d ∧ d < dayFromYear (yearOfDay d + 1) := by
  unfold yearOfDay
  dsimp only
  split_ifs with h₁ h₂
  · refine ⟨h₁, ?_⟩
    unfold dayFromYear
    omega
  · refine ⟨?_, by rwa [Int.sub_add_cancel]⟩
    unfold dayFromYear
    omega
  · omega

/-- The latest of the first `n` months that starts on or before a day of
the year, the days counted from zero. -/
def lastMonth (leap d : Int) : Nat → Nat
  | 0 => 0
  | n + 1 => if monthStart leap (n + 1) ≤ d then n + 1 else lastMonth leap d n

/-- The month of a day of the year, the days counted from zero. -/
def monthOfDay (leap d : Int) : Nat := max 1 (lastMonth leap d 12)

theorem lastMonth_le (leap d : Int) (n : Nat) : lastMonth leap d n ≤ n := by
  induction n with
  | zero => exact Nat.le_refl 0
  | succ n ih =>
    unfold lastMonth
    split <;> omega

theorem monthStart_lastMonth {leap d : Int} (h : 0 ≤ d) (n : Nat) :
    monthStart leap (lastMonth leap d n) ≤ d
      ∧ (lastMonth leap d n = n ∨ d < monthStart leap (lastMonth leap d n + 1)) := by
  induction n with
  | zero => exact ⟨h, Or.inl rfl⟩
  | succ n ih =>
    unfold lastMonth
    split
    · next hn => exact ⟨hn, Or.inl rfl⟩
    · next hn =>
      refine ⟨ih.1, Or.inr ?_⟩
      rcases ih.2 with hl | hl
      · rw [hl]
        omega
      · exact hl

theorem monthOfDay_range (leap d : Int) :
    1 ≤ monthOfDay leap d ∧ monthOfDay leap d ≤ 12 := by
  have h := lastMonth_le leap d 12
  unfold monthOfDay
  omega

/-- The month of a day contains it. -/
theorem monthStart_monthOfDay {leap d : Int} (h₀ : 0 ≤ d) (h : d < 365 + leap) :
    monthStart leap (monthOfDay leap d) ≤ d
      ∧ d < monthStart leap (monthOfDay leap d + 1) := by
  obtain ⟨hle, hlt⟩ := @monthStart_lastMonth leap _ h₀ 12
  have hrange : 1 ≤ lastMonth leap d 12 := by
    by_contra hzero
    have hz : lastMonth leap d 12 = 0 := by omega
    rw [hz] at hlt
    rcases hlt with hlt | hlt
    · omega
    · exact absurd hlt (not_lt_of_ge h₀)
  have hmonth : monthOfDay leap d = lastMonth leap d 12 := max_eq_right hrange
  rw [hmonth]
  refine ⟨hle, ?_⟩
  rcases hlt with hlt | hlt
  · rw [hlt]
    exact h
  · exact hlt

/-- The day of its year a day falls on, counted from zero. -/
def dayOfYear (d : Int) : Int := d - dayFromYear (yearOfDay d)

theorem dayOfYear_nonneg (d : Int) : 0 ≤ dayOfYear d :=
  sub_nonneg.mpr (dayFromYear_yearOfDay d).1

theorem dayOfYear_lt (d : Int) : dayOfYear d < 365 + leapDays (yearOfDay d) := by
  have hy := (dayFromYear_yearOfDay d).2
  rw [dayFromYear_succ] at hy
  unfold dayOfYear
  omega

/-- The day of its month a day falls on, counted from one. -/
def dayOfMonth (d : Int) : Int :=
  dayOfYear d
    - monthStart (leapDays (yearOfDay d)) (monthOfDay (leapDays (yearOfDay d)) (dayOfYear d)) + 1

end CivilTime

/-! ## Civil times -/

/-- **A civil time**: a date and a time of day to the millisecond, every
field in its range. -/
structure CivilTime where
  year : Int
  month : Nat
  day : Nat
  hour : Nat
  minute : Nat
  second : Nat
  millisecond : Nat
  /-- The month is one of the twelve. -/
  validMonth : 1 ≤ month ∧ month ≤ 12
  /-- The day is one of its month. -/
  validDay : 1 ≤ day ∧ CivilTime.monthStart (CivilTime.leapDays year) month + day
    ≤ CivilTime.monthStart (CivilTime.leapDays year) (month + 1)
  /-- The time is one of the day. -/
  validTime : hour < 24 ∧ minute < 60 ∧ second < 60 ∧ millisecond < 1000

namespace CivilTime

/-- The day a civil time falls on, from the epoch. -/
def epochDay (c : CivilTime) : Int :=
  dayFromYear c.year + monthStart (leapDays c.year) c.month + (c.day - 1)

/-- The milliseconds from the start of the day. -/
def millisecondOfDay (c : CivilTime) : Int :=
  c.hour * 3600000 + c.minute * 60000 + c.second * 1000 + c.millisecond

/-- **The instant a civil time denotes**, in milliseconds from the epoch. -/
def timeValue (c : CivilTime) : Int := c.epochDay * 86400000 + c.millisecondOfDay

theorem millisecondOfDay_range (c : CivilTime) :
    0 ≤ c.millisecondOfDay ∧ c.millisecondOfDay < 86400000 := by
  obtain ⟨hh, hm, hs, hms⟩ := c.validTime
  unfold millisecondOfDay
  omega

/-- The day of a year stays within the year. -/
theorem dayOfYear_range (c : CivilTime) :
    0 ≤ monthStart (leapDays c.year) c.month + (c.day - 1)
      ∧ monthStart (leapDays c.year) c.month + (c.day - 1) < 365 + leapDays c.year := by
  obtain ⟨hd, hd'⟩ := c.validDay
  have hle := monthStart_le (leapDays_eq c.year) c.validMonth.2
  have hnonneg : 0 ≤ monthStart (leapDays c.year) c.month := by
    exact monthStart_mono (m := 0) (leapDays_eq c.year) (Nat.zero_le _)
  omega

/-! ## The civil time of an instant -/

/-- **The civil time of an instant.** -/
def ofTimeValue (t : Int) : CivilTime where
  year := yearOfDay (t / 86400000)
  month := monthOfDay (leapDays (yearOfDay (t / 86400000))) (dayOfYear (t / 86400000))
  day := (dayOfMonth (t / 86400000)).toNat
  hour := (t % 86400000 / 3600000).toNat
  minute := (t % 86400000 / 60000 % 60).toNat
  second := (t % 86400000 / 1000 % 60).toNat
  millisecond := (t % 86400000 % 1000).toNat
  validMonth := monthOfDay_range _ _
  validDay := by
    have hm := monthStart_monthOfDay (dayOfYear_nonneg (t / 86400000))
      (dayOfYear_lt (t / 86400000))
    unfold dayOfMonth
    omega
  validTime := by omega

theorem epochDay_ofTimeValue (t : Int) : (ofTimeValue t).epochDay = t / 86400000 := by
  have hm := (monthStart_monthOfDay (dayOfYear_nonneg (t / 86400000))
    (dayOfYear_lt (t / 86400000))).1
  simp only [epochDay, ofTimeValue, dayOfMonth]
  have hy : dayOfYear (t / 86400000)
      = t / 86400000 - dayFromYear (yearOfDay (t / 86400000)) := rfl
  omega

theorem millisecondOfDay_ofTimeValue (t : Int) :
    (ofTimeValue t).millisecondOfDay = t % 86400000 := by
  simp only [millisecondOfDay, ofTimeValue]
  omega

/-- **The civil time of an instant denotes it.** -/
theorem timeValue_ofTimeValue (t : Int) : (ofTimeValue t).timeValue = t := by
  rw [timeValue, epochDay_ofTimeValue, millisecondOfDay_ofTimeValue]
  omega

/-! ## Order -/

/-- The time-of-day fields, most significant first. -/
def TimeLt (a b : CivilTime) : Prop :=
  a.hour < b.hour ∨ a.hour = b.hour ∧ (a.minute < b.minute ∨ a.minute = b.minute ∧
    (a.second < b.second ∨ a.second = b.second ∧ a.millisecond < b.millisecond))

/-- **Field order**: the fields compared most significant first. -/
def FieldLt (a b : CivilTime) : Prop :=
  a.year < b.year ∨ a.year = b.year ∧ (a.month < b.month ∨ a.month = b.month ∧
    (a.day < b.day ∨ a.day = b.day ∧ a.TimeLt b))

theorem millisecondOfDay_lt_iff (a b : CivilTime) :
    a.millisecondOfDay < b.millisecondOfDay ↔ a.TimeLt b := by
  obtain ⟨ha, ha', ha'', ha'''⟩ := a.validTime
  obtain ⟨hb, hb', hb'', hb'''⟩ := b.validTime
  unfold millisecondOfDay TimeLt
  omega

theorem epochDay_lt_of_year {a b : CivilTime} (h : a.year < b.year) :
    a.epochDay < b.epochDay := by
  have hy := dayFromYear_lt h
  have ha := a.dayOfYear_range
  have hb := b.dayOfYear_range
  unfold epochDay
  omega

theorem epochDay_lt_of_month {a b : CivilTime} (hy : a.year = b.year)
    (h : a.month < b.month) : a.epochDay < b.epochDay := by
  have hm := monthStart_mono (m := a.month + 1) (leapDays_eq b.year) h
  have ha := a.validDay.2
  have hb := b.validDay.1
  rw [hy] at ha
  unfold epochDay
  rw [hy]
  omega

/-- **Field order is the order of instants.** -/
theorem timeValue_lt_of_fieldLt {a b : CivilTime} (h : a.FieldLt b) :
    a.timeValue < b.timeValue := by
  have ha := a.millisecondOfDay_range
  have hb := b.millisecondOfDay_range
  have hday : a.epochDay < b.epochDay
      ∨ a.epochDay = b.epochDay ∧ a.millisecondOfDay < b.millisecondOfDay := by
    rcases h with h | ⟨hy, h | ⟨hm, h | ⟨hd, h⟩⟩⟩
    · exact Or.inl (epochDay_lt_of_year h)
    · exact Or.inl (epochDay_lt_of_month hy h)
    · left
      unfold epochDay
      rw [hy, hm]
      omega
    · right
      refine ⟨?_, (millisecondOfDay_lt_iff a b).mpr h⟩
      unfold epochDay
      rw [hy, hm, hd]
  unfold timeValue
  omega

theorem fieldLt_trichotomy (a b : CivilTime) : a.FieldLt b ∨ a = b ∨ b.FieldLt a := by
  obtain ⟨ay, am, ad, ah, ami, as, ams, _, _, _⟩ := a
  obtain ⟨by', bm, bd, bh, bmi, bs, bms, _, _, _⟩ := b
  simp only [FieldLt, TimeLt, CivilTime.mk.injEq]
  omega

theorem timeValue_lt_iff {a b : CivilTime} : a.timeValue < b.timeValue ↔ a.FieldLt b := by
  refine ⟨fun h => ?_, timeValue_lt_of_fieldLt⟩
  rcases fieldLt_trichotomy a b with hab | rfl | hba
  · exact hab
  · exact absurd h (lt_irrefl _)
  · exact absurd h (lt_asymm (timeValue_lt_of_fieldLt hba))

end CivilTime
