/-
  Calendar — THE PROLEPTIC GREGORIAN CALENDAR on day numbers counted from 1970-01-01, the
  conversion `gmtime` performs.

  The year is taken to start on 1 March, so that a leap day is the last day of its
  year, and 400-year eras of 146097 days repeat.

  Main results: `daysFromCivil_civilFromDays`, `civilFromDays_sub_one`.
-/
import Mathlib.Tactic.IntervalCases

namespace Calendar

/-- A date: year, month `1..12`, day of the month `1..31`. -/
structure Civil where
  year : Int
  month : Int
  day : Int
  deriving DecidableEq, Repr

/-- Day of the week of a day number, `0` being Sunday; day 0 was a Thursday. -/
def weekday (days : Int) : Int := (days + 4) % 7

/-- Year of the era, `0..399`, from the day of the era: centuries, four-year cycles, years. The last century and the
last year of a cycle are a day longer. -/
def yearOfEra (doe : Int) : Int :=
  let century := min (doe / 36524) 3
  let cycle := (doe - 36524 * century) / 1461
  100 * century + 4 * cycle + min ((doe - 36524 * century - 1461 * cycle) / 365) 3

def daysBeforeYear (yoe : Int) : Int := 365 * yoe + yoe / 4 - yoe / 100

/-- Days of a March-based year before its month `mp`, `0..11`. -/
def daysBeforeMonth (mp : Int) : Int := (153 * mp + 2) / 5

/-- The date with a given day of a March-based year. -/
def civilOfParts (era yoe doy : Int) : Civil :=
  let mp := (5 * doy + 2) / 153
  { year := yoe + era * 400 + if mp < 10 then 0 else 1
    month := if mp < 10 then mp + 3 else mp - 9
    day := doy - daysBeforeMonth mp + 1 }

def civilFromDays (days : Int) : Civil :=
  let z := days + 719468
  let yoe := yearOfEra (z % 146097)
  civilOfParts (z / 146097) yoe (z % 146097 - daysBeforeYear yoe)

def daysFromCivil (c : Civil) : Int :=
  let y := if c.month ≤ 2 then c.year - 1 else c.year
  let era := y / 400
  let yoe := y % 400
  let mp := if c.month ≤ 2 then c.month + 9 else c.month - 3
  era * 146097 + (daysBeforeYear yoe + (daysBeforeMonth mp + (c.day - 1))) - 719468

theorem yearOfEra_bounds {doe : Int} (h0 : 0 ≤ doe) (h1 : doe < 146097) : 0 ≤ yearOfEra doe ∧ yearOfEra doe < 400 := by
  unfold yearOfEra
  dsimp only
  omega

theorem daysBeforeYear_parts {cycle year : Int} (century : Int) (hq : 0 ≤ cycle ∧ cycle ≤ 24)
    (hy : 0 ≤ year ∧ year ≤ 3) : daysBeforeYear (100 * century + 4 * cycle + year)
      = 36524 * century + 1461 * cycle + 365 * year := by
  have h4 : (100 * century + 4 * cycle + year) / 4 = 25 * century + cycle := by omega
  have h100 : (100 * century + 4 * cycle + year) / 100 = century := by omega
  unfold daysBeforeYear
  omega

variable {doy yoe : Int}

theorem daysFromCivil_civilOfParts (era : Int) (hy : 0 ≤ yoe ∧ yoe < 400) (hd : 0 ≤ doy ∧ doy ≤ 365) :
    daysFromCivil (civilOfParts era yoe doy) = era * 146097 + (daysBeforeYear yoe + doy) - 719468 := by
  unfold civilOfParts daysFromCivil
  grind

def daysInMonth (year month : Int) : Int :=
  if month = 2 then if year % 4 = 0 ∧ (year % 100 ≠ 0 ∨ year % 400 = 0) then 29 else 28
  else if month = 4 ∨ month = 6 ∨ month = 9 ∨ month = 11 then 30
  else 31

/-- Days of the year `yoe` of an era, which ends with February. -/
def yearLength (yoe : Int) : Int := 337 + daysInMonth (yoe + 1) 2

theorem yearLength_parts {century cycle year : Int} (hc : 0 ≤ century ∧ century ≤ 3)
    (hq : 0 ≤ cycle ∧ cycle ≤ 24) (hy : 0 ≤ year ∧ year ≤ 3) : yearLength (100 * century + 4 * cycle + year)
      = if year = 3 ∧ (cycle ≠ 24 ∨ century = 3) then 366 else 365 := by
  unfold yearLength daysInMonth
  rw [if_pos rfl]
  split_ifs <;> omega

/-- The day of the year lies in its year, which has 366 days at most. -/
theorem dayOfYear_bounds {doe : Int} (h0 : 0 ≤ doe) (h1 : doe < 146097) :
    0 ≤ doe - daysBeforeYear (yearOfEra doe) ∧ doe - daysBeforeYear (yearOfEra doe) ≤ 365 ∧
      doe - daysBeforeYear (yearOfEra doe) < yearLength (yearOfEra doe) := by
  unfold yearOfEra
  dsimp only
  have hc : 0 ≤ min (doe / 36524) 3 ∧ min (doe / 36524) 3 ≤ 3 ∧ 0 ≤ doe - 36524 * min (doe / 36524) 3 ∧
      doe - 36524 * min (doe / 36524) 3 ≤ 36524 ∧
      (min (doe / 36524) 3 < 3 → doe - 36524 * min (doe / 36524) 3 < 36524) := by omega
  generalize min (doe / 36524) 3 = century at hc ⊢
  have hq : 0 ≤ (doe - 36524 * century) / 1461 ∧ (doe - 36524 * century) / 1461 ≤ 24 := by omega
  have hr : 0 ≤ doe - 36524 * century - 1461 * ((doe - 36524 * century) / 1461) ∧
      doe - 36524 * century - 1461 * ((doe - 36524 * century) / 1461) ≤ 1460 := by omega
  generalize (doe - 36524 * century) / 1461 = cycle at hq hr ⊢
  rw [daysBeforeYear_parts century hq (by omega), yearLength_parts (by omega) hq (by omega)]
  split_ifs <;> omega

/-- **Round trip.** -/
theorem daysFromCivil_civilFromDays (days : Int) : daysFromCivil (civilFromDays days) = days := by
  have hz : 0 ≤ (days + 719468) % 146097 ∧ (days + 719468) % 146097 < 146097 := by omega
  show daysFromCivil (civilOfParts _ _ _) = days
  rw [daysFromCivil_civilOfParts _ (yearOfEra_bounds hz.1 hz.2)
    ⟨(dayOfYear_bounds hz.1 hz.2).1, (dayOfYear_bounds hz.1 hz.2).2.1⟩]
  omega

theorem civilFromDays_injective : Function.Injective civilFromDays :=
  Function.LeftInverse.injective daysFromCivil_civilFromDays

theorem civilFromDays_bounds (days : Int) : 1 ≤ (civilFromDays days).month ∧ (civilFromDays days).month ≤ 12 ∧
      1 ≤ (civilFromDays days).day ∧ (civilFromDays days).day ≤ 31 := by
  have hz : 0 ≤ (days + 719468) % 146097 ∧ (days + 719468) % 146097 < 146097 := by omega
  obtain ⟨hd0, hd1, -⟩ := dayOfYear_bounds hz.1 hz.2
  grind [civilFromDays, civilOfParts, daysBeforeMonth]

example : civilFromDays 18536 = ⟨2020, 10, 1⟩ := by decide

def Civil.previous (c : Civil) : Civil :=
  if 1 < c.day then { c with day := c.day - 1 }
  else if c.month = 1 then ⟨c.year - 1, 12, 31⟩
  else ⟨c.year, c.month - 1, daysInMonth c.year (c.month - 1)⟩

/-- The year of an era and the day of it are recovered from the day of the era. -/
theorem yearOfEra_of_parts (hy : 0 ≤ yoe ∧ yoe < 400) (hd : 0 ≤ doy ∧ doy < yearLength yoe) :
    yearOfEra (daysBeforeYear yoe + doy) = yoe := by
  obtain ⟨century, cycle, year, rfl, hc, hq, hr⟩ : ∃ century cycle year,
      yoe = 100 * century + 4 * cycle + year ∧ (0 ≤ century ∧ century ≤ 3) ∧ (0 ≤ cycle ∧ cycle ≤ 24) ∧
        0 ≤ year ∧ year ≤ 3 :=
    ⟨yoe / 100, yoe % 100 / 4, yoe % 4, by omega, by omega, by omega, by omega⟩
  rw [yearLength_parts hc hq hr] at hd
  rw [daysBeforeYear_parts century hq hr]
  unfold yearOfEra
  dsimp only
  have hcentury : min ((36524 * century + 1461 * cycle + 365 * year + doy) / 36524) 3 = century := by
    split_ifs at hd <;> omega
  have hcycle : (36524 * century + 1461 * cycle + 365 * year + doy - 36524 * century) / 1461 = cycle := by
    split_ifs at hd <;> omega
  split_ifs at hd <;> omega

theorem civilFromDays_of_parts (era : Int) (hy : 0 ≤ yoe ∧ yoe < 400) (hd : 0 ≤ doy ∧ doy < yearLength yoe) :
    civilFromDays (era * 146097 + (daysBeforeYear yoe + doy) - 719468) = civilOfParts era yoe doy := by
  have hdoe : 0 ≤ daysBeforeYear yoe + doy ∧ daysBeforeYear yoe + doy < 146097 := by
    grind [yearLength, daysInMonth, daysBeforeYear]
  have hmod : (era * 146097 + (daysBeforeYear yoe + doy) - 719468 + 719468) % 146097 = daysBeforeYear yoe + doy := by
    omega
  have hdiv : (era * 146097 + (daysBeforeYear yoe + doy) - 719468 + 719468) / 146097 = era := by
    omega
  unfold civilFromDays
  dsimp only
  rw [hmod, yearOfEra_of_parts hy hd]
  congr 1
  omega

/-- Within a March-based year the day before is the date before. -/
theorem previous_civilOfParts (era yoe : Int) (hd : 1 ≤ doy ∧ doy ≤ 365) :
    (civilOfParts era yoe doy).previous = civilOfParts era yoe (doy - 1) := by
  unfold civilOfParts Civil.previous daysBeforeMonth
  dsimp only
  by_cases hfirst : doy = (153 * ((5 * doy + 2) / 153) + 2) / 5
  · -- the first of a month follows the last day of the month before
    have hmonth : (5 * (doy - 1) + 2) / 153 = (5 * doy + 2) / 153 - 1 := by omega
    have hrange : 1 ≤ (5 * doy + 2) / 153 ∧ (5 * doy + 2) / 153 ≤ 11 := by omega
    rw [hmonth, if_neg (by omega)]
    generalize (5 * doy + 2) / 153 = mp at hfirst hrange ⊢
    obtain ⟨hlo, hhi⟩ := hrange
    unfold daysInMonth
    interval_cases mp <;> norm_num [Civil.mk.injEq] <;> omega
  · have hmonth : (5 * (doy - 1) + 2) / 153 = (5 * doy + 2) / 153 := by omega
    rw [if_pos (by omega)]
    simp only [Civil.mk.injEq]
    omega

theorem civilFromDays_march (era : Int) (hy : 0 ≤ yoe ∧ yoe < 400) :
    (civilOfParts era yoe 0).previous = civilFromDays (era * 146097 + daysBeforeYear yoe - 719468 - 1) := by
  have hprevious : (civilOfParts era yoe 0).previous
      = ⟨yoe + era * 400, 2, daysInMonth (yoe + era * 400) 2⟩ := by
    show Civil.mk (yoe + era * 400 + 0) 2 (daysInMonth (yoe + era * 400 + 0) 2) = _
    rw [add_zero]
  -- the year before ends with it, in the same era or the one before
  have hbefore : ∀ era' yoe', 0 ≤ yoe' ∧ yoe' < 400 → yoe' + era' * 400 + 1 = yoe + era * 400 →
      civilOfParts era' yoe' (yearLength yoe' - 1) = ⟨yoe + era * 400, 2, daysInMonth (yoe + era * 400) 2⟩ := by
    intro era' yoe' hy' hnext
    have hlength : daysInMonth (yoe' + 1) 2 = daysInMonth (yoe + era * 400) 2 := by
      unfold daysInMonth
      rw [if_pos rfl, if_pos rfl]
      congr 1
      rw [eq_iff_iff]
      omega
    have hrange : daysInMonth (yoe' + 1) 2 = 28 ∨ daysInMonth (yoe' + 1) 2 = 29 := by grind [daysInMonth]
    unfold yearLength
    unfold civilOfParts daysBeforeMonth
    grind
  rw [hprevious]
  by_cases hzero : yoe = 0
  · rw [← hbefore (era - 1) 399 (by omega) (by omega), ← civilFromDays_of_parts (era - 1) (by omega) (by decide)]
    congr 1
    subst hzero
    show (era - 1) * 146097 + 146096 - 719468 = era * 146097 + 0 - 719468 - 1
    omega
  · have hpos : 0 < yearLength (yoe - 1) := by
      unfold yearLength daysInMonth
      split_ifs <;> omega
    rw [← hbefore era (yoe - 1) (by omega) (by omega), ← civilFromDays_of_parts era (by omega) (by omega)]
    congr 1
    unfold yearLength daysInMonth daysBeforeYear
    split_ifs <;> omega

/-- **The day before** has the date before. -/
theorem civilFromDays_sub_one (days : Int) : civilFromDays (days - 1) = (civilFromDays days).previous := by
  have hz : 0 ≤ (days + 719468) % 146097 ∧ (days + 719468) % 146097 < 146097 := by omega
  have hy := yearOfEra_bounds hz.1 hz.2
  have hd := dayOfYear_bounds hz.1 hz.2
  have hlt := hd.2.2
  show _ = (civilOfParts _ _ _).previous
  generalize hera : (days + 719468) / 146097 = era
  generalize hyoe : yearOfEra ((days + 719468) % 146097) = yoe at hy hd hlt ⊢
  generalize hdoy : (days + 719468) % 146097 - daysBeforeYear yoe = doy at hd hlt ⊢
  by_cases hfirst : doy = 0
  · -- the first of March follows the last day of February
    rw [hfirst, civilFromDays_march era hy]
    congr 1
    omega
  · rw [previous_civilOfParts era yoe (by omega), ← civilFromDays_of_parts era hy (by omega)]
    congr 1
    omega

theorem civilFromDays_year {days : Int} (h : -300000 ≤ days ∧ days ≤ 2900000) :
    1000 ≤ (civilFromDays days).year ∧ (civilFromDays days).year ≤ 9999 := by
  have hround := daysFromCivil_civilFromDays days
  have hbounds := civilFromDays_bounds days
  unfold daysFromCivil daysBeforeYear daysBeforeMonth at hround
  dsimp only at hround
  split_ifs at hround <;> omega

end Calendar
