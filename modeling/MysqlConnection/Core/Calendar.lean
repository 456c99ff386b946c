import Mathlib.Algebra.Order.Ring.Int

/-!
# Calendars and the twelve-hour clock

A calendar gives each day number a civil date and finds the day of a civil
date; the era is what the numbers of the date do not tell. Days have 86400
seconds and start at multiples of them.

* `gregorian`: days are counted from 2001-01-01, without the change of 1582.
* `secondAt_twelve`, `of_secondAt_twelve`: hour of twelve, minute and second
  determine the second of the day in the forenoon, and only there.
-/
namespace MysqlConnection.Civil

structure CivilDate where
  era : Nat
  year : Nat
  month : Nat
  day : Nat
  deriving DecidableEq, Repr

/-- `era` is assumed for a date that is given without one. -/
structure Calendar where
  civil : Int → CivilDate
  dayNumber : CivilDate → Option Int
  era : Nat
  dayNumber_civil : ∀ n, dayNumber (civil n) = some n
  civil_of_dayNumber : ∀ d n, dayNumber d = some n → civil n = d

/-! ## The clock -/

def day (t : Int) : Int := t / 86400

def hour (t : Int) : Nat := (t % 86400 / 3600).toNat

def minute (t : Int) : Nat := (t % 3600 / 60).toNat

def second (t : Int) : Nat := (t % 60).toNat

/-- The hour 1 to 12. -/
def twelve (h : Nat) : Nat := if h % 12 = 0 then 12 else h % 12

/-- The second at which a day, an hour of twelve before noon, a minute and a
second begin. -/
def secondAt (n : Int) (h m s : Nat) : Int := n * 86400 + (h % 12 : Nat) * 3600 + m * 60 + s

theorem twelve_bounds (h : Nat) : 1 ≤ twelve h ∧ twelve h ≤ 12 := by
  unfold twelve
  split <;> omega

theorem twelve_mod (h : Nat) : twelve h % 12 = h % 12 := by
  unfold twelve
  split <;> omega

theorem minute_lt (t : Int) : minute t < 60 := by
  unfold minute
  omega

theorem second_lt (t : Int) : second t < 60 := by
  unfold second
  omega

theorem hour_lt (t : Int) : hour t < 24 := by
  unfold hour
  omega

/-- A second by its day, hour, minute and second. -/
theorem eq_parts (t : Int) : t = day t * 86400 + hour t * 3600 + minute t * 60 + second t := by
  unfold day hour minute second
  omega

theorem secondAt_twelve {t : Int} (h : hour t < 12) :
    secondAt (day t) (twelve (hour t)) (minute t) (second t) = t := by
  have ht := eq_parts t
  rw [secondAt, twelve_mod, Nat.mod_eq_of_lt h]
  omega

/-- The day and the half of the day are read back from the second. -/
theorem of_secondAt_twelve {n t : Int}
    (h : secondAt n (twelve (hour t)) (minute t) (second t) = t) : day t = n ∧ hour t < 12 := by
  have ht := eq_parts t
  have hh := hour_lt t
  have hm := minute_lt t
  have hs := second_lt t
  rw [secondAt, twelve_mod] at h
  omega

/-- Twelve hours later the clock shows the same. -/
theorem clock_add {t : Int} (h : hour t < 12) :
    day (t + 43200) = day t ∧ twelve (hour (t + 43200)) = twelve (hour t) ∧
      minute (t + 43200) = minute t ∧ second (t + 43200) = second t := by
  have hhour : hour (t + 43200) = hour t + 12 := by
    unfold hour at *
    omega
  refine ⟨?_, ?_, ?_, ?_⟩
  · unfold day hour at *
    omega
  · rw [hhour, twelve, twelve, Nat.add_mod_right]
  · unfold minute
    omega
  · unfold second
    omega

/-! ## The Gregorian calendar -/

/-- The year from March to February of a day counted from 0000-03-01, and the
day in it. -/
def marchYear (z : Int) : Int × Int :=
  let r := z % 146097
  let c := min (r / 36524) 3
  let q := (r - c * 36524) / 1461
  let r' := (r - c * 36524) % 1461
  let a := min (r' / 365) 3
  (400 * (z / 146097) + 100 * c + 4 * q + a, r' - a * 365)

/-- The day on which such a year begins. -/
def marchFirst (y : Int) : Int := 365 * y + y / 4 - y / 100 + y / 400

theorem marchFirst_eq {n c q a : Int} (hc : 0 ≤ c ∧ c ≤ 3) (hq : 0 ≤ q ∧ q ≤ 24) (ha : 0 ≤ a ∧ a ≤ 3) :
    marchFirst (400 * n + 100 * c + 4 * q + a) = 146097 * n + 36524 * c + 1461 * q + 365 * a := by
  have h4 : (400 * n + 100 * c + 4 * q + a) / 4 = 100 * n + 25 * c + q := by omega
  have h100 : (400 * n + 100 * c + 4 * q + a) / 100 = 4 * n + c := by omega
  have h400 : (400 * n + 100 * c + 4 * q + a) / 400 = n := by omega
  rw [marchFirst, h4, h100, h400]
  omega

theorem marchYear_spec (z : Int) :
    marchFirst (marchYear z).1 + (marchYear z).2 = z ∧ 0 ≤ (marchYear z).2 ∧ (marchYear z).2 ≤ 365 := by
  simp only [marchYear]
  rw [marchFirst_eq (by omega) (by omega) (by omega)]
  omega

/-- The months from March on; the first of month `mp` in such a year. -/
def monthFirst (mp : Int) : Int := (153 * mp + 2) / 5

def marchMonth (dayOfYear : Int) : Int := (5 * dayOfYear + 2) / 153

theorem marchMonth_spec {dayOfYear : Int} (h : 0 ≤ dayOfYear ∧ dayOfYear ≤ 365) :
    0 ≤ marchMonth dayOfYear ∧ marchMonth dayOfYear ≤ 11 ∧
      monthFirst (marchMonth dayOfYear) ≤ dayOfYear := by
  unfold marchMonth monthFirst
  omega

/-- Days from 0000-03-01 to 2001-01-01. -/
def epoch : Int := 730791

/-- Year 0 is the first year of the era 0, before year 1 of the era 1. -/
def eraYear (year : Int) : Nat × Nat := if 0 < year then (1, year.toNat) else (0, (1 - year).toNat)

def yearOfEra (era year : Nat) : Int := if era = 1 then year else 1 - year

theorem yearOfEra_eraYear (year : Int) : yearOfEra (eraYear year).1 (eraYear year).2 = year := by
  unfold eraYear
  split <;> simp [yearOfEra] <;> omega

/-- The month from January on and the year it belongs to. -/
def january (year mp : Int) : Int × Int := if mp < 10 then (year, mp + 3) else (year + 1, mp - 9)

def march (year month : Int) : Int × Int :=
  if month ≤ 2 then (year - 1, month + 9) else (year, month - 3)

theorem march_january (year : Int) {mp : Int} (h : 0 ≤ mp) :
    march (january year mp).1 (january year mp).2 = (year, mp) ∨ 11 < mp := by
  unfold january march
  split
  · left
    rw [if_neg (by simp only; omega)]
    simp
  · by_cases hm : mp ≤ 11
    · left
      rw [if_pos (by simp only; omega)]
      simp
    · exact Or.inr (by omega)

def gregorianCivil (n : Int) : CivilDate :=
  let yd := marchYear (n + epoch)
  let mp := marchMonth yd.2
  let ym := january yd.1 mp
  ⟨(eraYear ym.1).1, (eraYear ym.1).2, ym.2.toNat, (yd.2 - monthFirst mp + 1).toNat⟩

def gregorianDay (d : CivilDate) : Int :=
  let ym := march (yearOfEra d.era d.year) d.month
  marchFirst ym.1 + monthFirst ym.2 + d.day - 1 - epoch

theorem gregorianDay_civil (n : Int) : gregorianDay (gregorianCivil n) = n := by
  obtain ⟨hn, hd⟩ := marchYear_spec (n + epoch)
  obtain ⟨h0, h11, hfirst⟩ := marchMonth_spec hd
  simp only [gregorianDay, gregorianCivil, yearOfEra_eraYear]
  generalize marchYear (n + epoch) = yd at *
  generalize marchMonth yd.2 = mp at *
  have hmonth : ((january yd.1 mp).2.toNat : Int) = (january yd.1 mp).2 := by
    unfold january
    split <;> simp only <;> omega
  have hday : ((yd.2 - monthFirst mp + 1).toNat : Int) = yd.2 - monthFirst mp + 1 := by omega
  have hmarch := (march_january yd.1 h0).resolve_right (by omega)
  rw [hmonth, hday, hmarch]
  simp only
  omega

/-- A civil date counts if it is the date of its day. -/
def gregorian : Calendar where
  civil := gregorianCivil
  dayNumber d := if gregorianCivil (gregorianDay d) = d then some (gregorianDay d) else none
  era := 1
  dayNumber_civil n := by rw [gregorianDay_civil, if_pos rfl]
  civil_of_dayNumber d n h := by
    split at h
    · rename_i hd
      rw [← Option.some.inj h]
      exact hd
    · cases h

example : gregorian.civil 4670 = ⟨1, 2013, 10, 15⟩ := by decide

end MysqlConnection.Civil
