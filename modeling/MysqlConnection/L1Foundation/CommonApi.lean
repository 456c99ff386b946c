import MysqlConnection.Core.Calendar
import MysqlConnection.Core.DatePattern
import MysqlConnection.L1Foundation.NSString

/-!
# Dates as texts

`CommonApi dateToString:` and `stringToDate:`, with an `NSDateFormatter` for
any calendar and any fixed zone. The pattern `yyyy-MM-dd hh-mm-ss` has the hour
from 1 to 12 but neither a half of the day nor an era, so a text is read as
before noon and in the era of the calendar.

* `roundTrip_iff`: the dates that come back, to the second.
* `stored_iff`: two dates come back and have different texts for different
  seconds exactly if both are before noon and in that era.
* `dateToString_eq_iff`: which dates have the same text.
* `dateToString_add`: twelve hours later a date before noon has the same text.
-/
namespace MysqlConnection.L1.CommonApi

open Civil DatePattern

/-! ## The formatter -/

/-- Seconds since the reference date, 2001-01-01 in GMT. -/
abbrev NSDate := Rat

/-- The second of the date in the zone. -/
def localSecond (zone : Int) (date : NSDate) : Int := date.floor + zone

/-- `zone`: seconds from GMT. The era is that of texts without one. -/
structure NSDateFormatter where
  calendar : Calendar
  zone : Int
  dateFormat : NSString

namespace NSDateFormatter

variable (formatter : NSDateFormatter)

/-- The number for a letter. -/
def number (t : Int) : Letter → Nat
  | .y => (formatter.calendar.civil (day t)).year
  | .M => (formatter.calendar.civil (day t)).month
  | .d => (formatter.calendar.civil (day t)).day
  | .h => twelve (hour t)
  | .m => minute t
  | .s => second t

def stringFromDate (date : NSDate) : NSString :=
  format (formatter.number (localSecond formatter.zone date)) (compile formatter.dateFormat)

/-- The date with these numbers, if there is one. All letters must be there. -/
def dateOf (fs : List (Letter × Nat)) : Option NSDate :=
  match fs.lookup .y, fs.lookup .M, fs.lookup .d, fs.lookup .h, fs.lookup .m, fs.lookup .s with
  | some year, some month, some d, some h, some m, some s =>
    if 1 ≤ h ∧ h ≤ 12 ∧ m < 60 ∧ s < 60 then
      (formatter.calendar.dayNumber ⟨formatter.calendar.era, year, month, d⟩).map fun n =>
        ((secondAt n h m s - formatter.zone : Int) : Rat)
    else none
  | _, _, _, _, _, _ => none

def dateFromString (s : NSString) : Option NSDate :=
  (parse (compile formatter.dateFormat) s).bind formatter.dateOf

end NSDateFormatter

section
variable (calendar : Calendar) (zone : Int)

/-- mirrors CommonApi.m:14-15 and 20-21 -/
def formatter : NSDateFormatter := ⟨calendar, zone, ns "yyyy-MM-dd hh-mm-ss"⟩

/-- mirrors CommonApi.m:12-17 -/
def dateToString (date : NSDate) : NSString := (formatter calendar zone).stringFromDate date

/-- mirrors CommonApi.m:18-23 -/
def stringToDate (date : NSString) : Option NSDate := (formatter calendar zone).dateFromString date

/-! ## The pattern -/

def items : List Item :=
  [.field .y 4, .text '-', .field .M 2, .text '-', .field .d 2, .text ' ', .field .h 2, .text '-',
    .field .m 2, .text '-', .field .s 2]

theorem compile_dateFormat : compile (formatter calendar zone).dateFormat = items := by
  show compile (ns "yyyy-MM-dd hh-mm-ss") = items
  decide

theorem separated_items : Separated items := by simp [items, Separated]

/-- What is read back of the local second `t`. -/
theorem dateOf_fields (t : Int) :
    (formatter calendar zone).dateOf (fields ((formatter calendar zone).number t) items) =
      (calendar.dayNumber { calendar.civil (day t) with era := calendar.era }).map fun n =>
        ((secondAt n (twelve (hour t)) (minute t) (second t) - zone : Int) : Rat) := by
  have hr : 1 ≤ twelve (hour t) ∧ twelve (hour t) ≤ 12 ∧ minute t < 60 ∧ second t < 60 :=
    ⟨(twelve_bounds _).1, (twelve_bounds _).2, minute_lt t, second_lt t⟩
  show (if 1 ≤ twelve (hour t) ∧ twelve (hour t) ≤ 12 ∧ minute t < 60 ∧ second t < 60 then _ else none) = _
  rw [if_pos hr]
  rfl

/-! ## What comes back -/

/-- The text gives the date back, truncated to whole seconds. -/
def RoundTrip (date : NSDate) : Prop :=
  stringToDate calendar zone (dateToString calendar zone date) = some (date.floor : Rat)

/-- Before noon, in the era of texts without one. -/
structure Readable (date : NSDate) : Prop where
  hour : hour (localSecond zone date) < 12
  era : (calendar.civil (day (localSecond zone date))).era = calendar.era

theorem dateToString_eq (date : NSDate) :
    dateToString calendar zone date =
      format ((formatter calendar zone).number (localSecond zone date)) items := by
  rw [dateToString, NSDateFormatter.stringFromDate, compile_dateFormat]
  rfl

theorem stringToDate_dateToString (date : NSDate) :
    stringToDate calendar zone (dateToString calendar zone date) =
      (formatter calendar zone).dateOf
        (fields ((formatter calendar zone).number (localSecond zone date)) items) := by
  rw [dateToString_eq, stringToDate, NSDateFormatter.dateFromString, compile_dateFormat,
    parse_format _ separated_items, Option.bind_some]

theorem roundTrip_iff (date : NSDate) : RoundTrip calendar zone date ↔ Readable calendar zone date := by
  rw [RoundTrip, stringToDate_dateToString, dateOf_fields]
  generalize ht : localSecond zone date = t
  have hfloor : date.floor = t - zone := by
    rw [← ht, localSecond]
    omega
  constructor
  · intro h
    obtain ⟨n, hn, hs⟩ := Option.map_eq_some_iff.mp h
    rw [hfloor, Rat.intCast_inj] at hs
    obtain ⟨hday, hhour⟩ := of_secondAt_twelve (by omega : secondAt n _ _ _ = t)
    have hcivil := calendar.civil_of_dayNumber _ _ hn
    refine ⟨ht ▸ hhour, ?_⟩
    rw [ht, hday, hcivil]
  · rintro ⟨hhour, hera⟩
    rw [ht] at hhour hera
    have hcivil : { calendar.civil (day t) with era := calendar.era } = calendar.civil (day t) := by
      rw [← hera]
    rw [hcivil, calendar.dayNumber_civil, Option.map_some, secondAt_twelve hhour, hfloor]

/-- **Stored dates.** In every calendar and every zone, two dates come back from
their texts to the second, and have different texts for different seconds,
exactly if both are before noon and in the era of texts without one. -/
theorem stored_iff (date other : NSDate) :
    (RoundTrip calendar zone date ∧ RoundTrip calendar zone other ∧
      (date.floor ≠ other.floor →
        dateToString calendar zone date ≠ dateToString calendar zone other)) ↔
      Readable calendar zone date ∧ Readable calendar zone other := by
  rw [← roundTrip_iff, ← roundTrip_iff]
  constructor
  · exact fun h => ⟨h.1, h.2.1⟩
  · rintro ⟨h1, h2⟩
    refine ⟨h1, h2, fun hne heq => hne ?_⟩
    rw [RoundTrip, heq, h2, Option.some.injEq, Rat.intCast_inj] at h1
    exact h1.symm

/-- Two dates have the same text exactly if all numbers of the pattern agree. -/
theorem dateToString_eq_iff (date other : NSDate) :
    dateToString calendar zone date = dateToString calendar zone other ↔
      ∀ l, (formatter calendar zone).number (localSecond zone date) l =
        (formatter calendar zone).number (localSecond zone other) l := by
  rw [dateToString_eq, dateToString_eq]
  constructor
  · intro h l
    have hf := fields_inj separated_items h
    simp only [fields, items, List.cons.injEq, Prod.mk.injEq, true_and] at hf
    cases l <;> tauto
  · intro h
    rw [funext h]

/-- **Half a day later.** A date before noon has the text of the one after it. -/
theorem dateToString_add (date : NSDate) (h : hour (localSecond zone date) < 12) :
    dateToString calendar zone (date + 43200) = dateToString calendar zone date := by
  obtain ⟨hday, hhour, hminute, hsecond⟩ := clock_add h
  have hlater : localSecond zone (date + 43200) = localSecond zone date + 43200 := by
    have hfloor : (date + 43200).floor = date.floor + 43200 := Rat.floor_add_intCast
    rw [localSecond, localSecond, hfloor]
    omega
  rw [dateToString_eq_iff, hlater]
  intro l
  cases l <;> simp only [NSDateFormatter.number, hday, hhour, hminute, hsecond]

/-- The text is one that the store takes as it is. -/
theorem plain_dateToString (date : NSDate) : Sql.Plain (dateToString calendar zone date) := by
  have hno {c : Char} (hd : c.isDigit = false) (hc : .text c ∉ items) :
      c ∉ dateToString calendar zone date := by
    intro hm
    rw [dateToString_eq] at hm
    rcases mem_format hm with h | h
    · rw [hd] at h; cases h
    · exact hc h
  exact ⟨hno (by decide) (by decide), hno (by decide) (by decide)⟩

end

/-! ## An afternoon -/

/-- 2013-10-15 in GMT, one o'clock. -/
def morning : NSDate := ((4670 * 86400 + 3600 : Int) : Rat)

/-- The same day, one hour after noon. -/
def afternoon : NSDate := ((4670 * 86400 + 13 * 3600 : Int) : Rat)

/-- **An hour after noon.** The text is that of one o'clock in the morning, and
it is read as such. -/
theorem stored_afternoon :
    (dateToString gregorian 0 afternoon = ns "2013-10-15 01-00-00" ∧
      dateToString gregorian 0 morning = ns "2013-10-15 01-00-00" ∧
      stringToDate gregorian 0 (ns "2013-10-15 01-00-00") = some morning ∧ morning ≠ afternoon) ∧
    ¬ ∀ calendar zone date, RoundTrip calendar zone date := by
  have hm : localSecond 0 morning = 403491600 := by rw [localSecond, morning, Rat.floor_intCast]; rfl
  have ha : localSecond 0 afternoon = 403534800 := by rw [localSecond, afternoon, Rat.floor_intCast]; rfl
  have htext : dateToString gregorian 0 morning = ns "2013-10-15 01-00-00" := by
    rw [dateToString_eq, hm]
    decide
  have hread : Readable gregorian 0 morning := ⟨by rw [hm]; decide, by rw [hm]; decide⟩
  have hback := (roundTrip_iff gregorian 0 morning).mpr hread
  rw [RoundTrip, htext] at hback
  have hfloor : ((morning.floor : Int) : Rat) = morning := by rw [morning, Rat.floor_intCast]
  refine ⟨⟨?_, htext, by rw [hback, hfloor], by decide⟩, fun h => ?_⟩
  · rw [dateToString_eq, ha]
    decide
  · have hhour := ((roundTrip_iff gregorian 0 afternoon).mp (h gregorian 0 afternoon)).hour
    rw [ha] at hhour
    exact absurd hhour (by decide)

end MysqlConnection.L1.CommonApi
