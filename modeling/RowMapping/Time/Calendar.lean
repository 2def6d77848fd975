/-! Calendar days. Days are counted from 1970-01-01, forwards and backwards, in the Gregorian
calendar without a beginning. -/
namespace RowMapping.Time

structure Date where
  year : Nat
  month : Nat
  day : Nat
  deriving DecidableEq, Repr, Inhabited

namespace Date

def isLeap (year : Nat) : Bool := year % 4 = 0 && (year % 100 != 0 || year % 400 = 0)

def daysInMonth (year month : Nat) : Nat :=
  if month = 2 then (if isLeap year then 29 else 28)
  else if month = 4 || month = 6 || month = 9 || month = 11 then 30
  else if 1 ≤ month && month ≤ 12 then 31
  else 0

/-- The day number, zero at 1970-01-01. Years start in March here, so a leap day comes last. -/
def dayNumber (d : Date) : Int :=
  let y : Int := if d.month ≤ 2 then (d.year : Int) - 1 else d.year
  let era := Int.fdiv y 400
  let yearOfEra := y - era * 400
  let shifted : Int := if 2 < d.month then (d.month : Int) - 3 else (d.month : Int) + 9
  let dayOfYear := (153 * shifted + 2) / 5 + d.day - 1
  let dayOfEra := yearOfEra * 365 + yearOfEra / 4 - yearOfEra / 100 + dayOfYear
  era * 146097 + dayOfEra - 719468

def ofDayNumber (n : Int) : Date :=
  let z := n + 719468
  let era := Int.fdiv z 146097
  let dayOfEra := z - era * 146097
  let yearOfEra := (dayOfEra - dayOfEra / 1460 + dayOfEra / 36524 - dayOfEra / 146096) / 365
  let dayOfYear := dayOfEra - (365 * yearOfEra + yearOfEra / 4 - yearOfEra / 100)
  let shifted := (5 * dayOfYear + 2) / 153
  let day := dayOfYear - (153 * shifted + 2) / 5 + 1
  let month := if shifted < 10 then shifted + 3 else shifted - 9
  let year := yearOfEra + era * 400 + (if month ≤ 2 then 1 else 0)
  ⟨year.toNat, month.toNat, day.toNat⟩

end Date

/-- A time of day with microseconds, and its distance from universal time in seconds if known. -/
structure TimeOfDay where
  hour : Nat
  minute : Nat
  second : Nat
  microsecond : Nat
  offset : Option Int
  deriving DecidableEq, Repr, Inhabited

namespace TimeOfDay

def midnight (offset : Option Int) : TimeOfDay := ⟨0, 0, 0, 0, offset⟩

def micros (t : TimeOfDay) : Nat :=
  ((t.hour * 60 + t.minute) * 60 + t.second) * 1000000 + t.microsecond

def ofSeconds (seconds microsecond : Nat) (offset : Option Int) : TimeOfDay :=
  ⟨seconds / 3600, seconds / 60 % 60, seconds % 60, microsecond, offset⟩

def isMidnight (t : TimeOfDay) : Bool := t.micros = 0

end TimeOfDay

structure DateTime where
  date : Date
  time : TimeOfDay
  deriving DecidableEq, Repr, Inhabited

namespace DateTime

/-- Microseconds since 1970-01-01 by the clock that shows the time. -/
def localMicros (d : DateTime) : Int := d.date.dayNumber * 86400000000 + d.time.micros

end DateTime

/-- A length of time in microseconds, of either sign. -/
structure Span where
  micros : Int
  deriving DecidableEq, Repr, Inhabited

namespace Span

/-- Days, seconds below a day and microseconds below a second; the days carry the sign. -/
def parts (s : Span) : Int × Nat × Nat :=
  let days := Int.fdiv s.micros 86400000000
  let rest := (s.micros - days * 86400000000).toNat
  (days, rest / 1000000, rest % 1000000)

def ofParts (days seconds micros : Int) : Span :=
  ⟨days * 86400000000 + seconds * 1000000 + micros⟩

end Span
end RowMapping.Time
