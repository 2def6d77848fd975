import RowMapping.Number.Binary64
import RowMapping.Time.Calendar

/-! Reading times from text. Each reader takes the characters from the left and either yields a value
or the first fault it meets. Characters stand for the bytes of the text here. -/
namespace RowMapping.Time

open RowMapping.Number

inductive ReadFault where
  | tooShort | extraCharacters | dateTimeSeparator | dateSeparator | timeSeparator
  | yearCharacter | monthCharacter | dayCharacter
  | hourCharacter | minuteCharacter | secondCharacter
  | zoneSign | zoneHour | zoneMinute | zoneMinuteRange | zoneRange
  | monthRange | dayRange | hourRange | minuteRange | secondRange | fractionMissing
  | spanNumber | spanRepeatedT | spanFraction | spanTimeUnit | spanDateUnit | spanDays
  | spanValueTooLarge | spanDaysTooLarge | spanHourTooLarge
  | dateTooSmall | dateTooLarge | timeTooLarge | timeNegative | notANumber | yearZero | notExact
  deriving DecidableEq, Repr

def ReadFault.message : ReadFault → String
  | .tooShort => "input is too short"
  | .extraCharacters => "unexpected extra characters at the end of the input"
  | .dateTimeSeparator =>
    String.ofList ("invalid datetime separator, expected ".toList ++ quoteT 'T' ++ ", ".toList
      ++ quoteT 't' ++ ", ".toList ++ quoteT '_' ++ " or space".toList)
  | .dateSeparator => String.ofList ("invalid date separator, expected ".toList ++ quoteT '-')
  | .timeSeparator => String.ofList ("invalid time separator, expected ".toList ++ quoteT ':')
  | .yearCharacter => "invalid character in year"
  | .monthCharacter => "invalid character in month"
  | .dayCharacter => "invalid character in day"
  | .hourCharacter => "invalid character in hour"
  | .minuteCharacter => "invalid character in minute"
  | .secondCharacter => "invalid character in second"
  | .zoneSign => "invalid timezone sign"
  | .zoneHour => "invalid timezone hour"
  | .zoneMinute => "invalid timezone minute"
  | .zoneMinuteRange => "timezone minute value is outside expected range of 0-59"
  | .zoneRange => "timezone offset must be less than 24 hours"
  | .monthRange => "month value is outside expected range of 1-12"
  | .dayRange => "day value is outside expected range"
  | .hourRange => "hour value is outside expected range of 0-23"
  | .minuteRange => "minute value is outside expected range of 0-59"
  | .secondRange => "second value is outside expected range of 0-59"
  | .fractionMissing => "second fraction value is missing"
  | .spanNumber => "invalid digit in duration"
  | .spanRepeatedT => String.ofList (quoteT 't' ++ " character repeated in duration".toList)
  | .spanFraction => "quantity fraction invalid in duration"
  | .spanTimeUnit => "quantity invalid in time part of duration"
  | .spanDateUnit => "quantity invalid in date part of duration"
  | .spanDays => "\"day\" identifier in duration not correctly formatted"
  | .spanValueTooLarge => "a numeric value in the duration is too large"
  | .spanDaysTooLarge => "durations may not exceed 999,999,999 days"
  | .spanHourTooLarge => "duration hour value is too large"
  | .dateTooSmall => "dates before 1600 are not supported as unix timestamps"
  | .dateTooLarge => "dates after 9999 are not supported as unix timestamps"
  | .timeTooLarge => "numeric times may not exceed 86,399 seconds"
  | .timeNegative => "time in seconds should be positive"
  | .notANumber => "NaN values not permitted"
  | .yearZero => "year 0 is out of range"
  | .notExact => "date was not exact"
where
  quoteT (c : Char) : List Char := [Char.ofNat 96, c, Char.ofNat 96]

abbrev Read (α : Type) := Except ReadFault α

def readDigits (fault : ReadFault) : Nat → Nat → List Char → Read (Nat × List Char)
  | 0, acc, cs => .ok (acc, cs)
  | _ + 1, _, [] => .error fault
  | count + 1, acc, c :: cs =>
    match digit? c with
    | some d => readDigits fault count (10 * acc + d) cs
    | none => .error fault

def readMark (fault : ReadFault) (mark : Char) : List Char → Read (List Char)
  | c :: cs => if c = mark then .ok cs else .error fault
  | [] => .error fault

/-- The date `YYYY-MM-DD` at the front. -/
def readDateFront (cs : List Char) : Read (Date × List Char) := do
  if cs.length < 10 then throw .tooShort
  let (year, cs) ← readDigits .yearCharacter 4 0 cs
  let cs ← readMark .dateSeparator '-' cs
  let (month, cs) ← readDigits .monthCharacter 2 0 cs
  let cs ← readMark .dateSeparator '-' cs
  let (day, cs) ← readDigits .dayCharacter 2 0 cs
  let most := Date.daysInMonth year month
  if most = 0 then throw .monthRange
  if day < 1 || most < day then throw .dayRange
  return (⟨year, month, day⟩, cs)

/-- The digits after a point as microseconds: missing places are zeros, further digits are cut. -/
def microsOf (ds : List Char) : Nat := ofDigits (ds.take 6 ++ List.replicate (6 - ds.length) '0')

/-- The time `HH:MM[:SS[.ffffff]]` at the front. -/
def readClockFront (cs : List Char) : Read (TimeOfDay × List Char) := do
  if cs.length < 5 then throw .tooShort
  let (hour, cs) ← readDigits .hourCharacter 2 0 cs
  let cs ← readMark .timeSeparator ':' cs
  let (minute, cs) ← readDigits .minuteCharacter 2 0 cs
  if 23 < hour then throw .hourRange
  if 59 < minute then throw .minuteRange
  match cs with
  | ':' :: cs =>
    let (second, cs) ← readDigits .secondCharacter 2 0 cs
    if 59 < second then throw .secondRange
    let fraction (ds : List Char) : Read (TimeOfDay × List Char) :=
      let (part, rest) := spanDigits ds
      if part.isEmpty then .error .fractionMissing
      else .ok (⟨hour, minute, second, microsOf part, none⟩, rest)
    match cs with
    | '.' :: ds => fraction ds
    | ',' :: ds => fraction ds
    | rest => return (⟨hour, minute, second, 0, none⟩, rest)
  | rest => return (⟨hour, minute, 0, 0, none⟩, rest)

private def readZoneDigits (negative : Bool) (cs : List Char) : Read (Int × List Char) := do
  let (hours, cs) ← readDigits .zoneHour 2 0 cs
  let cs := match cs with
    | ':' :: more => more
    | other => other
  let (minutes, cs) ← readDigits .zoneMinute 2 0 cs
  if 59 < minutes then throw .zoneMinuteRange
  let seconds := hours * 3600 + minutes * 60
  if 86400 ≤ seconds then throw .zoneRange
  return (if negative then -(seconds : Int) else seconds, cs)

def readZoneFront : List Char → Read (Option Int × List Char)
  | [] => .ok (none, [])
  | c :: cs =>
    if c = 'Z' || c = 'z' then .ok (some 0, cs)
    else if c = '+' || c = '-' then do
      let (offset, cs) ← readZoneDigits (c = '-') cs
      return (some offset, cs)
    else match c.toNat, cs.map Char.toNat with
      | 0xE2, 0x88 :: 0x92 :: _ => do
        let (offset, cs) ← readZoneDigits true (cs.drop 2)
        return (some offset, cs)
      | _, _ => .error .zoneSign

def readTime (cs : List Char) : Read TimeOfDay := do
  let (clock, cs) ← readClockFront cs
  let (offset, cs) ← readZoneFront cs
  if !cs.isEmpty then throw .extraCharacters
  return { clock with offset := offset }

/-- Seconds since 1970 at the ends of the years 1600 and 9999. -/
def unixStart : Int := -11676096000
def unixEnd : Int := 253402300799

/-- The moment so long after 1970 in universal time. Counts beyond twenty thousand million are
milliseconds. -/
def ofUnix (count : Int) (micros : Nat) : Read DateTime := do
  let (seconds, extra) : Int × Nat :=
    if count.natAbs ≤ 20000000000 then (count, 0)
    else (Int.fdiv count 1000, (Int.fmod count 1000).toNat * 1000)
  let total := micros + extra
  let seconds := seconds + (total / 1000000 : Nat)
  if count ≤ -(Nat.pow 2 63 : Int) || seconds < unixStart then throw .dateTooSmall
  if Nat.pow 2 63 ≤ count || unixEnd < seconds then throw .dateTooLarge
  let day := Int.fdiv seconds 86400
  return ⟨Date.ofDayNumber day,
    TimeOfDay.ofSeconds (seconds - day * 86400).toNat (total % 1000000) (some 0)⟩

inductive Count where
  | whole (n : Int)
  | broken (x : Binary64)

def readCount? (cs : List Char) : Option Count :=
  let (negative, body) := match cs with
    | '-' :: more => (true, more)
    | '+' :: more => (false, more)
    | more => (false, more)
  let (ds, rest) := spanDigits body
  if ds.isEmpty then none
  else match rest with
    | [] =>
      let n := ofDigits ds
      if n < Nat.pow 2 63 then some (.whole (if negative then -(n : Int) else n)) else none
    | '.' :: _ => (Binary64.ofChars? cs).map .broken
    | _ => none

/-- The moment of a count that is not whole: milliseconds where it is large, rounded to microseconds. -/
def ofBrokenUnix (x : Binary64) : Read DateTime :=
  let q := x.magnitude
  let den := if 20000000000 * q.2 < q.1 then q.2 * 1000 else q.2
  let exact : Int := if x.isNegative then -(q.1 : Int) else q.1
  let seconds := Int.fdiv exact den
  let rest := (exact - seconds * den).toNat
  ofUnix seconds (roundUp (rest * 1000000) den)

/-- A moment: date, separator, time; or a count of seconds. -/
def readDateTime (cs : List Char) : Read DateTime :=
  let written : Read DateTime := do
    let (date, cs) ← readDateFront cs
    match cs with
    | c :: cs =>
      if c = 'T' || c = 't' || c = ' ' || c = '_' then
        let time ← readTime cs
        return ⟨date, time⟩
      else throw .dateTimeSeparator
    | [] => throw .dateTimeSeparator
  match written with
  | .ok d => .ok d
  | .error fault =>
    match readCount? cs with
    | some (.whole n) => ofUnix n 0
    | some (.broken x) => ofBrokenUnix x
    | none => .error fault

private def exactDay (d : DateTime) : Read Date :=
  if d.time.isMidnight then .ok d.date else .error .notExact

/-- A day: a date with nothing after it; or a count of seconds at midnight. -/
def readDate (cs : List Char) : Read Date :=
  let written : Read Date := do
    let (date, cs) ← readDateFront cs
    if !cs.isEmpty then throw .extraCharacters
    return date
  match written with
  | .ok d => .ok d
  | .error fault =>
    match readCount? cs with
    | some (.whole n) => ofUnix n 0 >>= exactDay
    | some (.broken x) => ofBrokenUnix x >>= exactDay
    | none => .error fault

end RowMapping.Time
