import RowMapping.Number.Digits
import RowMapping.Time.Calendar

/-! Written times: the ISO form for answers, and the constructor form that messages show. -/
namespace RowMapping.Time

open RowMapping.Number

private def two (n : Nat) : List Char := padded 2 n

def offsetChars (offset : Int) : List Char :=
  let n := offset.natAbs
  (if offset < 0 then '-' else '+') :: two (n / 3600) ++ ':' :: two (n / 60 % 60)
    ++ (if n % 60 = 0 then [] else ':' :: two (n % 60))

private def isoDate (d : Date) : List Char :=
  padded 4 d.year ++ '-' :: two d.month ++ '-' :: two d.day

private def isoTime (t : TimeOfDay) : List Char :=
  two t.hour ++ ':' :: two t.minute ++ ':' :: two t.second
    ++ (if t.microsecond = 0 then [] else '.' :: padded 6 t.microsecond)
    ++ (match t.offset with | none => [] | some o => offsetChars o)

def Date.iso (d : Date) : String := String.ofList (isoDate d)
def TimeOfDay.iso (t : TimeOfDay) : String := String.ofList (isoTime t)
def DateTime.iso (d : DateTime) : String := String.ofList (isoDate d.date ++ 'T' :: isoTime d.time)

private def joined (parts : List String) : String := ", ".intercalate parts

def Span.shown (s : Span) : String :=
  let (days, seconds, micros) := s.parts
  let named :=
    (if days = 0 then [] else ["days=" ++ toString days])
      ++ (if seconds = 0 then [] else ["seconds=" ++ toString seconds])
      ++ (if micros = 0 then [] else ["microseconds=" ++ toString micros])
  "datetime.timedelta(" ++ (if named.isEmpty then "0" else joined named) ++ ")"

private def zoneShown (offset : Int) : String :=
  if offset = 0 then "tzinfo=datetime.timezone.utc"
  else "tzinfo=datetime.timezone(" ++ (Span.mk (offset * 1000000)).shown ++ ")"

/-- Hours and minutes always; seconds and microseconds up to the last that is not zero. -/
private def timeParts (t : TimeOfDay) : List String :=
  [toString t.hour, toString t.minute]
    ++ (if t.second = 0 && t.microsecond = 0 then [] else [toString t.second])
    ++ (if t.microsecond = 0 then [] else [toString t.microsecond])
    ++ (match t.offset with | none => [] | some o => [zoneShown o])

private def dateParts (d : Date) : List String :=
  [toString d.year, toString d.month, toString d.day]

def Date.shown (d : Date) : String := "datetime.date(" ++ joined (dateParts d) ++ ")"
def TimeOfDay.shown (t : TimeOfDay) : String := "datetime.time(" ++ joined (timeParts t) ++ ")"
def DateTime.shown (d : DateTime) : String :=
  "datetime.datetime(" ++ joined (dateParts d.date ++ timeParts d.time) ++ ")"

end RowMapping.Time
