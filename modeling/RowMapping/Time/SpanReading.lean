import RowMapping.Time.Reading

/-! Reading spans of time: the ISO form with letters, days in words, and clock time. -/
namespace RowMapping.Time

open RowMapping.Number

structure SpanParts where
  days : Nat
  seconds : Nat
  micros : Nat

def readSpanNumber (cs : List Char) : Read (Nat × List Char) :=
  let (ds, rest) := spanDigits cs
  if ds.isEmpty then .error .spanNumber
  else
    let n := ofDigits ds
    if Nat.pow 2 32 ≤ n then .error .spanValueTooLarge else .ok (n, rest)

private def skipT (gotT : Bool) : Read Bool := if gotT then .error .spanRepeatedT else .ok true

/-- Seconds in a unit letter, before or after the `T`. -/
def unitSeconds (afterT : Bool) (letter : Option Char) : Read Nat :=
  if afterT then
    match letter with
    | some 'H' => .ok 3600
    | some 'M' => .ok 60
    | some 'S' => .ok 1
    | _ => .error .spanTimeUnit
  else
    match letter with
    | some 'Y' => .ok (365 * 86400)
    | some 'M' => .ok (30 * 86400)
    | some 'W' => .ok (7 * 86400)
    | some 'D' => .ok 86400
    | _ => .error .spanDateUnit

/-- Quantities with unit letters to the end. Only the last may have a fraction. -/
def readUnits : Nat → Bool → Bool → SpanParts → List Char → Read SpanParts
  | 0, _, _, acc, _ => .ok acc
  | _ + 1, _, _, acc, [] => .ok acc
  | fuel + 1, gotT, hadFraction, acc, 'T' :: cs => do
    let gotT ← skipT gotT
    readUnits fuel gotT hadFraction acc cs
  | fuel + 1, gotT, hadFraction, acc, cs => do
    let (n, rest) ← readSpanNumber cs
    let (fraction, rest) : Option (List Char) × List Char := match rest with
      | '.' :: more => (some (spanDigits more).1, (spanDigits more).2)
      | ',' :: more => (some (spanDigits more).1, (spanDigits more).2)
      | other => (none, other)
    if hadFraction then throw .spanFraction
    let unit ← unitSeconds gotT rest.head?
    let part := fraction.getD []
    let micros := roundUp (ofDigits part * unit * 1000000) (Nat.pow 10 part.length)
    let acc : SpanParts := ⟨acc.days, acc.seconds + n * unit, acc.micros + micros⟩
    readUnits fuel gotT fraction.isSome acc rest.tail

/-- Hours beyond a day are allowed: `HH:MM[:SS[.ffffff]]` with any number of hour digits to ten. -/
def readSpanClock (cs : List Char) : Read SpanParts := do
  if cs.length < 5 then throw .tooShort
  let hourText := cs.takeWhile (· != ':')
  let rest := cs.dropWhile (· != ':')
  if rest.isEmpty then throw .hourCharacter
  if 10 < hourText.length then throw .spanHourTooLarge
  if !hourText.all isDigit then throw .hourCharacter
  let hours := ofDigits hourText
  if 2400000000 < hours then throw .spanHourTooLarge
  let (clock, after) ← readClockFront ('0' :: '0' :: ':' :: (rest.tail.take 12))
  if !after.isEmpty then throw .extraCharacters
  return ⟨0, hours * 3600 + clock.minute * 60 + clock.second, clock.microsecond⟩

/-- The word `day` or a piece of it, with or without an `s`. -/
def readDayWord : List Char → Read (List Char)
  | c :: cs =>
    if c = 'a' || c = 'A' then
      match cs with
      | y :: more =>
        if y = 'y' || y = 'Y' then
          match more with
          | s :: after => if s = 's' || s = 'S' then .ok after else .ok more
          | [] => .ok []
        else .error .spanDays
      | [] => .error .spanDays
    else .ok (c :: cs)
  | [] => .ok []

def readDays (cs : List Char) : Read SpanParts := do
  if cs.isEmpty then throw .tooShort
  let (days, cs) ← readSpanNumber cs
  let cs := match cs with
    | ' ' :: more => more
    | other => other
  match cs with
  | [] => throw .tooShort
  | d :: cs =>
    if d != 'd' && d != 'D' then throw .spanDays
    let cs ← readDayWord cs
    let cs := match cs with
      | ',' :: more => more
      | other => other
    match cs with
    | [] => return ⟨days, 0, 0⟩
    | [' '] => return ⟨days, 0, 0⟩
    | ' ' :: more =>
      let clock ← readSpanClock more
      return { clock with days := days }
    | _ => throw .spanDays

def spanOf (negative : Bool) (p : SpanParts) : Read Span :=
  let micros := (p.days * 86400 + p.seconds) * 1000000 + p.micros
  if 1000000000 * 86400000000 ≤ micros then .error .spanDaysTooLarge
  else .ok ⟨if negative then -(micros : Int) else micros⟩

def readSpan (cs : List Char) : Read Span := do
  let (negative, body) : Bool × List Char := match cs with
    | '+' :: more => (false, more)
    | '-' :: more => (true, more)
    | more => (false, more)
  if cs.isEmpty then throw .tooShort
  match body with
  | 'P' :: units =>
    let parts ← readUnits (units.length + 1) false false ⟨0, 0, 0⟩ units
    if cs.length < 3 then throw .tooShort
    spanOf negative parts
  | _ =>
    if cs.any (fun c => c = 'd' || c = 'D') || cs.length < 5 then
      let parts ← readDays body
      spanOf negative parts
    else
      let parts ← readSpanClock body
      spanOf negative parts

end RowMapping.Time
