import RowMapping.Convert.Rejection
import RowMapping.Schema.Class
import RowMapping.Time.SpanReading

/-! Scalar conversion: how a value of one kind is read as a value of another, generously or, where
`strict` holds, only from its own kind. -/
namespace RowMapping

open Number Time

inductive Scalar where
  | int | float | bool | text | bytes | decimal | datetime | date | time | span | uuid
  | enumeration (spec : EnumSpec)
  /-- Any member of any enumeration. -/
  | anyMember
  deriving Inhabited, Repr

namespace Scalar

abbrev Outcome := Except Rejection Value

private def byteChars (b : List UInt8) : List Char := b.map fun x => Char.ofNat x.toNat

private def written? : Value → Option (List Char)
  | .text s => some (byteChars (Text.toUtf8 s))
  | .member _ .text _ (.text s) => some (byteChars (Text.toUtf8 s))
  | .bytes b => some (byteChars b)
  | _ => none

/-- The integer a value is, not counting truth values. -/
private def whole? : Value → Option Int
  | .int n => some n
  | .member _ .integer _ (.int n) => some n
  | _ => none

private def readable? : Value → Option (List Char)
  | .text s => some s.toList
  | .member _ .text _ (.text s) => some s.toList
  | .bytes b => (Text.ofUtf8? b).map String.toList
  | _ => none

/-- Reads an integer: a sign, digits with single underscores between them, and a point with zeros
only. -/
def readInt (cs : List Char) : Except Rejection Int :=
  let cs := Text.trim cs
  if 4300 < cs.length then .error .intSize
  else
    let (negative, body) := match cs with
      | '-' :: more => (true, more)
      | '+' :: more => (false, more)
      | more => (false, more)
    let front := body.takeWhile (· != '.')
    let back := body.dropWhile (· != '.')
    let zeros := match back with
      | [] => true
      | _ :: ds => !ds.isEmpty && ds.all (· = '0')
    match dropUnderscores? front with
    | some ds =>
      if zeros && !ds.isEmpty && ds.all isDigit then
        .ok (if negative then -(ofDigits ds : Int) else ofDigits ds)
      else .error .intParsing
    | none => .error .intParsing

/-- The integer that a floating value is. A fraction below the distance from one to the next value
counts as none, and the integer must fit into 64 bits, with or without a sign. -/
private def wholeOfBinary64 (x : Binary64) : Except Rejection Int :=
  if !x.isFinite then .error .finiteNumber
  else
    let q := x.magnitude
    if q.2 < (q.1 % q.2) * Nat.pow 2 52 then .error .intFraction
    else
      let n : Int := (q.1 / q.2 : Nat)
      let n := if x.isNegative then -n else n
      if -(Nat.pow 2 63 : Int) < n && n < Nat.pow 2 64 then .ok n else .error .intSize

private def wholeOfDecimal (d : Decimal) : Except Rejection Int :=
  if !d.isFinite then .error .finiteNumber
  else match d.toInt? with
    | some n => .ok n
    | none => .error .intFraction

def toInt (strict : Bool) (v : Value) : Outcome :=
  match v with
  | .int n => .ok (.int n)
  | .member _ .integer _ (.int n) => .ok (.int n)
  | v =>
    if strict then .error .intType
    else match v with
      | .bool b => .ok (.int (if b then 1 else 0))
      | .float x => (wholeOfBinary64 x).map .int
      | .decimal d => (wholeOfDecimal d).map .int
      | .text _ | .bytes _ | .member _ .text _ _ =>
        match readable? v with
        | some cs => (readInt cs).map .int
        | none => .error .intParsing
      | .member _ _ _ value => .ok value
      | _ => .error .intType

def binaryOfInt (n : Int) : Outcome :=
  let x := Binary64.ofInt n
  if x.isFinite then .ok (.float x) else .error .floatType

/-- Reads a number as it stands, or else without its underscores. -/
def readFloat? (cs : List Char) : Option Binary64 :=
  (Binary64.ofChars? (Text.trim cs)).or
    ((dropUnderscores? cs).bind fun ds => Binary64.ofChars? (Text.trim ds))

def toFloat (strict : Bool) (v : Value) : Outcome :=
  match v with
  | .float x => .ok (.float x)
  | .int n => binaryOfInt n
  | .member _ .integer _ (.int n) => binaryOfInt n
  | v =>
    if strict then .error .floatType
    else match v with
      | .bool b => binaryOfInt (if b then 1 else 0)
      | .decimal d =>
        match d.toBinary64? with
        | some x => .ok (.float x)
        | none => .error .floatType
      | .text _ | .bytes _ | .member _ .text _ _ =>
        match (readable? v).bind readFloat? with
        | some x => .ok (.float x)
        | none => .error .floatParsing
      | _ => .error .floatType

private def falseWords : List String := ["0", "off", "f", "false", "n", "no"]
private def trueWords : List String := ["1", "on", "t", "true", "y", "yes"]

def truthOfInt (n : Int) : Outcome :=
  if n = 0 then .ok (.bool false)
  else if n = 1 then .ok (.bool true)
  else .error .boolParsing

def truthOfBinary64 (x : Binary64) : Outcome :=
  match wholeOfBinary64 x with
  | .ok n => truthOfInt n
  | .error _ => .error .boolType

/-- Integers beyond 64 bits count as floating. -/
def truthOfWhole (n : Int) : Outcome :=
  if -(Nat.pow 2 63 : Int) ≤ n && n < Nat.pow 2 63 then truthOfInt n else truthOfBinary64 (.ofInt n)

def toBool (strict : Bool) (v : Value) : Outcome :=
  match v with
  | .bool b => .ok (.bool b)
  | v =>
    if strict then .error .boolType
    else match v with
      | .int n => truthOfWhole n
      | .member _ .integer _ (.int n) => truthOfWhole n
      | .float x => truthOfBinary64 x
      | .decimal d => d.toBinary64?.elim (.error .boolType) truthOfBinary64
      | .text _ | .bytes _ | .member _ .text _ _ =>
        match readable? v with
        | some cs =>
          let word := String.ofList (cs.map Char.toLower)
          if falseWords.contains word then .ok (.bool false)
          else if trueWords.contains word then .ok (.bool true)
          else .error .boolParsing
        | none => .error .boolParsing
      | _ => .error .boolType

private def plainText? : Value → Option String
  | .text s => some s
  | .int n => some (toString n)
  | .bool b => some (if b then "True" else "False")
  | .null => some "None"
  | .float x => some x.render
  | .decimal d => some d.render
  | _ => none

def toText (strict : Bool) (v : Value) : Outcome :=
  match v with
  | .text s => .ok (.text s)
  | .member _ .text _ (.text s) => .ok (.text s)
  | v =>
    if strict then .error .textType
    else match v with
      | .bytes b => (Text.ofUtf8? b).elim (.error .textEncoding) fun s => .ok (.text s)
      | .member _ _ _ value => (plainText? value).elim (.error .textType) fun s => .ok (.text s)
      | _ => .error .textType

def finiteDecimal (d : Decimal) : Outcome :=
  if d.isFinite then .ok (.decimal d) else .error .finiteNumber

def decimalOfText (s : String) : Outcome :=
  match Decimal.ofText? s with
  | some d => finiteDecimal d
  | none => .error .decimalParsing

def toDecimal (strict : Bool) (v : Value) : Outcome :=
  match v with
  | .decimal d => finiteDecimal d
  | v =>
    if strict then .error (.instanceOf "Decimal")
    else match v with
      | .int n => .ok (.decimal (.ofInt n))
      | .member _ .integer _ (.int n) => .ok (.decimal (.ofInt n))
      | .float x => decimalOfText x.render
      | .text s => decimalOfText s
      | .member _ .text _ (.text s) => decimalOfText s
      | _ => .error .decimalType

def toBytes (strict : Bool) (v : Value) : Outcome :=
  match v with
  | .bytes b => .ok (.bytes b)
  | v =>
    if strict then .error .bytesType
    else match v with
      | .text s => .ok (.bytes (Text.toUtf8 s))
      | .member _ .text _ (.text s) => .ok (.bytes (Text.toUtf8 s))
      | _ => .error .bytesType

/-- A number that counts seconds. Integers beyond 64 bits count as floating. -/
private inductive Seconds where
  | whole (n : Int)
  | broken (x : Binary64)

private def secondsOfInt (n : Int) : Option Seconds :=
  if -(Nat.pow 2 63 : Int) ≤ n ∧ n < Nat.pow 2 63 then some (.whole n)
  else
    let x := Binary64.ofInt n
    if x.isFinite then some (.broken x) else none

private def seconds? : Value → Option Seconds
  | .float x => some (.broken x)
  | .decimal d => d.toBinary64?.map .broken
  | v => (whole? v).bind secondsOfInt

private def clampedFloor : Binary64 → Int
  | .nan => 0
  | .infinite s => if s then -(Nat.pow 2 63 : Int) else Nat.pow 2 63 - 1
  | x => max (-(Nat.pow 2 63 : Int)) (min (Nat.pow 2 63 - 1) x.floor)

private def microsOfPart (x : Binary64) : Nat := if x.isFinite then x.millionths else 0

private def momentOfSeconds : Seconds → Read DateTime
  | .whole n => ofUnix n 0
  | .broken x =>
    if x.isNaN then .error .notANumber else ofUnix (clampedFloor x) (microsOfPart x)

/-- Year zero can be read but not kept. -/
def keepDate (d : Date) : Outcome :=
  if d.year = 0 then .error (.unrepresentable "year 0 is out of range") else .ok (.date d)

def keepMoment (d : DateTime) : Outcome :=
  if d.date.year = 0 then .error (.unrepresentable "year 0 is out of range") else .ok (.moment d)

private def readMoment (v : Value) : Except Rejection DateTime :=
  match v with
  | .moment d => .ok d
  | .date d => .ok ⟨d, .midnight none⟩
  | v =>
    match written? v with
    | some cs =>
      match readDateTime cs with
      | .ok d => .ok d
      | .error f => .error (.datetimeParsing f)
    | none =>
      match seconds? v with
      | some s =>
        match momentOfSeconds s with
        | .ok d => .ok d
        | .error f => .error (.datetimeParsing f)
      | none => .error .datetimeType

def toMoment (strict : Bool) (v : Value) : Outcome :=
  match v with
  | .moment d => .ok (.moment d)
  | v =>
    if strict then .error .datetimeType
    else match readMoment v with
      | .ok d => keepMoment d
      | .error r =>
        match written? v with
        | some cs =>
          match readDate cs with
          | .ok d => keepMoment ⟨d, .midnight none⟩
          | .error f => .error (.datetimeFromDate f)
        | none => .error r

def dateOfMoment (v : Value) : Outcome :=
  match readMoment v with
  | .ok d => if d.time.isMidnight then keepDate d.date else .error .dateInexact
  | .error (.datetimeParsing f) => .error (.dateFromDatetime f)
  | .error _ => .error .dateType

def toDate (strict : Bool) (v : Value) : Outcome :=
  match v with
  | .date d => .ok (.date d)
  | v =>
    if strict then .error .dateType
    else match (written? v).map readDate with
      | some (.ok d) => keepDate d
      | _ => dateOfMoment v

private def timeOfSeconds (n : Int) (micros : Nat) : Read TimeOfDay :=
  if n < 0 then .error .timeNegative
  else
    let s := n.toNat + micros / 1000000
    if 86399 < s then .error .timeTooLarge else .ok (.ofSeconds s (micros % 1000000) (some 0))

def keepTime : Read TimeOfDay → Outcome
  | .ok t => .ok (.time t)
  | .error f => .error (.timeParsing f)

def toTime (strict : Bool) (v : Value) : Outcome :=
  match v with
  | .time t => .ok (.time t)
  | v =>
    if strict then .error .timeType
    else match written? v, seconds? v with
      | some cs, _ => keepTime (readTime cs)
      | none, some (.whole n) => keepTime (timeOfSeconds n 0)
      | none, some (.broken x) =>
        keepTime (if x.isNaN then .error .notANumber else timeOfSeconds (clampedFloor x) (microsOfPart x))
      | none, none => .error .timeType

private def spanOfSeconds : Seconds → Read Span
  | .whole n =>
    let s := n.natAbs
    spanOf (n < 0) ⟨s / 86400 % Nat.pow 2 32, s % 86400, 0⟩
  | .broken x =>
    if x.isNaN then .error .notANumber
    else if !x.isFinite then .error .spanDaysTooLarge
    else
      let q := x.magnitude
      spanOf x.isNegative ⟨0, q.1 / q.2, x.millionths⟩

def keepSpan : Read Span → Outcome
  | .ok s => .ok (.span s)
  | .error f => .error (.spanParsing f)

def toSpan (strict : Bool) (v : Value) : Outcome :=
  match v with
  | .span s => .ok (.span s)
  | v =>
    if strict then .error .spanType
    else match v with
      | .bool b => keepSpan (spanOfSeconds (.whole (if b then 1 else 0)))
      | v =>
        match written? v, seconds? v with
        | some cs, _ => keepSpan (readSpan cs)
        | none, some s => keepSpan (spanOfSeconds s)
        | none, none => .error .spanType

def keepUuid : Except UuidFault Uuid → Outcome
  | .ok u => .ok (.uuid u)
  | .error f => .error (.uuidParsing f)

def toUuid (strict : Bool) (v : Value) : Outcome :=
  match v with
  | .uuid u => .ok (.uuid u)
  | v =>
    if strict then .error (.instanceOf "UUID")
    else match v with
      | .text s => keepUuid (Uuid.ofText s)
      | .bytes b => keepUuid (Uuid.ofBytes b)
      | _ => .error .uuidType

private def sought? (base : EnumBase) (v : Value) : Option Value :=
  match base with
  | .integer =>
    match v with
    | .bool _ | .int _ | .float _ | .decimal _ | .text _ => (toInt false v).toOption
    | _ => none
  | .text =>
    match v with
    | .text _ => some v
    | _ => none
  | .plain =>
    match v with
    | .decimal _ | .bytes _ | .view _ | .member .. => none
    | v => some v

def toMember (spec : EnumSpec) (strict : Bool) (v : Value) : Outcome :=
  let refused : Outcome :=
    if spec.members.isEmpty then .error (.instanceOf spec.name)
    else .error (.member (spec.members.map fun m => m.2.shown))
  match v with
  | .member cls _ _ _ => if cls = spec.name then .ok v else refused
  | v =>
    if strict then .error (.instanceOf spec.name)
    else match (sought? spec.base v).bind spec.ofValue? with
      | some m => .ok m
      | none => refused

/-- Converts a value. A value of the scalar's own kind stays, if it passes the scalar's checks. -/
def convert (s : Scalar) (strict : Bool) (v : Value) : Outcome :=
  match s with
  | .int => toInt strict v
  | .float => toFloat strict v
  | .bool => toBool strict v
  | .text => toText strict v
  | .bytes => toBytes strict v
  | .decimal => toDecimal strict v
  | .datetime => toMoment strict v
  | .date => toDate strict v
  | .time => toTime strict v
  | .span => toSpan strict v
  | .uuid => toUuid strict v
  | .enumeration spec => toMember spec strict v
  | .anyMember =>
    match v with
    | .member .. => .ok v
    | _ => .error (.instanceOf "Enum")

def ofClass? (schema : Schema) : ClassRef → Option Scalar
  | .builtin .int => some .int
  | .builtin .float => some .float
  | .builtin .bool => some .bool
  | .builtin .text => some .text
  | .builtin .bytes => some .bytes
  | .builtin .decimal => some .decimal
  | .builtin .datetime => some .datetime
  | .builtin .date => some .date
  | .builtin .time => some .time
  | .builtin .span => some .span
  | .builtin .uuid => some .uuid
  | .builtin .enum => some .anyMember
  | .builtin _ => none
  | .declared n =>
    match (schema.find? n).map Class.shape with
    | some (.enumeration spec) => some (.enumeration spec)
    | _ => none

end Scalar
end RowMapping
