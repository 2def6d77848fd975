import RowMapping.Number.Digits

/-! Binary floating point with 53 bits of significand. A finite value is `m * 2 ^ e` in its one
canonical form, so equal values are equal terms up to the sign of zero. -/
namespace RowMapping.Number

inductive Binary64 where
  | finite (negative : Bool) (significand : Nat) (exponent : Int)
  | infinite (negative : Bool)
  | nan
  deriving DecidableEq, Repr, Inhabited

namespace Binary64

def leastExponent : Int := -1074
def greatestExponent : Int := 971

def zero (negative : Bool) : Binary64 := .finite negative 0 leastExponent

/-- The nearest value to a quotient, a tie to the even significand; infinite beyond the range. -/
def ofQuotient (negative : Bool) (numerator denominator : Nat) : Binary64 :=
  if numerator = 0 || denominator = 0 then zero negative
  else
    let gap : Int := (Nat.log2 numerator : Int) - (Nat.log2 denominator : Int)
    let above := scaleTwo numerator denominator (-gap)
    let top := if above.2 ≤ above.1 then gap else gap - 1
    let e := max (top - 52) leastExponent
    let scaled := scaleTwo numerator denominator (-e)
    let m := roundEven scaled.1 scaled.2
    let carried := decide (Nat.pow 2 53 ≤ m)
    let m' := if carried then m / 2 else m
    let e' := if carried then e + 1 else e
    if greatestExponent < e' then .infinite negative else .finite negative m' e'

/-- The nearest value to `c * 10 ^ e`. Exponents far outside the range are settled by size alone. -/
def ofScientific (negative : Bool) (c : Nat) (e : Int) : Binary64 :=
  if c = 0 then zero negative
  else
    let size := (digits c).length + e
    if 400 < size then .infinite negative
    else if size < -400 then zero negative
    else
      let q := scaleTen c 1 e
      ofQuotient negative q.1 q.2

def ofInt (n : Int) : Binary64 := ofQuotient (n < 0) n.natAbs 1

def isNaN : Binary64 → Bool
  | .nan => true
  | _ => false

def isFinite : Binary64 → Bool
  | .finite .. => true
  | _ => false

def isNegative : Binary64 → Bool
  | .finite s .. => s
  | .infinite s => s
  | .nan => false

def magnitude : Binary64 → Nat × Nat
  | .finite _ m e => scaleTwo m 1 e
  | _ => (0, 1)

def floor (x : Binary64) : Int :=
  let q := x.magnitude
  if x.isNegative then -(((q.1 + q.2 - 1) / q.2 : Nat) : Int) else ((q.1 / q.2 : Nat) : Int)

def toInt? : Binary64 → Option Int
  | .finite s m e =>
    let q := scaleTwo m 1 e
    if q.1 % q.2 = 0 then
      let n : Int := (q.1 / q.2 : Nat)
      some (if s then -n else n)
    else none
  | _ => none

/-- Millionths of the part after the point, of the magnitude: the product is rounded to a value
of this type first, then to a whole number with ties upward. -/
def millionths (x : Binary64) : Nat :=
  let q := x.magnitude
  let product := (ofQuotient false ((q.1 % q.2) * 1000000) q.2).magnitude
  roundUp product.1 product.2

structure Shortest where
  coefficient : Nat
  exponent : Int

/-- The power of ten just above a positive fraction: `10 ^ (p - 1) ≤ a / b < 10 ^ p`. -/
def decimalPlace (a b : Nat) : Int :=
  if b ≤ a then ((digits (a / b)).length : Int)
  else
    let d : Int := ((digits (b / a)).length : Int)
    let low := scaleTen a b d
    -- `a / b` lies in `(10 ^ (-d), 10 ^ (1 - d)]`
    if low.1 < 10 * low.2 then 1 - d else 2 - d

/-- The reals that round to a positive finite value, as fractions over four units in the last place:
lower end, value, upper end, and whether the ends belong. -/
structure Interval where
  low : Nat × Nat
  mid : Nat × Nat
  high : Nat × Nat
  closed : Bool

def interval (m : Nat) (e : Int) : Interval where
  low := scaleTwo (4 * m - (if m = Nat.pow 2 52 && leastExponent < e then 1 else 2)) 1 (e - 2)
  mid := scaleTwo (4 * m) 1 (e - 2)
  high := scaleTwo (4 * m + 2) 1 (e - 2)
  closed := m % 2 = 0

def Interval.holds (i : Interval) (k : Nat) (e : Int) : Bool :=
  let q := scaleTen k 1 e
  let lowSide := compare (i.low.1 * q.2) (q.1 * i.low.2)
  let highSide := compare (q.1 * i.high.2) (i.high.1 * q.2)
  if i.closed then lowSide != .gt && highSide != .gt else lowSide == .lt && highSide == .lt

/-- Tries grids of `n` digits, coarse ones first: on each the two neighbours of the value. -/
def shortestFrom (i : Interval) (place : Int) : Nat → Nat → Shortest
  | 0, _ => ⟨0, place⟩
  | tries + 1, n =>
    let e := place - n
    let q := scaleTen i.mid.1 i.mid.2 (-e)
    let down := q.1 / q.2
    let near := roundEven q.1 q.2
    let far := if near = down then down + 1 else down
    if i.holds near e then ⟨near, e⟩
    else if i.holds far e then ⟨far, e⟩
    else shortestFrom i place tries (n + 1)

def shortest (m : Nat) (e : Int) : Shortest :=
  let i := interval m e
  shortestFrom i (decimalPlace i.mid.1 i.mid.2) 17 1

private def stripZeros (cs : List Char) : List Char := (cs.reverse.dropWhile (· = '0')).reverse

/-- Digits with the point `point` places after their start: positional from 10^-4 below 10^16,
scientific with a signed exponent of two digits or more elsewhere. -/
def layout (ds : List Char) (point : Int) : List Char :=
  if -4 < point && point ≤ 16 then
    if point ≤ 0 then '0' :: '.' :: List.replicate (-point).toNat '0' ++ ds
    else
      let p := point.toNat
      let whole := ds.take p ++ List.replicate (p - ds.length) '0'
      let part := ds.drop p
      whole ++ '.' :: (if part.isEmpty then ['0'] else part)
  else
    let e := point - 1
    let sign := if e < 0 then '-' else '+'
    let mantissa := match ds with
      | [] => []
      | [d] => [d]
      | d :: more => d :: '.' :: more
    mantissa ++ 'e' :: sign :: padded 2 e.natAbs

def render : Binary64 → String
  | .nan => "nan"
  | .infinite s => if s then "-inf" else "inf"
  | .finite s m e =>
    let sign := if s then ['-'] else []
    if m = 0 then String.ofList (sign ++ ['0', '.', '0'])
    else
      let short := shortest m e
      let all := digits short.coefficient
      let ds := stripZeros all
      String.ofList (sign ++ layout ds (short.exponent + all.length))

def magnitudeOf? (negative : Bool) (cs : List Char) : Option Binary64 :=
  let (whole, rest) := spanDigits cs
  let (part, rest) := match rest with
    | '.' :: more => spanDigits more
    | other => ([], other)
  if whole.isEmpty && part.isEmpty then none
  else
    let scaled (e : Int) : Binary64 := ofScientific negative (ofDigits (whole ++ part)) (e - part.length)
    match rest with
    | [] => some (scaled 0)
    | c :: more =>
      if c != 'e' && c != 'E' then none
      else
        let (down, more) := match more with
          | '+' :: ds => (false, ds)
          | '-' :: ds => (true, ds)
          | ds => (false, ds)
        if more.isEmpty || !more.all isDigit then none
        else
          let n : Int := ofDigits more
          some (scaled (if down then -n else n))

/-- Reads a numeral, or one of the names `nan`, `inf` and `infinity` in any case. -/
def ofChars? (cs : List Char) : Option Binary64 :=
  let (negative, body) := match cs with
    | '-' :: more => (true, more)
    | '+' :: more => (false, more)
    | more => (false, more)
  let name := String.ofList (body.map Char.toLower)
  if name = "nan" then some .nan
  else if name = "inf" || name = "infinity" then some (.infinite negative)
  else magnitudeOf? negative body

end Binary64
end RowMapping.Number
