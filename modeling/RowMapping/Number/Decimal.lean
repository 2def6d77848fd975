import RowMapping.Number.Binary64
import RowMapping.Text.Quoted

/-! Decimal numbers that keep their written precision: a coefficient and a power of ten. -/
namespace RowMapping.Number

inductive Decimal where
  | finite (negative : Bool) (coefficient : Nat) (exponent : Int)
  | infinite (negative : Bool)
  | nan (negative signaling : Bool) (payload : Nat)
  deriving DecidableEq, Repr, Inhabited

namespace Decimal

def ofInt (n : Int) : Decimal := .finite (n < 0) n.natAbs 0

def isFinite : Decimal → Bool
  | .finite .. => true
  | _ => false

private def signText (negative : Bool) : List Char := if negative then ['-'] else []

/-- The written form. The point is set by place down to six zeros after it; a positive exponent,
and anything smaller, is written with `E` and a sign. -/
def render : Decimal → String
  | .infinite s => String.ofList (signText s ++ "Infinity".toList)
  | .nan s signaling payload =>
    String.ofList (signText s ++ (if signaling then ['s'] else []) ++ "NaN".toList
      ++ (if payload = 0 then [] else digits payload))
  | .finite s c e =>
    let ds := digits c
    let left : Int := e + ds.length
    let place : Int := if e ≤ 0 && -6 < left then left else 1
    let body :=
      if place ≤ 0 then '0' :: '.' :: List.replicate (-place).toNat '0' ++ ds
      else
        let p := place.toNat
        let part := ds.drop p
        ds.take p ++ List.replicate (p - ds.length) '0'
          ++ (if part.isEmpty then [] else '.' :: part)
    let tail :=
      if left = place then []
      else
        let x := left - place
        'E' :: (if x < 0 then '-' else '+') :: digits x.natAbs
    String.ofList (signText s ++ body ++ tail)

def magnitude : Decimal → Nat × Nat
  | .finite _ c e => scaleTen c 1 e
  | _ => (0, 1)

def toInt? : Decimal → Option Int
  | .finite s c e =>
    let q := scaleTen c 1 e
    if q.1 % q.2 = 0 then
      let n : Int := (q.1 / q.2 : Nat)
      some (if s then -n else n)
    else none
  | _ => none

def toBinary64? : Decimal → Option Binary64
  | .finite s c e => some (Binary64.ofScientific s c e)
  | .infinite s => some (.infinite s)
  | .nan _ signaling _ => if signaling then none else some .nan

private def bodyOf? (negative : Bool) (cs : List Char) : Option Decimal :=
  let (whole, rest) := spanDigits cs
  let (part, rest) := match rest with
    | '.' :: more => spanDigits more
    | other => ([], other)
  if whole.isEmpty && part.isEmpty then none
  else
    let scaled (e : Int) : Decimal := .finite negative (ofDigits (whole ++ part)) (e - part.length)
    match rest with
    | [] => some (scaled 0)
    | c :: more =>
      if c != 'e' && c != 'E' then none
      else
        let (down, more) := match more with
          | '+' :: ds => (false, ds)
          | '-' :: ds => (true, ds)
          | ds => (false, ds)
        if more.isEmpty || !more.all isDigit then none
        else
          let n : Int := ofDigits more
          some (scaled (if down then -n else n))

/-- Reads a numeral as it is written, keeping trailing zeros. Blanks around it and underscores
anywhere are dropped; the names of infinity and NaN count in any case. -/
def ofText? (s : String) : Option Decimal :=
  let cs := (Text.trim s.toList).filter (· != '_')
  let (negative, body) := match cs with
    | '-' :: more => (true, more)
    | '+' :: more => (false, more)
    | more => (false, more)
  let small := body.map Char.toLower
  let name := String.ofList small
  if name = "inf" || name = "infinity" then some (.infinite negative)
  else if small.take 3 = ['n', 'a', 'n'] && (small.drop 3).all isDigit then
    some (.nan negative false (ofDigits (small.drop 3)))
  else if small.take 4 = ['s', 'n', 'a', 'n'] && (small.drop 4).all isDigit then
    some (.nan negative true (ofDigits (small.drop 4)))
  else bodyOf? negative body

end Decimal
end RowMapping.Number
