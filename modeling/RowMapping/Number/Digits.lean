/-! Decimal digits: reading them, writing them, and powers of ten that may be negative. -/
namespace RowMapping.Number

def digit? (c : Char) : Option Nat :=
  if '0' ≤ c ∧ c ≤ '9' then some (c.toNat - 48) else none

def isDigit (c : Char) : Bool := (digit? c).isSome

/-- The number that digits write, most significant first. Other characters count as zero. -/
def ofDigits (cs : List Char) : Nat := cs.foldl (fun n c => 10 * n + (digit? c).getD 0) 0

def spanDigits (cs : List Char) : List Char × List Char := (cs.takeWhile isDigit, cs.dropWhile isDigit)

def digits (n : Nat) : List Char := (toString n).toList

def padded (width n : Nat) : List Char :=
  let ds := digits n
  List.replicate (width - ds.length) '0' ++ ds

/-- `numerator * 10 ^ e / denominator` as a fraction, for an exponent of either sign. -/
def scaleTen (numerator denominator : Nat) (e : Int) : Nat × Nat :=
  if 0 ≤ e then (numerator * Nat.pow 10 e.toNat, denominator)
  else (numerator, denominator * Nat.pow 10 (-e).toNat)

def scaleTwo (numerator denominator : Nat) (e : Int) : Nat × Nat :=
  if 0 ≤ e then (numerator * Nat.pow 2 e.toNat, denominator)
  else (numerator, denominator * Nat.pow 2 (-e).toNat)

def roundEven (numerator denominator : Nat) : Nat :=
  let q := numerator / denominator
  let r := numerator % denominator
  if 2 * r < denominator then q
  else if denominator < 2 * r then q + 1
  else if q % 2 = 0 then q else q + 1

def roundUp (numerator denominator : Nat) : Nat := (2 * numerator + denominator) / (2 * denominator)

/-- Drops single underscores between characters. Doubled ones and those at an end are refused. -/
def dropUnderscores? (cs : List Char) : Option (List Char) :=
  if cs.head? = some '_' || cs.getLast? = some '_' then none
  else if (cs.zip cs.tail).any (fun p => p.1 = '_' && p.2 = '_') then none
  else some (cs.filter (· != '_'))

end RowMapping.Number
