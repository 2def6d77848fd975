import RowMapping.Text.Quoted
import RowMapping.Types.ClassRef
import RowMapping.Value.Basic

/-! Equality of values by what they denote. Numbers are equal across their kinds, members of numeric
and textual enumerations equal what they stand for, and times are compared where both or neither
know their distance from universal time. -/
namespace RowMapping

open Number Time

inductive Quantity where
  | ratio (negative : Bool) (numerator denominator : Nat)
  | infinite (negative : Bool)
  | undefined

namespace Quantity

/-- Cross multiplication; zero has no sign and nothing equals the undefined. -/
def same : Quantity → Quantity → Bool
  | .ratio s a b, .ratio t c d => a * d = c * b && (s = t || a = 0)
  | .infinite s, .infinite t => s = t
  | _, _ => false

def ofInt (n : Int) : Quantity := .ratio (n < 0) n.natAbs 1

def ofBinary64 : Binary64 → Quantity
  | .finite s m e => let q := scaleTwo m 1 e; .ratio s q.1 q.2
  | .infinite s => .infinite s
  | .nan => .undefined

def ofDecimal : Decimal → Quantity
  | .finite s c e => let q := scaleTen c 1 e; .ratio s q.1 q.2
  | .infinite s => .infinite s
  | .nan .. => .undefined

end Quantity

namespace Value

def quantity? : Value → Option Quantity
  | .bool b => some (.ofInt (if b then 1 else 0))
  | .int n => some (.ofInt n)
  | .float x => some (.ofBinary64 x)
  | .decimal d => some (.ofDecimal d)
  | .member _ .integer _ (.int n) => some (.ofInt n)
  | _ => none

def text? : Value → Option String
  | .text s => some s
  | .member _ .text _ (.text s) => some s
  | _ => none

def bytes? : Value → Option (List UInt8)
  | .bytes b => some b
  | .view b => some b
  | _ => none

def sameTime (a b : TimeOfDay) : Bool :=
  match a.offset, b.offset with
  | none, none => a.micros = b.micros
  | some x, some y => (a.micros : Int) - x * 1000000 = (b.micros : Int) - y * 1000000
  | _, _ => false

def sameMoment (a b : DateTime) : Bool :=
  match a.time.offset, b.time.offset with
  | none, none => a.localMicros = b.localMicros
  | some x, some y => a.localMicros - x * 1000000 = b.localMicros - y * 1000000
  | _, _ => false

/-- Equality of values that denote no number, text or bytes and hold no others. -/
def samePlain : Value → Value → Bool
  | .null, .null => true
  | .date x, .date y => x = y
  | .time x, .time y => sameTime x y
  | .moment x, .moment y => sameMoment x y
  | .span x, .span y => x = y
  | .uuid x, .uuid y => x = y
  | .member c _ n _, .member d _ m _ => c = d && n = m
  | _, _ => false

def sameAtom (a b : Value) : Bool :=
  match a.quantity?, b.quantity? with
  | some x, some y => x.same y
  | none, none =>
    match a.text?, b.text? with
    | some x, some y => x = y
    | none, none =>
      match a.bytes?, b.bytes? with
      | some x, some y => x = y
      | none, none => samePlain a b
      | _, _ => false
    | _, _ => false
  | _, _ => false

mutual

/-- Equality of values: atoms by what they denote, containers by their items, objects by class
and fields. Lists, tuples and dictionaries differ from each other; the two kinds of set do not.
Sets and dictionaries are equal when each holds what the other holds. -/
def same : Value → Value → Bool
  | .list xs, .list ys => sameAll xs ys
  | .tuple xs, .tuple ys => sameAll xs ys
  | .set xs, .set ys => within xs ys && ys.all (found xs)
  | .set xs, .frozenset ys => within xs ys && ys.all (found xs)
  | .frozenset xs, .set ys => within xs ys && ys.all (found xs)
  | .frozenset xs, .frozenset ys => within xs ys && ys.all (found xs)
  | .dict xs, .dict ys => entriesWithin xs ys && ys.all (entryFound xs)
  | .object c _ xs, .object d _ ys => c = d && sameFields xs ys
  | .made t xs, .made u ys => t = u && sameFields xs ys
  | a, b => sameAtom a b

def sameAll : List Value → List Value → Bool
  | [], [] => true
  | x :: xs, y :: ys => same x y && sameAll xs ys
  | _, _ => false

def within : List Value → List Value → Bool
  | [], _ => true
  | x :: xs, ys => ys.any (fun y => same x y) && within xs ys

def found : List Value → Value → Bool
  | [], _ => false
  | x :: xs, y => same x y || found xs y

def entriesWithin : List (Value × Value) → List (Value × Value) → Bool
  | [], _ => true
  | (k, v) :: xs, ys => ys.any (fun p => same k p.1 && same v p.2) && entriesWithin xs ys

def entryFound : List (Value × Value) → Value × Value → Bool
  | [], _ => false
  | (k, v) :: xs, p => same k p.1 && same v p.2 || entryFound xs p

def sameFields : List (String × Value) → List (String × Value) → Bool
  | [], [] => true
  | (k, v) :: xs, (l, w) :: ys => k = l && same v w && sameFields xs ys
  | _, _ => false

end

def distinct (items : List Value) : List Value :=
  items.foldl (fun kept v => if kept.any (fun k => k.same v) then kept else kept ++ [v]) []

mutual

/-- Whether a set can hold it. What can change has no hash, nor has a signaling NaN. -/
def hashable : Value → Bool
  | .decimal (.nan _ signaling _) => !signaling
  | .list _ | .set _ | .dict _ => false
  | .tuple vs => allHashable vs
  | .object _ record _ => !record
  | _ => true

def allHashable : List Value → Bool
  | [] => true
  | v :: vs => v.hashable && allHashable vs

end

def classOf : Value → ClassRef
  | .null => .builtin .none
  | .bool _ => .builtin .bool
  | .int _ => .builtin .int
  | .float _ => .builtin .float
  | .decimal _ => .builtin .decimal
  | .text _ => .builtin .text
  | .bytes _ => .builtin .bytes
  | .view _ => .declared "memoryview"
  | .date _ => .builtin .date
  | .time _ => .builtin .time
  | .moment _ => .builtin .datetime
  | .span _ => .builtin .span
  | .uuid _ => .builtin .uuid
  | .member c _ _ _ => .declared c
  | .list _ => .builtin .list
  | .tuple _ => .builtin .tuple
  | .set _ => .builtin .set
  | .frozenset _ => .builtin .frozenset
  | .dict _ => .builtin .dict
  | .object c _ _ => .declared c
  | .made .. => .declared "Made"

end Value
end RowMapping
