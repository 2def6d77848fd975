import RowMapping.Number.Decimal
import RowMapping.Time.Calendar
import RowMapping.Uuid

/-! Values: what columns hold, what mappers make of them, and the objects that are built. -/
namespace RowMapping

inductive EnumBase where
  | plain | integer | text
  deriving DecidableEq, Repr, Inhabited

inductive Value where
  | null
  | bool (b : Bool)
  | int (n : Int)
  | float (x : Number.Binary64)
  | decimal (d : Number.Decimal)
  | text (s : String)
  | bytes (b : List UInt8)
  | view (b : List UInt8)
  | date (d : Time.Date)
  | time (t : Time.TimeOfDay)
  | moment (d : Time.DateTime)
  | span (s : Time.Span)
  | uuid (u : Uuid)
  | member (cls : String) (base : EnumBase) (name : String) (value : Value)
  | list (items : List Value)
  | tuple (items : List Value)
  | set (items : List Value)
  | frozenset (items : List Value)
  | dict (entries : List (Value × Value))
  | object (cls : String) (record : Bool) (fields : List (String × Value))
  | made (tag : String) (fields : List (String × Value))
  deriving Inhabited, Repr

namespace Value

def isNull : Value → Bool
  | .null => true
  | _ => false

end Value
end RowMapping
