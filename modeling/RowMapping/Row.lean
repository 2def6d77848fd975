import RowMapping.Failure
import RowMapping.Text.Case
import RowMapping.Value.Shown

/-! Rows: column names beside values, and whether the value read last was null. -/
namespace RowMapping

structure Row where
  columns : List String
  values : List Value
  /-- Whether the value read last was null. -/
  wasNull : Bool
  deriving Inhabited, Repr

namespace Row

def of (columns : List String) (values : List Value) : Except Failure Row :=
  if columns.length = values.length then .ok ⟨columns, values, false⟩
  else .error (.rowLength values.length columns.length)

/-- Entries by key: a repeated key keeps its first place and takes the last value. -/
def ofEntries (entries : List (String × Value)) : Row :=
  let kept : Keywords := entries.foldl (fun kept e => kept.put e.1 e.2) []
  ⟨kept.map (·.1), kept.map (·.2), false⟩

/-- The value at an index and the row after the reading; negative indexes count from the end. -/
def get (r : Row) (index : Int) : Except Failure (Value × Row) :=
  let i := if index < 0 then index + r.values.length else index
  if i < 0 then .error .indexRange
  else match r.values[i.toNat]? with
    | some v => .ok (v, { r with wasNull := v.isNull })
    | none => .error .indexRange

def named? (columns : List String) (name : String) : Option Nat :=
  columns.findIdx? fun c => Text.lower c = Text.lower name

def indexOf (r : Row) (name : String) : Except Failure Nat :=
  match named? r.columns name with
  | some i => .ok i
  | none => .error (.missingColumn name r.columns)

def getNamed (r : Row) (name : String) : Except Failure (Value × Row) := do
  let i ← r.indexOf name
  r.get i

def shown (r : Row) : String :=
  "TupleRow(" ++ ", ".intercalate ((r.columns.zip r.values).map fun p => p.1 ++ "=" ++ p.2.shown) ++ ")"

end Row

/-- What a cursor yields: values under the cursor's columns, or entries with keys of their own. -/
inductive CursorRow where
  | values (vs : List Value)
  | entries (es : List (String × Value))

structure Cursor where
  /-- The column names; absent for a statement that yields no rows. -/
  description : Option (List String)
  rows : List CursorRow

namespace Cursor

def row (columns : List String) : CursorRow → Except Failure Row
  | .values vs => Row.of columns vs
  | .entries es => .ok (Row.ofEntries es)

/-- The rows to the first that cannot be made, and its failure. -/
def rowsFrom (columns : List String) : List CursorRow → List Row × Option Failure
  | [] => ([], none)
  | c :: cs =>
    match row columns c with
    | .ok r => let rest := rowsFrom columns cs; (r :: rest.1, rest.2)
    | .error f => ([], some f)

def read (c : Cursor) : List Row × Option Failure :=
  match c.description with
  | none => ([], none)
  | some columns => rowsFrom columns c.rows

end Cursor
end RowMapping
