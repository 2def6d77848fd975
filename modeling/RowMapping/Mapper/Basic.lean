import RowMapping.Row
import RowMapping.Schema.Property
import RowMapping.Settings

/-! Mappers. A column mapper reads one column of a row as a value, a row mapper reads the whole row.
A plan is a row mapper computed for one list of columns: which property reads which column. -/
namespace RowMapping

/-- What a mapper written by the caller asks of the row and of the context. -/
inductive Question where
  | value (index : Int)
  | wasNull
  | columns
  | settings
  /-- Whether there is a column mapper for a type, or a row mapper. -/
  | hasColumn (type : Descriptor)
  | hasRow (type : Descriptor)
  /-- A column as another type, the row as another, or a row of the mapper's own. -/
  | column (type : TypeExpr) (index : Int)
  | row (type : TypeExpr)
  | rowOf (type : TypeExpr) (row : Row)

def Question.Answer : Question → Type
  | .value _ | .column .. | .row _ | .rowOf .. => Value
  | .wasNull | .hasColumn _ | .hasRow _ => Bool
  | .columns => List String
  | .settings => Settings

/-- What a mapper written by the caller does. It keeps nothing from one time to the next, and passes
on what its questions raise. -/
inductive Script where
  | yield (v : Value)
  | raise (r : Raise)
  | ask (q : Question) (next : q.Answer → Script)

inductive Behaviour where
  | const (v : Value)
  | raw
  /-- The raw value, or `v` for null. -/
  | zero (v : Value)
  | tag (label : Value)
  /-- Reads the mapper's own index and yields `v`. -/
  | peek (v : Value)
  | wasNull
  | join
  | count
  | delegate (type : TypeExpr)
  | raise (r : Raise)
  /-- Code of the caller, by the index that it is given. -/
  | written (script : Option Int → Script)

instance : Inhabited Behaviour := ⟨.raw⟩

def Behaviour.kind : Behaviour → String
  | .const _ => "const" | .raw => "raw" | .zero _ => "zero" | .tag _ => "tag" | .peek _ => "peek"
  | .wasNull => "was_null" | .join => "join" | .count => "count" | .delegate _ => "delegate"
  | .raise _ => "raise" | .written _ => "written"

instance : Repr Behaviour := ⟨fun b _ => b.kind⟩

/-- Whether a caller's mapper is a function, or an object that may also look like a factory. -/
inductive MapperForm where
  | function | object | both
  deriving DecidableEq, Repr, Inhabited

/-- What a mapper does when it is specialized: nothing, or it answers with itself or another. -/
inductive Handover (α : Type) where
  | absent
  | itself
  | other (m : α)
  deriving Inhabited, Repr

structure MapperSpec where
  form : MapperForm
  name : Option String
  behaviour : Behaviour
  index : Option Int
  /-- The declared type of its results. -/
  returns : Option TypeExpr
  handover : Handover MapperSpec
  deriving Inhabited, Repr

/-- A mapper made from a specification. The serial number tells it from others of the same
specification, the step tells it from those that it hands over to. -/
structure CustomMapper where
  serial : Nat
  step : Nat
  /-- Whether it was registered as a mapper, which makes a mapper of a function. -/
  wrapped : Bool
  spec : MapperSpec
  deriving Inhabited, Repr

namespace CustomMapper

def ownName (m : CustomMapper) : String :=
  match m.spec.form with
  | .function => "<function>"
  | _ => "Mapper(" ++ m.spec.name.getD m.spec.behaviour.kind ++ ")"

def sameAs (m n : CustomMapper) : Bool := m.serial = n.serial && m.step = n.step

/-- A function that came from a factory or another mapper. Nothing made a mapper of it. -/
def isBare (m : CustomMapper) : Bool := m.spec.form = .function && !m.wrapped

def shownAs (m : CustomMapper) (wrapper : String) : String :=
  if m.spec.form = .function && m.wrapped then wrapper else m.ownName

end CustomMapper

/-- Maps rows to objects of a type by matching its properties with the columns that start with
`lead`, in small letters. -/
structure ReflectiveMapper where
  serial : Nat
  target : RawType
  lead : String
  deriving Inhabited, Repr

namespace ReflectiveMapper

def typeName (m : ReflectiveMapper) : Except Failure String :=
  match m.target.ownName? with
  | some n => .ok n
  | none => .error .lacksPart

def display (m : ReflectiveMapper) : String :=
  "PojoMapper(" ++ m.target.name ++ ", prefix=" ++ Text.quoted m.lead ++ ")"

def same (m n : ReflectiveMapper) : Bool :=
  m.serial = n.serial && m.target.same n.target && m.lead = n.lead

def shown (m : ReflectiveMapper) : Except Failure String := m.typeName.map fun _ => m.display

end ReflectiveMapper

inductive ColumnMapper where
  /-- Converts to a scalar class; made by the factory numbered `origin`. -/
  | value (origin : Nat) (target : ClassRef)
  /-- Converts item by item into a container. -/
  | array (serial : Nat) (container : Builtin) (origin : Nat) (element : ClassRef)
  /-- Passes the value on. -/
  | raw
  | custom (m : CustomMapper)
  /-- A row mapper in the place of a column mapper. It cannot be applied. -/
  | misplaced (m : ReflectiveMapper)
  deriving Inhabited, Repr

namespace ColumnMapper

def shown : ColumnMapper → String
  | .value _ target => "ValueColumnMapper(" ++ target.name ++ ")"
  | .array _ container _ element =>
    "ArrayColumnMapper(" ++ container.name ++ "[" ++ element.name ++ "])"
  | .raw => "RawColumnMapper()"
  | .custom m => m.shownAs "<_FunctionColumnMapper>"
  | .misplaced m => m.display

def sameAs : ColumnMapper → ColumnMapper → Bool
  | .value o t, .value p u => o = p && t = u
  | .array s .., .array t .. => s = t
  | .custom m, .custom n => m.sameAs n
  | .misplaced m, .misplaced n => m.serial = n.serial
  | _, _ => false

end ColumnMapper

mutual

/-- The properties of a table that are read, in the order of evaluation, each from its source. -/
inductive Plan where
  | mk (table : PropertyTable) (entries : List (Property × PlanSource))

inductive PlanSource where
  | column (mapper : ColumnMapper) (index : Nat)
  | nested (plan : Plan)

end

instance : Inhabited Plan := ⟨.mk default []⟩

namespace Plan

def table : Plan → PropertyTable
  | .mk t _ => t

def entries : Plan → List (Property × PlanSource)
  | .mk _ es => es

def nullMarker (p : Plan) : Option String := p.table.nullMarker

def propertyNames (p : Plan) : List String := p.entries.map (·.1.name)

def shown (p : Plan) : String :=
  "SpecializedPojoMapper(" ++ p.table.target.name ++ ", " ++ Text.quotedList p.propertyNames ++ ")"

end Plan

private def singleShown (mapper : ColumnMapper) (index : Nat) : String :=
  "SingleColumnMapper(" ++ mapper.shown ++ ", index=" ++ toString index ++ ")"

def PlanSource.shown : PlanSource → String
  | .column mapper index => singleShown mapper index
  | .nested p => p.shown

inductive RowMapper where
  | single (serial : Nat) (mapper : ColumnMapper) (index : Nat)
  | reflective (m : ReflectiveMapper)
  | planned (serial : Nat) (plan : Plan)
  | custom (m : CustomMapper)
  /-- A column mapper in the place of a row mapper. It cannot be applied. -/
  | misplaced (m : ColumnMapper)
  deriving Inhabited

namespace RowMapper

def shown : RowMapper → Except Failure String
  | .single _ mapper index => .ok (singleShown mapper index)
  | .reflective m => m.shown
  | .planned _ p => .ok p.shown
  | .custom m => .ok (m.shownAs "<_FunctionRowMapper>")
  | .misplaced m => .ok m.shown

def sameAs : RowMapper → RowMapper → Bool
  | .single s .., .single t .. => s = t
  | .reflective m, .reflective n => m.serial = n.serial
  | .planned s _, .planned t _ => s = t
  | .custom m, .custom n => m.sameAs n
  | .misplaced m, .misplaced n => m.sameAs n
  | _, _ => false

end RowMapper
end RowMapping
