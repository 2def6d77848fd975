import RowMapping.Column.Matcher
import RowMapping.Mapper.Basic
import RowMapping.Row

/-! The commands of a session. Factories that a caller defines may carry commands of their own, which
run when the factory first claims a type, or follow a procedure of look-ups and commands. -/
namespace RowMapping

inductive Assignment where
  | strictMatching (v : Value)
  | strictTypes (v : Value)
  | matchers (entries : List (Option Matcher))
  /-- Something that is no list. -/
  | matchersNotListed
  deriving Inhabited, Repr

inductive RegistrySource where
  | fresh (reflective : Bool)
  | bare
  | sharedWith (context : String)
  | copiedFrom (context : String)
  deriving Inhabited, Repr

structure ContextSpec where
  registry : RegistrySource
  tablesOf : Option String
  settings : List Assignment
  deriving Inhabited, Repr

inductive RowSpec where
  | columns (names : List String) (values : List Value)
  | entries (es : List (String × Value))
  deriving Inhabited, Repr

def RowSpec.row : RowSpec → Except Failure Row
  | .columns names values => Row.of names values
  | .entries es => .ok (Row.ofEntries es)

inductive Claim where
  | any | never
  /-- Types with the same raw type. -/
  | raw (type : TypeExpr)
  | exact (type : TypeExpr)
  deriving Inhabited, Repr

structure PropertySpec where
  name : String
  type : TypeExpr
  metadata : List Mark
  deriving Inhabited, Repr

def PropertySpec.property (p : PropertySpec) : Property := .of p.name p.type p.metadata

/-- What a factory written by the caller does when it is asked for a type: it looks types up in the
context that asks, runs commands, and answers at last. The answer depends on nothing but the
look-ups; the commands may differ from one time to the next, so they get a number that is new each
time. -/
inductive Procedure (Command Mapper : Type) where
  | answer (mapper : Option Mapper)
  | raise (r : Raise)
  | column (type : Descriptor) (next : Option ColumnMapper → Procedure Command Mapper)
  | row (type : Descriptor) (next : Option RowMapper → Procedure Command Mapper)
  | perform (commands : Nat → List Command) (next : Procedure Command Mapper)

mutual

inductive FactorySpec where
  | reflective (targets : Option (List TypeExpr)) (lead : String)
  | scalars
  | arrays
  | custom (name : String) (claim : Claim) (mapper : MapperSpec) (onBuild : List Command)
  /-- A factory written by the caller: what it does when asked for columns, and for rows. -/
  | written (name : String) (columns : Descriptor → Procedure Command ColumnMapper)
      (rows : Descriptor → Procedure Command RowMapper)

inductive Registered where
  | mapper (spec : MapperSpec)
  | factory (spec : FactorySpec)

inductive Command where
  | newContext (name : String) (spec : ContextSpec)
  | copyContext (context name : String)
  | registerRow (context : String) (what : Registered) (target : Option TypeExpr)
  | registerColumn (context : String) (what : Registered) (target : Option TypeExpr)
  | registerProperties (context : String) (type : TypeExpr) (properties : List PropertySpec)
      (builder : Option Builder) (nullMarker : Option String)
  | findRow (context : String) (type : TypeExpr)
  | findColumn (context : String) (type : TypeExpr)
  | requireRow (context : String) (type : TypeExpr)
  | sameRow (context : String) (a b : TypeExpr)
  | sameColumn (context : String) (a b : TypeExpr)
  | mapOne (context : String) (type : TypeExpr) (row : RowSpec)
  | mapMany (context : String) (type : TypeExpr) (rows : List RowSpec)
  | mapCursor (context : String) (type : TypeExpr) (cursor : Cursor)
  | mapColumn (context : String) (type : TypeExpr) (row : RowSpec) (index : Int)
  | factories (context : String)
  | configure (context : String) (assignments : List Assignment) (appended : List (Option Matcher))
  | reflectiveMapper (save : Option String) (type : TypeExpr) (lead : String)
  | specializeSaved (context mapper : String) (row : RowSpec) (save : Option String)
  | specializeType (context : String) (type : TypeExpr) (row : RowSpec) (save : Option String)
  | mapSaved (context mapper : String) (row : RowSpec)
  | children (mapper : String)
  | properties (context : String) (type : TypeExpr)
  | sameProperties (context : String) (a b : TypeExpr)
  | build (context : String) (type : TypeExpr) (values : List (String × Value))

end

instance : Inhabited Command := ⟨.factories ""⟩
instance : Inhabited FactorySpec := ⟨.scalars⟩
instance : Inhabited Registered := ⟨.factory .scalars⟩

end RowMapping
