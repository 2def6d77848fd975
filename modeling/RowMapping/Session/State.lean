import RowMapping.Column.Search
import RowMapping.Registry.Basic

/-! The state of a session: contexts by name, and the registries, property tables and settings that
they refer to by number, so that contexts can share them. -/
namespace RowMapping

/-- Property tables by class. The declared ones go before those derived from the classes. -/
structure TableStore where
  declared : List (ClassRef × PropertyTable)
  derived : List (ClassRef × PropertyTable)
  deriving Inhabited, Repr

namespace TableStore

def lookup? (es : List (ClassRef × PropertyTable)) (c : ClassRef) : Option PropertyTable :=
  (es.find? (·.1 = c)).map (·.2)

def find? (s : TableStore) (c : ClassRef) : Option PropertyTable :=
  (lookup? s.declared c).or (lookup? s.derived c)

def declare (s : TableStore) (t : PropertyTable) : TableStore :=
  { s with declared := (t.target, t) :: s.declared.filter (·.1 != t.target) }

def derive (s : TableStore) (t : PropertyTable) : TableStore :=
  { s with derived := (t.target, t) :: s.derived }

end TableStore

/-- The numbers of a registry, a table store and settings. -/
structure Context where
  registry : Nat
  tables : Nat
  settings : Nat
  deriving DecidableEq, Inhabited, Repr

inductive Logger where
  | registry | mapping
  deriving DecidableEq, Repr, Inhabited

inductive LogLevel where
  | debug | warning
  deriving DecidableEq, Repr, Inhabited

structure LogRecord where
  level : LogLevel
  logger : Logger
  text : String
  deriving Repr, Inhabited

inductive Answer where
  | null
  | accepted
  | flag (b : Bool)
  | text (s : String)
  | value (v : Value)
  | values (vs : List Value)
  | noMapper
  | column (v : Value) (wasNull : Bool)
  | factories (rows columns : List String)
  | settings (s : Settings)
  | mapper (m : RowMapper)
  /-- Name, display and number of children of each child mapper. -/
  | children (cs : List (String × String × Nat))
  | table (t : PropertyTable)
  deriving Inhabited

/-- What the caller's factories and mappers report while a command runs: a note, or a command of
their own with its answer, reports and log. -/
inductive Report where
  | note (s : String)
  | step (outcome : Except Failure Answer) (reports : List Report) (log : List LogRecord)

structure Child where
  parent : ReflectiveMapper
  property : Property
  serial : Nat
  deriving Inhabited, Repr

/-- It maps to the type of the property, under the lead of the parent and that of the property. -/
def Child.mapper (c : Child) : ReflectiveMapper :=
  ⟨c.serial, c.property.type.raw, Text.lower (c.parent.lead ++ c.property.nested.getD "")⟩

structure World where
  schema : Schema
  contexts : List (String × Context)
  registries : List Registry
  tables : List TableStore
  settings : List Settings
  saved : List (String × RowMapper)
  /-- The child mappers of reflective mappers, in the order of their creation. -/
  children : List Child
  calls : List (Nat × Nat)
  claimed : List Nat
  next : Nat
  reports : List Report
  log : List LogRecord
  loggers : List Logger
  deriving Inhabited

/-- A computation on the state. What it did before it fails stays done. -/
abbrev MappingM := ExceptT Failure (StateM World)

instance : MonadLift (Except Failure) MappingM where
  monadLift
    | .ok a => pure a
    | .error f => throw f

namespace MappingM

def fresh : MappingM Nat := modifyGet fun w => (w.next, { w with next := w.next + 1 })

def note (s : String) : MappingM Unit := modify fun w => { w with reports := w.reports ++ [.note s] }

def log (level : LogLevel) (logger : Logger) (text : String) : MappingM Unit :=
  modify fun w =>
    if w.loggers.contains logger then { w with log := w.log ++ [⟨level, logger, text⟩] } else w

def context (name : String) : MappingM Context := do
  match (← get).contexts.find? (·.1 = name) with
  | some c => return c.2
  | none => throw .misuse

def nameContext (name : String) (c : Context) : MappingM Unit :=
  modify fun w => { w with contexts := (name, c) :: w.contexts.filter (·.1 != name) }

def registry (c : Context) : MappingM Registry := return ((← get).registries[c.registry]?).getD default

def changeRegistry (c : Context) (f : Registry → Registry) : MappingM Unit :=
  modify fun w => { w with registries := w.registries.modify c.registry f }

def addRegistry (r : Registry) : MappingM Nat :=
  modifyGet fun w => (w.registries.length, { w with registries := w.registries ++ [r] })

def tables (c : Context) : MappingM TableStore := return ((← get).tables[c.tables]?).getD default

def changeTables (c : Context) (f : TableStore → TableStore) : MappingM Unit :=
  modify fun w => { w with tables := w.tables.modify c.tables f }

def addTables (t : TableStore) : MappingM Nat :=
  modifyGet fun w => (w.tables.length, { w with tables := w.tables ++ [t] })

def settings (c : Context) : MappingM Settings := return ((← get).settings[c.settings]?).getD default

def changeSettings (c : Context) (f : Settings → Settings) : MappingM Unit :=
  modify fun w => { w with settings := w.settings.modify c.settings f }

def addSettings (s : Settings) : MappingM Nat :=
  modifyGet fun w => (w.settings.length, { w with settings := w.settings ++ [s] })

def saved (name : String) : MappingM RowMapper := do
  match (← get).saved.find? (·.1 = name) with
  | some m => return m.2
  | none => throw .misuse

def save (name : String) (m : RowMapper) : MappingM Unit :=
  modify fun w => { w with saved := (name, m) :: w.saved.filter (·.1 != name) }

def derive? (c : Context) (cls : Class) : MappingM (Option PropertyTable) := do
  match ← PropertyTable.describe (← get).schema (← get).next cls with
  | none => return none
  | some t =>
    let _ ← fresh
    changeTables c (·.derive t)
    return some t

def table? (c : Context) (raw : RawType) : MappingM (Option PropertyTable) := do
  let known := (← tables c).find?
  match raw.class? with
  | none => return none
  | some (.builtin b) => return known (.builtin b)
  | some (.declared n) =>
    match (← get).schema.find? n with
    | none => return none
    | some cls =>
      match known (.declared n) with
      | some t => return some t
      | none => derive? c cls

end MappingM

/-- The ways back into a session from a mapper or a factory: commands to run, look-ups, and look-ups
of a type whose mapper is applied at once. -/
structure Hooks where
  perform : List Command → MappingM Unit
  findColumn : Context → Descriptor → MappingM (Option ColumnMapper)
  findRow : Context → Descriptor → MappingM (Option RowMapper)
  column : Context → TypeExpr → Int → Row → MappingM (Value × Row)
  row : Context → TypeExpr → Row → MappingM (Value × Row)

end RowMapping
