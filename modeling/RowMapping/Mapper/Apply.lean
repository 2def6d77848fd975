import RowMapping.Mapper.Specialize

/-! Mapping: what mappers make of a row. Reading a column leaves a trace on the row, whether the value
was null. -/
namespace RowMapping

open MappingM

abbrev Reading := StateT Row MappingM

namespace Reading

def column (index : Int) : Reading Value := do
  let row ← get
  let (v, row) ← row.get index
  set row
  return v

def wasNull : Reading Bool := return (← get).wasNull

end Reading

open Reading

def unshowable : Raise := ⟨.value, "Exceeds the limit (" ++ toString Value.digitLimit
  ++ " digits) for integer string conversion; use sys.set_int_max_str_digits() to increase the limit"⟩

def reported (target : ClassRef) (v : Value) : Scalar.Outcome → Except Failure Value
  | .ok w => .ok w
  | .error (.unrepresentable message) => .error (.raised ⟨.value, message⟩)
  | .error r =>
    if v.showable then .error (.conversion v.shown target.name r.message)
    else .error (.raised unshowable)

def copied : Value → Value
  | .view b => .bytes b
  | v => v

/-- Converts a value to a scalar class. Null, and a value of exactly that class, stay as they are. -/
def convertTo (s : Schema) (target : ClassRef) (v : Value) : Except Failure Value :=
  if v.isNull || v.classOf = target then .ok v
  else match Scalar.ofClass? s target with
    | some scalar => reported target (copied v) (scalar.convert false (copied v))
    | none => .error .misuse

def arrayItems? : Value → Option (List Value)
  | .list vs | .tuple vs | .set vs | .frozenset vs => some vs
  | .dict es => some (es.map (·.1))
  | .view b => some (b.map fun x => .int x.toNat)
  | _ => none

/-- An item as a container takes it. Sets take only what has a hash. -/
def admitted (container : Builtin) (v : Value) : Except Failure Value :=
  if (container = .set || container = .frozenset) && !v.hashable then .error .misuse else .ok v

def collected (container : Builtin) (vs : List Value) : Value :=
  match container with
  | .tuple => .tuple vs
  | .set => .set (Value.distinct vs)
  | .frozenset => .frozenset (Value.distinct vs)
  | _ => .list vs

/-- A container of items that are put into it as they are made. -/
def contain (container : Builtin) (made : List (Except Failure Value)) : Except Failure Value :=
  (made.mapM (· >>= admitted container)).map (collected container)

def requireIndex : Option Int → Reading Int
  | some i => return i
  | none => throw .misuse

def countCall (m : CustomMapper) : MappingM Nat :=
  modifyGet fun w =>
    let calls := (m.serial, m.step) :: w.calls
    (calls.count (m.serial, m.step), { w with calls := calls })

def Question.put (h : Hooks) (c : Context) : (q : Question) → Reading q.Answer
  | .value index => Reading.column index
  | .wasNull => Reading.wasNull
  | .columns => return (← get).columns
  | .settings => MappingM.settings c
  | .hasColumn type => return (← h.findColumn c type).isSome
  | .hasRow type => return (← h.findRow c type).isSome
  | .column type index => fun row => h.column c type index row
  | .row type => fun row => h.row c type row
  | .rowOf type other => return (← h.row c type other).1

def Script.follow (h : Hooks) (c : Context) : Script → Reading Value
  | .yield v => return v
  | .raise r => throw (.raised r)
  | .ask q next => do follow h c (next (← q.put h c))

namespace CustomMapper

def compute (h : Hooks) (c : Context) (delegate : TypeExpr → Reading Value) (m : CustomMapper)
    (index : Option Int) : Reading Value := do
  match m.spec.behaviour with
  | .const v => return v
  | .raw => do column (← requireIndex index)
  | .zero v => do
    let raw ← column (← requireIndex index)
    return if raw.isNull then v else raw
  | .tag label => do
    let i ← requireIndex index
    let raw ← column i
    return .list [label, .int i, raw]
  | .peek v => do
    let _ ← column (← requireIndex m.spec.index)
    return v
  | .wasNull => return .bool (← wasNull)
  | .join => do
    let names := (← get).columns
    let pairs ← (names.zipIdx).mapM fun p => do
      return Value.list [.text p.1, ← column p.2]
    return .list pairs
  | .count => return .int (← countCall m)
  | .delegate type => delegate type
  | .raise r => throw (.raised r)
  | .written script => (script index).follow h c

/-- What a caller's mapper computes at an index. A bare function computes nothing. -/
def run (h : Hooks) (c : Context) (delegate : TypeExpr → Reading Value) (m : CustomMapper)
    (index : Option Int) : Reading Value :=
  if m.isBare then throw .lacksPart else m.compute h c delegate index

def specialize (m : CustomMapper) (columns : List String) : MappingM CustomMapper := do
  match m.spec.form, m.spec.handover with
  | .function, _ => return m
  | _, .absent => return m
  | _, .itself =>
    note ("specialized " ++ m.ownName ++ " " ++ Text.quotedList columns)
    return m
  | _, .other spec =>
    note ("specialized " ++ m.ownName ++ " " ++ Text.quotedList columns)
    return ⟨m.serial, m.step + 1, false, spec⟩

end CustomMapper

namespace ColumnMapper

/-- The value of a column. Null stays null except under a caller's mapper. -/
def apply (h : Hooks) (c : Context) (m : ColumnMapper) (index : Int) : Reading Value := do
  let schema := (← getThe World).schema
  match m with
  | .value _ target => do
    let v ← column index
    convertTo schema target v
  | .array _ container _ element => do
    let v ← column index
    if v.isNull then return v
    match arrayItems? v with
    | some items => contain container (items.map (convertTo schema element))
    | none => throw (.notArray index v.classOf.name)
  | .raw => column index
  | .custom f => f.run h c (fun t row => h.column c t index row) (some index)
  | .misplaced _ => throw .misuse

end ColumnMapper

def isNullMarked : Option String → Reading Bool
  | none => return false
  | some marker => do
    let columns := (← get).columns
    match Row.named? columns marker with
    | some i =>
      let _ ← column i
      wasNull
    | none => throw (.missingColumn marker columns)

mutual

/-- The object of a plan, or null where its marker or a property that propagates is null. -/
def Plan.apply (h : Hooks) (c : Context) : Plan → Reading Value
  | .mk table entries => do
    if ← isNullMarked table.nullMarker then return .null
    match ← applyEntries h c table entries table.create with
    | none => return .null
    | some keywords => table.build (← getThe World).schema keywords

/-- The keywords after reading entries in order; none where one propagates its null. -/
def applyEntries (h : Hooks) (c : Context) (table : PropertyTable) :
    List (Property × PlanSource) → Keywords → Reading (Option Keywords)
  | [], keywords => return some keywords
  | (p, source) :: rest, keywords => do
    let v ← source.apply h c
    if p.propagatesNull && (v.isNull || (p.primitive && (← wasNull))) then return none
    applyEntries h c table rest (if v.isNull then keywords else table.set keywords p v)

def PlanSource.apply (h : Hooks) (c : Context) : PlanSource → Reading Value
  | .column mapper index => mapper.apply h c index
  | .nested plan => plan.apply h c

end

namespace RowMapper

def apply (h : Hooks) (c : Context) : RowMapper → Reading Value
  | .single _ mapper index => mapper.apply h c index
  | .reflective m => do
    let plan ← m.specialize h c (← get).columns
    plan.apply h c
  | .planned _ plan => plan.apply h c
  | .custom m => m.run h c (fun t row => h.row c t row) m.spec.index
  | .misplaced _ => throw .misuse

def specialize (h : Hooks) (c : Context) (columns : List String) : RowMapper → MappingM RowMapper
  | .reflective m => do
    let plan ← m.specialize h c columns
    return .planned (← fresh) plan
  | .custom m => return .custom (← m.specialize columns)
  | m => return m

end RowMapper

def mapRows (h : Hooks) (c : Context) : Option RowMapper → RowMapper → List Row → MappingM (List Value)
  | _, _, [] => return []
  | specialized, mapper, row :: rows => do
    let ready ← match specialized with
      | some m => pure m
      | none => mapper.specialize h c row.columns
    let (v, _) ← (ready.apply h c).run row
    return v :: (← mapRows h c (some ready) mapper rows)

end RowMapping
