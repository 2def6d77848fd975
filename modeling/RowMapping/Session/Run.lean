import RowMapping.Mapper.Apply

/-! Running sessions. Each command answers with a result or a failure; what it did before a failure
stays done. Commands inside factories, and mappers that delegate, come back here through hooks. -/
namespace RowMapping.Session

open MappingM

/-! ### Settings -/

def assigned (s : Settings) : Assignment → Except LocatedRejection Settings
  | .strictMatching v =>
    match Scalar.bool.convert false v with
    | .ok b => .ok { s with strictMatching := b.same (.bool true) }
    | .error r => .error ⟨[.key "strict_matching"], r⟩
  | .strictTypes v =>
    match Scalar.bool.convert false v with
    | .ok b => .ok { s with strictTypes := b.same (.bool true) }
    | .error r => .error ⟨[.key "strict_column_type_mapping"], r⟩
  | .matchers es =>
    if es.all Option.isSome then .ok { s with matchers := es }
    else .error ⟨[.key "column_name_matchers"], .custom "Junk() is not a ColumnNameMatcher"⟩
  | .matchersNotListed => .error ⟨[.key "column_name_matchers"], .listType⟩

def rank : Assignment → Nat
  | .strictMatching _ => 0
  | .strictTypes _ => 1
  | _ => 2

/-- New settings from assignments, or all that is wrong with them, in the order of the settings. -/
def newSettings (as : List Assignment) : Except Failure Settings :=
  let sorted := [0, 1, 2].flatMap fun n => as.filter fun a => rank a = n
  let wrong := sorted.filterMap fun a =>
    match assigned .standard a with
    | .error r => some r
    | .ok _ => none
  if !wrong.isEmpty then .error (.settings wrong)
  else .ok (sorted.foldl (fun s a => (assigned s a).toOption.getD s) .standard)

def assign (c : Context) (a : Assignment) : MappingM Unit := do
  match assigned (← settings c) a with
  | .ok s => changeSettings c fun _ => s
  | .error r => throw (.settings [r])

/-! ### Contexts -/

def reflectiveRegistry (serial : Nat) : Registry :=
  (Registry.standard serial).registerRow (.reflective none "")

def copyRegistry (c : Context) : MappingM Nat := do
  match (← get).registries[c.registry]? with
  | some r => addRegistry r.snapshot
  | none => throw .misuse

def newRegistry : RegistrySource → MappingM Nat
  | .fresh reflective => do
    let serial ← fresh
    if reflective then
      let id ← addRegistry (reflectiveRegistry serial)
      log .debug .registry ("Registered row mapper factory " ++ (RowFactory.reflective none "").shown
        ++ "; row cache cleared")
      return id
    else addRegistry (.standard serial)
  | .bare => do addRegistry (.standard (← fresh))
  | .sharedWith name => return (← context name).registry
  | .copiedFrom name => do copyRegistry (← context name)

def newTables : Option String → MappingM Nat
  | some name => return (← context name).tables
  | none => addTables default

def copyTables (c : Context) : MappingM Nat := do addTables (← tables c)

def newContext (spec : ContextSpec) : MappingM Context := do
  let checked ← newSettings spec.settings
  let registry ← newRegistry spec.registry
  let tables ← newTables spec.tablesOf
  return ⟨registry, tables, ← addSettings checked⟩

/-- A context with everything copied: later changes on either side stay there. -/
def copyContext (c : Context) : MappingM Context := do
  let registry ← copyRegistry c
  let settings ← addSettings (← settings c)
  return ⟨registry, ← copyTables c, settings⟩

/-! ### Registration -/

/-- The type that a mapper declares for its results. No declaration, one without a meaning, and one
that stands for any type say nothing. -/
def declaredType? (spec : MapperSpec) : Option Descriptor :=
  match spec.returns with
  | none => none
  | some t =>
    if t.isUnresolved then none
    else
      let t := t.unmarked
      match t, (Descriptor.of t).raw with
      | .cls (.builtin .any), _ => none
      | _, .variable .. => none
      | _, _ => some (.of t)

def registeredType (m : CustomMapper) (target : Option TypeExpr) : Except Failure Descriptor :=
  match (target.map Descriptor.of).or (declaredType? m.spec) with
  | some d => .ok d.boxed
  | none => .error (.mapperInference m.ownName)

def newMapper (wrapped : Bool) (spec : MapperSpec) : MappingM CustomMapper :=
  return ⟨← fresh, 0, wrapped, spec⟩

def customFactory (name : String) (claim : Claim) (mapper : MapperSpec)
    (onBuild : List Command) : MappingM CustomFactory := do
  let made ← newMapper false mapper
  return ⟨← fresh, name, claim, made, onBuild⟩

def distinctRaws (ts : List RawType) : List RawType :=
  ts.foldl (fun kept t => if kept.any t.same then kept else kept ++ [t]) []

def targetRaws (targets : Option (List TypeExpr)) : Option (List RawType) :=
  targets.map fun ts => distinctRaws (ts.map fun t => (Descriptor.of t).raw)

def rowFactory : FactorySpec → MappingM RowFactory
  | .reflective targets lead => return .reflective (targetRaws targets) lead
  | .scalars => return .scalars (← fresh)
  | .arrays => return .arrays
  | .custom name claim mapper onBuild => return .custom (← customFactory name claim mapper onBuild)
  | .written name _ rows => return .written name rows

def columnFactory : FactorySpec → MappingM ColumnFactory
  | .reflective targets lead => return .reflective (targetRaws targets) lead
  | .scalars => return .scalars (← fresh)
  | .arrays => return .arrays
  | .custom name claim mapper onBuild => return .custom (← customFactory name claim mapper onBuild)
  | .written name columns _ => return .written name columns

def registeredRow (what : Registered) (target : Option TypeExpr) : MappingM RowFactory := do
  match what with
  | .mapper spec =>
    let m ← newMapper true spec
    return .fixed (← registeredType m target) (.custom m)
  | .factory spec => rowFactory spec

def registeredColumn (what : Registered) (target : Option TypeExpr) :
    MappingM ColumnFactory := do
  match what with
  | .mapper spec =>
    let m ← newMapper true spec
    return .fixed (← registeredType m target) (.custom m)
  | .factory spec => columnFactory spec

def registerRow (c : Context) (what : Registered) (target : Option TypeExpr) : MappingM Unit := do
  let f ← registeredRow what target
  changeRegistry c (·.registerRow f)
  log .debug .registry ("Registered row mapper factory " ++ f.shown ++ "; row cache cleared")

def registerColumn (c : Context) (what : Registered) (target : Option TypeExpr) : MappingM Unit := do
  let f ← registeredColumn what target
  changeRegistry c (·.registerColumn f)
  log .debug .registry ("Registered column mapper factory " ++ f.shown ++ "; column cache cleared")

/-- Declares the properties of a class. What is no class never has any. -/
def registerProperties (c : Context) (type : TypeExpr) (properties : List PropertySpec)
    (builder : Option Builder) (nullMarker : Option String) : MappingM Unit := do
  match type with
  | .cls cls =>
    let schema := (← get).schema
    let table :=
      PropertyTable.declared schema (← fresh) cls (properties.map (·.property)) builder nullMarker
    changeTables c (·.declare table)
  | _ => return ()

/-! ### Commands -/

def shownOrNull : Option RowMapper → MappingM Answer
  | some m => return .text (← m.shown)
  | none => return .null

def reflectiveMapper (type : TypeExpr) (lead : String) : MappingM ReflectiveMapper :=
  return ⟨← fresh, (Descriptor.of type).raw, Text.lower lead⟩

def specialized (h : Hooks) (c : Context) (m : RowMapper) (row : RowSpec)
    (name : Option String) : MappingM Answer := do
  let row ← row.row
  let ready ← m.specialize h c row.columns
  if let some n := name then save n ready
  return .mapper ready

def mapColumn (h : Hooks) (c : Context) (type : TypeExpr) (row : RowSpec) (index : Int) :
    MappingM Answer := do
  let row ← row.row
  match ← Registry.findColumn h c (.of type) with
  | none => return .noMapper
  | some m =>
    let (v, row) ← (m.apply h c index).run row
    return .column v row.wasNull

def mapOne (h : Hooks) (c : Context) (type : Descriptor) (row : Row) : MappingM Value := do
  let mapper ← Registry.requireRow h c type
  (mapper.apply h c).run' row

def mapMany (h : Hooks) (c : Context) (type : Descriptor) (rows : List Row) :
    MappingM (List Value) := do
  let mapper ← Registry.requireRow h c type
  mapRows h c none mapper rows

def mapCursor (h : Hooks) (c : Context) (type : TypeExpr) (cursor : Cursor) :
    MappingM Answer := do
  let mapper ← Registry.requireRow h c (.of type)
  let (rows, failure) := cursor.read
  let vs ← mapRows h c none mapper rows
  match failure with
  | some f => throw f
  | none => return .values vs

def children (name : String) : MappingM Answer := do
  match ← saved name with
  | .reflective m =>
    let all := (← get).children
    let own (m : ReflectiveMapper) : List Child := all.filter (·.parent.same m)
    return .children (← (own m).mapM fun e => do
      let shown ← e.mapper.shown
      return (e.property.name, shown, (own e.mapper).length))
  | _ => throw .lacksPart

def tableOf (c : Context) (type : TypeExpr) : MappingM (Option PropertyTable) :=
  table? c (Descriptor.of type).raw

def setAll (t : PropertyTable) : List (String × Value) → Keywords → Except Failure Keywords
  | [], ks => .ok ks
  | (name, v) :: rest, ks =>
    match t.find? name with
    | some p => setAll t rest (t.set ks p v)
    | none => .error (.raised ⟨.key, name⟩)

def build (c : Context) (type : TypeExpr) (values : List (String × Value)) :
    MappingM Answer := do
  match ← tableOf c type with
  | none => throw .lacksPart
  | some t =>
    let keywords ← setAll t values t.create
    return .value (← t.build (← get).schema keywords)

def configure (c : Context) (assignments : List Assignment)
    (appended : List (Option Matcher)) : MappingM Answer := do
  assignments.forM (assign c)
  changeSettings c fun s => { s with matchers := s.matchers ++ appended }
  return .settings (← settings c)

def sameRow (h : Hooks) (c : Context) (a b : TypeExpr) : MappingM Answer := do
  let x ← Registry.findRow h c (.of a)
  let y ← Registry.findRow h c (.of b)
  return .flag (match x, y with
    | some m, some n => m.sameAs n
    | none, none => true
    | _, _ => false)

def sameColumn (h : Hooks) (c : Context) (a b : TypeExpr) : MappingM Answer := do
  let x ← Registry.findColumn h c (.of a)
  let y ← Registry.findColumn h c (.of b)
  return .flag (match x, y with
    | some m, some n => m.sameAs n
    | none, none => true
    | _, _ => false)

def run (h : Hooks) : Command → MappingM Answer
  | .newContext name spec => do
    nameContext name (← newContext spec)
    return .null
  | .copyContext source name => do
    nameContext name (← copyContext (← context source))
    return .null
  | .registerRow c what target => do
    registerRow (← context c) what target
    return .accepted
  | .registerColumn c what target => do
    registerColumn (← context c) what target
    return .accepted
  | .registerProperties c type properties builder nullMarker => do
    registerProperties (← context c) type properties builder nullMarker
    return .null
  | .findRow c type => do shownOrNull (← Registry.findRow h (← context c) (.of type))
  | .findColumn c type => do
    let found ← Registry.findColumn h (← context c) (.of type)
    return found.elim .null fun m => .text m.shown
  | .requireRow c type => do
    let m ← Registry.requireRow h (← context c) (.of type)
    return .text (← m.shown)
  | .sameRow c a b => do sameRow h (← context c) a b
  | .sameColumn c a b => do sameColumn h (← context c) a b
  | .mapOne c type row => do
    let c ← context c
    let row ← row.row
    return .value (← mapOne h c (.of type) row)
  | .mapMany c type rows => do
    let c ← context c
    let rows ← rows.mapM fun r => (r.row : MappingM Row)
    return .values (← mapMany h c (.of type) rows)
  | .mapCursor c type cursor => do mapCursor h (← context c) type cursor
  | .mapColumn c type row index => do mapColumn h (← context c) type row index
  | .factories c => do
    let r ← registry (← context c)
    return .factories (r.rows.factories.map (·.shown)) (r.columns.factories.map (·.shown))
  | .configure c assignments appended => do configure (← context c) assignments appended
  | .reflectiveMapper name type lead => do
    let m ← reflectiveMapper type lead
    if let some n := name then save n (.reflective m)
    return .text (← m.shown)
  | .specializeSaved c name row keep => do
    specialized h (← context c) (← saved name) row keep
  | .specializeType c type row keep => do
    let c ← context c
    specialized h c (← Registry.requireRow h c (.of type)) row keep
  | .mapSaved c name row => do
    let m ← saved name
    let row ← row.row
    return .value (← (m.apply h (← context c)).run' row)
  | .children name => children name
  | .properties c type => do
    return (← tableOf (← context c) type).elim .null .table
  | .sameProperties c a b => do
    let c ← context c
    let x ← tableOf c a
    let y ← tableOf c b
    return .flag (x.map (·.serial) = y.map (·.serial))
  | .build c type values => do build (← context c) type values

/-- Runs a command and takes its reports and log out of the state. -/
def step (h : Hooks) (command : Command) (w : World) : Report × World :=
  let (outcome, after) := (run h command).run { w with reports := [], log := [] }
  (.step outcome after.reports after.log, { after with reports := w.reports, log := w.log })

def performOne (h : Hooks) (command : Command) : MappingM Unit := do
  let (report, after) := step h command (← get)
  set { after with reports := after.reports ++ [report] }

def hooks : Nat → Hooks
  | 0 =>
    { perform := fun commands => commands.forM fun _ => throw .exhausted
      findColumn := fun _ _ => throw .exhausted
      findRow := fun _ _ => throw .exhausted
      column := fun _ _ _ _ => throw .exhausted
      row := fun _ _ _ => throw .exhausted }
  | depth + 1 =>
    { perform := fun commands => commands.forM (performOne (hooks depth))
      findColumn := Registry.findColumn (hooks depth)
      findRow := Registry.findRow (hooks depth)
      column := fun c type index row => do
        match ← Registry.findColumn (hooks depth) c (.of type) with
        | some m => (m.apply (hooks depth) c index).run row
        | none => return (.text "no mapper", row)
      row := fun c type row => do
        match ← Registry.findRow (hooks depth) c (.of type) with
        | some m => (m.apply (hooks depth) c).run row
        | none => return (.text "no mapper", row) }

/-- How often a session may be entered again from within. -/
def depth : Nat := 190

/-- Runs commands in order. One that could not be read answers with its failure. -/
def runAll : List (Except Failure Command) → World → List Report
  | [], _ => []
  | .error f :: cs, w => .step (.error f) [] [] :: runAll cs w
  | .ok c :: cs, w =>
    let (report, after) := step (hooks depth) c w
    report :: runAll cs after

def emptyWorld (schema : Schema) (loggers : List Logger) : World :=
  { (default : World) with schema := schema, loggers := loggers }

/-- The state in which a session begins: one context, named `main`. -/
def start (schema : Schema) (loggers : List Logger) (spec : ContextSpec) : Except Failure World :=
  match (newContext spec >>= nameContext "main").run (emptyWorld schema []) with
  | (.ok _, w) => .ok { w with loggers := loggers }
  | (.error f, _) => .error f

end RowMapping.Session
