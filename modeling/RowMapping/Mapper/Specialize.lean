import RowMapping.Registry.Resolve

/-! Specialization: the plan of a reflective mapper for one list of columns. Every property takes the
column that its name, behind the mapper's lead, is accepted for; a nested property is planned in
turn where some column lies under its lead. -/
namespace RowMapping.ReflectiveMapper

open MappingM

structure Scope where
  hooks : Hooks
  context : Context
  columns : List String
  chain : MatcherChain

abbrev Trail := List (RawType × String)

def onTrail (trail : Trail) (m : ReflectiveMapper) : Bool :=
  trail.any fun k => k.1.same m.target && k.2 = m.lead

/-- Planning keeps the columns that no property has read yet. -/
abbrev Planning := StateT (List String) MappingM

abbrev Planner := ReflectiveMapper → Trail → Planning (Option Plan)

abbrev Entry := Property × PlanSource

/-- The mapper for a property without one: none in strict mode, the raw value otherwise. -/
def fallbackMapper (s : Scope) (owner : String) (p : Property) : MappingM ColumnMapper := do
  if (← settings s.context).strictTypes then throw (.noSuchMapper owner p.name p.type.text)
  log .warning .mapping ("No column mapper for " ++ owner ++ "." ++ p.name ++ " of type "
    ++ p.type.text ++ "; using raw column values")
  return .raw

def planColumn (s : Scope) (m : ReflectiveMapper) (p : Property) : Planning (Option Entry) := do
  let owner ← m.typeName
  match ← s.chain.find (m.lead ++ p.columnName) s.columns (some (owner ++ "." ++ p.name)) with
  | none => return none
  | some index =>
    let mapper ← match ← Registry.findColumn s.hooks s.context p.type.boxed with
      | some found => pure found
      | none => fallbackMapper s owner p
    modify fun unread => unread.erase ((s.columns[index]?).getD "")
    return some (p, .column mapper index)

/-- The mapper of a nested property: the one that this mapper has made before, or a new one. -/
def child (m : ReflectiveMapper) (p : Property) : MappingM ReflectiveMapper := do
  match (← get).children.find? (fun e => e.parent.same m && e.property.same p) with
  | some known => return known.mapper
  | none =>
    let made : Child := ⟨m, p, ← fresh⟩
    modify fun w => { w with children := w.children ++ [made] }
    return made.mapper

/-- A lead longer than every column is reached only by matchers that ignore some characters, and
would then grow for ever. -/
def outgrown (lead : String) (columns : List String) : Bool :=
  columns.all fun c => c.length < lead.length

def planNested (s : Scope) (plan : Planner) (m : ReflectiveMapper) (trail : Trail) (p : Property)
    (nested : String) : Planning (Option Entry) := do
  let lead := m.lead ++ nested
  if !(← s.chain.anyUnder lead s.columns) then
    let owner ← m.typeName
    log .debug .mapping ("No columns under '" ++ lead ++ "' for " ++ owner ++ "." ++ p.name)
    return none
  else if outgrown lead s.columns then
    match p.type.raw.ownName? with
    | some n => throw (.nestedCycle n lead)
    | none => throw .lacksPart
  else
    let made ← child m p
    return (← plan made trail).map fun q => (p, .nested q)

def planEntries (s : Scope) (plan : Planner) (m : ReflectiveMapper) (trail : Trail) :
    List Property → Planning (List Entry)
  | [] => return []
  | p :: ps => do
    if p.unmappable then planEntries s plan m trail ps
    else
      let entry ← match p.nested with
        | none => planColumn s m p
        | some nested => planNested s plan m trail p nested
      return entry.toList ++ (← planEntries s plan m trail ps)

/-- Entries whose null makes the object null come last, so that all columns before them are read. -/
def ordered (entries : List Entry) : List Entry :=
  entries.filter (!·.1.propagatesNull) ++ entries.filter (·.1.propagatesNull)

/-- Plans a mapper at the end of a trail. A type that comes back on its own trail with the same lead
would never end. -/
def planWithin (s : Scope) : Nat → Planner
  | 0, _, _ => throw .exhausted
  | fuel + 1, m, trail => do
    if onTrail trail m then throw (.nestedCycle (← m.typeName) m.lead)
    match ← table? s.context m.target with
    | none => throw (.unknownProperties (← m.typeName))
    | some table =>
      let entries ←
        planEntries s (planWithin s fuel) m ((m.target, m.lead) :: trail) table.properties
      if entries.isEmpty && !s.columns.isEmpty then return none
      else return some (.mk table (ordered entries))

/-- A trail holds a type once for every lead, and its leads grow to the length of the longest
column. -/
def trailBound (schema : Schema) (columns : List String) : Nat :=
  (schema.classes.length + 22) * ((columns.map String.length).foldl max 0 + 3)

def leftover (chain : MatcherChain) (lead : String) : List String → Except Failure (List String)
  | [] => return []
  | c :: cs => do
    let under ← chain.liesUnder c lead
    let rest ← leftover chain lead cs
    return if under then c :: rest else rest

def refuseLeftover (c : Context) (chain : MatcherChain) (m : ReflectiveMapper)
    (unread : List String) : MappingM Unit := do
  if (← settings c).strictMatching then
    let left ← leftover chain m.lead unread
    if !left.isEmpty then throw (.leftoverColumns (← m.typeName) left)

def specialize (h : Hooks) (c : Context) (m : ReflectiveMapper) (columns : List String) :
    MappingM Plan := do
  let chain := (← settings c).chain
  let bound := trailBound (← get).schema columns
  let (plan, unread) ← (planWithin ⟨h, c, columns, chain⟩ bound m []).run columns
  match plan with
  | none => throw (.noMatchingColumns (← m.typeName) columns)
  | some p =>
    refuseLeftover c chain m unread
    log .debug .mapping ("Specialized " ++ (← m.typeName) ++ ": properties="
      ++ Text.quotedList p.propertyNames ++ " unmatched=" ++ Text.quotedList unread)
    return p

end RowMapping.ReflectiveMapper
