import RowMapping.Session.State

/-! Mapper look-up. Factories are asked in order; what one builds is kept for the type. A look-up that
nothing answers is not kept and asks again the next time. -/
namespace RowMapping.Registry

open MappingM

def isScalar (s : Schema) (c : ClassRef) : Bool := (Scalar.ofClass? s c).isSome

def isContainer (b : Builtin) : Bool := b = .list || b = .tuple || b = .set || b = .frozenset

def container? (key : Descriptor) : Option Builtin :=
  match key.raw with
  | .cls (.builtin b) => if isContainer b then some b else none
  | _ => none

/-- Asks a factory of the caller. It reports its answer, and runs its commands when it claims a type
for the first time. -/
def askCustom (h : Hooks) (f : CustomFactory) (key : Descriptor) : MappingM (Option CustomMapper) := do
  let hit := f.claims key
  note (f.name ++ ": " ++ key.text ++ " -> " ++ (if hit then "hit" else "miss"))
  if hit then
    if !(← get).claimed.contains f.serial then
      modify fun w => { w with claimed := f.serial :: w.claimed }
      h.perform f.onBuild
    return some f.mapper
  else return none

def follow {Mapper : Type} (h : Hooks) (c : Context) :
    Procedure Command Mapper → MappingM (Option Mapper)
  | .answer m => return m
  | .raise r => throw (.raised r)
  | .column type next => do follow h c (next (← h.findColumn c type))
  | .row type next => do follow h c (next (← h.findRow c type))
  | .perform commands next => do
    h.perform (commands (← fresh))
    follow h c next

def arrayFrom (container : Builtin) : Option ColumnMapper → MappingM (Option ColumnMapper)
  | some (.value origin target) => return some (.array (← fresh) container origin target)
  | _ => return none

/-- An array mapper, if the item type resolves to a scalar converter and to nothing else. -/
def arrayOf (key : Descriptor) (element : Option (MappingM (Option ColumnMapper))) :
    MappingM (Option ColumnMapper) := do
  match container? key, element with
  | some container, some resolveElement => arrayFrom container (← resolveElement)
  | _, _ => return none

def scalarOf (origin : Nat) (key : Descriptor) : MappingM (Option ColumnMapper) := do
  match key.raw with
  | .cls c =>
    if key.args.isEmpty && isScalar (← get).schema c then return some (.value origin c)
    else return none
  | _ => return none

def reflectiveFor (c : Context) (targets : Option (List RawType)) (lead : String)
    (key : Descriptor) : MappingM (Option ReflectiveMapper) := do
  if targets.all fun ts => ts.any key.raw.same then
    match ← table? c key.raw with
    | some _ => return some ⟨← fresh, key.raw, Text.lower lead⟩
    | none => return none
  else return none

def askColumn (h : Hooks) (c : Context) (key : Descriptor)
    (element : Option (MappingM (Option ColumnMapper))) :
    ColumnFactory → MappingM (Option ColumnMapper)
  | .scalars origin => scalarOf origin key
  | .arrays => arrayOf key element
  | .fixed target mapper => return if key.boxed.same target then some mapper else none
  | .custom f => do return (← askCustom h f key).map .custom
  | .written _ ask => follow h c (ask key)
  | .reflective targets lead => do return (← reflectiveFor c targets lead key).map .misplaced

/-- Keeps a built mapper unless a registration came in between. -/
def keepColumn (c : Context) (generation : Nat) (key : Descriptor) (m : ColumnMapper) :
    MappingM Unit :=
  changeRegistry c fun r =>
    if r.columns.generation = generation then { r with columns := r.columns.store key m } else r

def recordColumn (c : Context) (generation : Nat) (key : Descriptor) :
    Option ColumnMapper → MappingM Unit
  | some m => do
    keepColumn c generation key m
    log .debug .registry ("Resolved column mapper for " ++ key.text ++ ": " ++ m.shown)
  | none => log .debug .registry ("No column mapper for " ++ key.text)

def resolveColumn (h : Hooks) (c : Context) (key : Descriptor)
    (element : Option (MappingM (Option ColumnMapper))) : MappingM (Option ColumnMapper) := do
  let chain := (← registry c).columns
  match chain.cached? key with
  | some m => return some m
  | none =>
    let found ← Chain.scan (askColumn h c key element) chain.factories
    recordColumn c chain.generation key found
    return found

mutual

/-- Resolves a column mapper for a type with nullability replaced. -/
def findColumnAs (h : Hooks) (c : Context) : Descriptor → Bool → MappingM (Option ColumnMapper)
  | .mk raw args _, nullable => resolveColumn h c (.mk raw args nullable) (findElement h c args)

/-- Resolves the first of some types as the nullable type of items. -/
def findElement (h : Hooks) (c : Context) : List Descriptor → Option (MappingM (Option ColumnMapper))
  | [] => none
  | d :: _ => some (findColumnAs h c d true)

end

def findColumn (h : Hooks) (c : Context) (key : Descriptor) : MappingM (Option ColumnMapper) :=
  findColumnAs h c key key.nullable

def askRow (h : Hooks) (c : Context) (key : Descriptor) : RowFactory → MappingM (Option RowMapper)
  | .reflective targets lead => do return (← reflectiveFor c targets lead key).map .reflective
  | .fixed target mapper => return if key.boxed.same target then some mapper else none
  | .custom f => do return (← askCustom h f key).map .custom
  | .written _ ask => follow h c (ask key)
  | .scalars origin => do return (← scalarOf origin key).map .misplaced
  | .arrays => do return (← arrayOf key (findElement h c key.args)).map .misplaced

def singleFor (h : Hooks) (c : Context) (key : Descriptor) : MappingM (Option RowMapper) := do
  match ← findColumn h c key with
  | some m => return some (.single (← fresh) m 0)
  | none => return none

def buildRow (h : Hooks) (c : Context) (key : Descriptor) (factories : List RowFactory) :
    MappingM (Option RowMapper) := do
  match ← Chain.scan (askRow h c key) factories with
  | some m => return some m
  | none => singleFor h c key

/-- Keeps a built row mapper, whatever was registered meanwhile. -/
def keepRow (c : Context) (key : Descriptor) (m : RowMapper) : MappingM Unit :=
  changeRegistry c fun r => { r with rows := r.rows.store key m }

def recordRow (c : Context) (key : Descriptor) : Option RowMapper → MappingM Unit
  | some m => do
    keepRow c key m
    let shown := match m.shown with
      | .ok s => s
      | .error _ => ""
    log .debug .registry ("Resolved row mapper for " ++ key.text ++ ": " ++ shown)
  | none => log .debug .registry ("No row mapper for " ++ key.text)

/-- The row mapper for a type, if there is one: from the row factories, or else one that maps the
first column. -/
def findRow (h : Hooks) (c : Context) (key : Descriptor) : MappingM (Option RowMapper) := do
  let chain := (← registry c).rows
  match chain.cached? key with
  | some m => return some m
  | none =>
    let found ← buildRow h c key chain.factories
    recordRow c key found
    return found

def requireRow (h : Hooks) (c : Context) (key : Descriptor) : MappingM RowMapper := do
  match ← findRow h c key with
  | some m => return m
  | none => throw (.noSuchRowMapper key.text)

end RowMapping.Registry
