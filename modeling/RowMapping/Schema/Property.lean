import RowMapping.Convert.Model
import RowMapping.Failure

/-! Properties of mapped types. A table lists the settable properties of one type in order and knows
how an instance is built from mapped values. -/
namespace RowMapping

structure Property where
  name : String
  type : Descriptor
  /-- The column it is read from, where that is not its name. -/
  column : Option String
  /-- What the columns of a sub-object start with, for a property that is one. -/
  nested : Option String
  /-- Whether its null makes the whole object null. -/
  propagatesNull : Bool
  unmappable : Bool
  deriving Inhabited, Repr

namespace Property

private def withMark (p : Property) : Mark → Property
  | .column n => { p with column := some n }
  | .nested lead => { p with nested := some lead }
  | .propagateNull => { p with propagatesNull := true }
  | .unmappable b => { p with unmappable := b }
  | .other _ => p

/-- A property of a type: marks given beside it come before its own, and a later one wins. -/
def of (name : String) (type : TypeExpr) (metadata : List Mark) : Property :=
  (metadata ++ type.marks).foldl withMark ⟨name, .of type, none, none, false, false⟩

def primitive (p : Property) : Bool := p.type.primitive

def same (p q : Property) : Bool :=
  p.name = q.name && p.type.same q.type && p.column = q.column && p.nested = q.nested
    && p.propagatesNull = q.propagatesNull && p.unmappable = q.unmappable

/-- The name that is looked for among the columns. An empty column name counts as none. -/
def columnName (p : Property) : String :=
  match p.column with
  | some c => if c.isEmpty then p.name else c
  | none => p.name

end Property

inductive Builder where
  | call (c : ClassRef)
  | validate (name : String)
  | mapping
  | factory (signature : Signature) (make : Keywords → Except Raise Value)

instance : Inhabited Builder := ⟨.mapping⟩

instance : Repr Builder where
  reprPrec
    | .call c, _ => "call " ++ c.name
    | .validate name, _ => "validate " ++ name
    | .mapping, _ => "mapping"
    | .factory signature _, _ => "factory " ++ signature.title

/-- A factory that keeps its arguments, or gives null, or raises. -/
def Builder.keeping (signature : Signature) (raises : Option Raise) (givesNull : Bool) : Builder :=
  .factory signature fun bound =>
    match raises with
    | some r => .error r
    | none => .ok (if givesNull then .null else .made signature.title bound)

structure PropertyTable where
  serial : Nat
  target : ClassRef
  properties : List Property
  builder : Builder
  /-- Keywords that are null until they are set. -/
  slots : List String
  /-- Keywords of properties, where they are not the names. -/
  keys : List (String × String)
  nullMarker : Option String
  deriving Inhabited, Repr

/-- Properties with one more: in the place of its namesake, or at the end. -/
def putProperty (kept : List Property) (p : Property) : List Property :=
  if kept.any (·.name = p.name) then kept.map fun q => if q.name = p.name then p else q
  else kept ++ [p]

/-- Properties without repetition: a repeated name keeps the first place and the last meaning. -/
def distinctProperties (ps : List Property) : List Property := ps.foldl putProperty []

namespace PropertyTable

def find? (t : PropertyTable) (name : String) : Option Property :=
  t.properties.find? (·.name = name)

def keyOf (t : PropertyTable) (name : String) : String :=
  ((t.keys.find? (·.1 = name)).map (·.2)).getD name

def create (t : PropertyTable) : Keywords := t.slots.map fun s => (s, Value.null)

def set (t : PropertyTable) (ks : Keywords) (p : Property) (v : Value) : Keywords :=
  ks.put (t.keyOf p.name) v

def ofRecord (serial : Nat) (c : Class) (fields : List FieldSpec) : PropertyTable :=
  let taken := fields.filter (·.settable)
  { serial := serial
    target := .declared c.name
    properties := distinctProperties (taken.map fun f => Property.of f.name f.type [])
    builder := .call (.declared c.name)
    slots := (taken.filter (·.fallback.isNone)).map (·.name)
    keys := []
    nullMarker := c.nullMarker }

def ofModel (serial : Nat) (c : Class) (fields : List FieldSpec) : PropertyTable :=
  let keys := fields.filterMap fun f => (f.key.filter (!·.isEmpty)).map fun a => (f.name, a)
  let keyOf (name : String) : String := ((keys.find? (·.1 = name)).map (·.2)).getD name
  { serial := serial
    target := .declared c.name
    properties := distinctProperties (fields.map fun f => Property.of f.name f.type [])
    builder := .validate c.name
    slots := (fields.filter fun f => f.fallback.isNone && (Descriptor.of f.type).nullable).map
      fun f => keyOf f.name
    keys := keys
    nullMarker := c.nullMarker }

def ofClass? (serial : Nat) (c : Class) : Option PropertyTable :=
  match c.shape with
  | .record fields .. => some (ofRecord serial c fields)
  | .model fields _ => some (ofModel serial c fields)
  | _ => none

/-- The table of a class, if it describes one. The annotations of a record are resolved for it. -/
def describe (s : Schema) (serial : Nat) (c : Class) : Except Failure (Option PropertyTable) :=
  if s.describes c then .ok (ofClass? serial c) else .error .undeclared

theorem describe_ok {s : Schema} {serial : Nat} {c : Class} {o : Option PropertyTable}
    (told : describe s serial c = .ok o) : s.describes c = true ∧ ofClass? serial c = o := by
  unfold describe at told
  split at told
  · next known => exact ⟨known, Except.ok.inj told⟩
  · contradiction

def requiredBy (s : Schema) : Builder → List String
  | .call (.declared n) => (s.find? n).elim [] Schema.requiredOf
  | .call (.builtin .enum) => Schema.memberSignature.required
  | .call (.builtin .any) => ["args", "kwargs"]
  | .factory signature _ => signature.required
  | _ => []

/-- The table of a class whose properties are listed. Required parameters named like a property are
slots. -/
def declared (s : Schema) (serial : Nat) (target : ClassRef) (properties : List Property)
    (builder : Option Builder) (nullMarker : Option String) : PropertyTable :=
  let builder := builder.getD (.call target)
  { serial := serial
    target := target
    properties := distinctProperties properties
    builder := builder
    slots := (requiredBy s builder).filter fun n => properties.any (·.name = n)
    keys := []
    nullMarker := nullMarker.or (s.nullMarker target) }

def construct (s : Schema) (b : Builder) (ks : Keywords) : Constructed Value :=
  match b with
  | .call (.declared n) =>
    match s.find? n with
    | some c => s.call c ks
    | none => .error (.raised ⟨.type, n⟩)
  | .call (.builtin b) => Schema.callBuiltin b ks
  | .validate n =>
    match s.find? n with
    | some c => s.validateKeywords c ks
    | none => .error (.raised ⟨.type, n⟩)
  | .mapping => .ok (.dict (ks.map fun k => (.text k.1, k.2)))
  | .factory signature make =>
    match signature.bind ks with
    | .error fault => .error (.bind fault)
    | .ok bound => (make bound).mapError .raised

/-- Builds the instance. What rejects its arguments is reported as a mismatch with the columns;
other errors pass. -/
def build (s : Schema) (t : PropertyTable) (ks : Keywords) : Except Failure Value :=
  match construct s t.builder ks with
  | .ok v => .ok v
  | .error (.bind fault) => .error (.columnMismatch t.target.name fault.message)
  | .error (.rejected rs) => .error (.modelMismatch t.target.name rs)
  | .error (.raised r) =>
    if r.rejects then .error (.columnMismatch t.target.name r.message) else .error (.raised r)

def shown (t : PropertyTable) : String :=
  "PojoProperties(" ++ t.target.name ++ ", " ++ Text.quotedList (t.properties.map (·.name)) ++ ")"

end PropertyTable
end RowMapping
