import RowMapping.Schema.Signature
import RowMapping.Types.Descriptor

/-! Declared classes: records with fields, validated models, plain classes with parameters, and
enumerations. A declaration is resolved against the classes before it; bases give their fields
first, and a field declared again keeps its place. -/
namespace RowMapping

/-- What stands for a field that is not given: a value, or a default factory that raises. -/
inductive Fallback where
  | value (v : Value)
  | failing (r : Raise)
  deriving Inhabited, Repr

def Fallback.value? : Fallback → Except Raise Value
  | .value v => .ok v
  | .failing r => .error r

structure FieldSpec where
  name : String
  type : TypeExpr
  fallback : Option Fallback := none
  /-- Whether the constructor takes it. -/
  inConstructor : Bool := true
  keywordOnly : Bool := false
  key : Option String := none
  inputKey : Option String := none
  /-- Whether it is an argument for the post-init only, which the object does not keep. -/
  initOnly : Bool := false
  deriving Inhabited, Repr

/-- A field that the constructor takes and the object keeps. -/
def FieldSpec.settable (f : FieldSpec) : Bool := f.inConstructor && !f.initOnly

/-- What a constructor does once its arguments are kept: from them come new values for some, or what
is raised. -/
structure PostInit where
  run : Keywords → Except Raise Keywords

instance : Inhabited PostInit := ⟨⟨fun _ => .ok []⟩⟩

instance : Repr PostInit := ⟨fun _ _ => "__post_init__"⟩

/-- Changes nothing, and raises where a field has a value, or always. -/
def PostInit.guard (condition : Option (String × Value)) (raises : Raise) : PostInit where
  run given :=
    if condition.all fun c => (given.find? c.1).any (·.same c.2) then .error raises else .ok []

def completed (post : Option PostInit) (given : Keywords) : Except Raise Keywords :=
  match post with
  | none => .ok given
  | some p => (p.run given).map fun changed =>
      given.map fun k => (k.1, (changed.find? k.1).getD k.2)

structure ModelSettings where
  forbidsExtra : Option Bool
  byName : Option Bool
  strict : Option Bool
  deriving Inhabited, Repr

def ModelSettings.over (own base : ModelSettings) : ModelSettings where
  forbidsExtra := own.forbidsExtra.or base.forbidsExtra
  byName := own.byName.or base.byName
  strict := own.strict.or base.strict

structure EnumSpec where
  name : String
  base : EnumBase
  /-- Members in order. One that repeats an earlier value is another name of that member. -/
  members : List (String × Value)
  deriving Inhabited, Repr

namespace EnumSpec

def memberOf (e : EnumSpec) (m : String × Value) : Value := .member e.name e.base m.1 m.2

def ofValue? (e : EnumSpec) (v : Value) : Option Value :=
  (e.members.find? fun m => m.2.same v).map e.memberOf

def ofName? (e : EnumSpec) (name : String) : Option Value :=
  (e.members.find? (·.1 = name)).bind fun m => e.ofValue? m.2

end EnumSpec

inductive Shape where
  | record (fields : List FieldSpec) (post : Option PostInit) (title : String)
  | model (fields : List FieldSpec) (settings : ModelSettings)
  | plain (signature : Signature) (post : Option PostInit)
  | enumeration (spec : EnumSpec)
  deriving Inhabited, Repr

def Shape.fields : Shape → List FieldSpec
  | .record fields .. => fields
  | .model fields _ => fields
  | .plain .. | .enumeration _ => []

structure Class where
  name : String
  /-- The class itself, then what it inherits from, nearest first. -/
  ancestors : List ClassRef
  /-- The column whose null makes an object null, its own or the nearest inherited one. -/
  nullMarker : Option String
  shape : Shape
  deriving Inhabited, Repr

inductive ClassBody where
  | record (fields : List FieldSpec) (post : Option PostInit)
  | inherited
  | model (fields : List FieldSpec) (settings : ModelSettings)
  | plain (params : List Param) (rest : Option String) (post : Option PostInit)
  | enumeration (base : EnumBase) (members : List (String × Value))
  deriving Inhabited

structure ClassDecl where
  name : String
  bases : List String
  nullMarker : Option String
  body : ClassBody
  deriving Inhabited

structure Schema where
  classes : List Class
  deriving Inhabited, Repr

def putField (fields : List FieldSpec) (f : FieldSpec) : List FieldSpec :=
  if fields.any (·.name = f.name) then fields.map fun g => if g.name = f.name then f else g
  else fields ++ [f]

namespace Schema

def find? (s : Schema) (name : String) : Option Class := s.classes.find? (·.name = name)

private def builtinAncestors : Builtin → List Builtin
  | .object => [.object]
  | .bool => [.bool, .int, .object]
  | .datetime => [.datetime, .date, .object]
  | b => [b, .object]

def ancestors (s : Schema) : ClassRef → List ClassRef
  | .builtin b => (builtinAncestors b).map .builtin
  | .declared n => (s.find? n).elim [.declared n, .builtin .object] (·.ancestors)

def isSubclass (s : Schema) (c base : ClassRef) : Bool := (s.ancestors c).contains base

/-- One linear order of several: heads are taken that no other order holds back. -/
def mergeOrders : Nat → List (List ClassRef) → List ClassRef
  | 0, _ => []
  | fuel + 1, orders =>
    let orders := orders.filter (!·.isEmpty)
    match orders.findSome? (fun o => o.head?.filter fun c => !orders.any (·.tail.contains c)) with
    | none => []
    | some c => c :: mergeOrders fuel (orders.map fun o => if o.head? = some c then o.tail else o)

def linearized (s : Schema) (name : String) (bases : List String) : List ClassRef :=
  let refs := bases.map ClassRef.declared
  let orders := refs.map s.ancestors ++ [refs]
  .declared name
    :: (if bases.isEmpty then [.builtin .object] else mergeOrders (orders.flatten.length + 1) orders)

def classesOf (s : Schema) (order : List ClassRef) : List Class :=
  order.filterMap fun
    | .declared n => s.find? n
    | .builtin _ => none

/-- The fields of the bases, farthest first, and the own ones over them. -/
def mergedFields (bases : List Class) (own : List FieldSpec) : List FieldSpec :=
  (bases.reverse.flatMap (·.shape.fields) ++ own).foldl putField []

private def postInitOf (c : Class) : Option PostInit :=
  match c.shape with
  | .record _ post _ => post
  | _ => none

private def settingsOf (c : Class) : ModelSettings :=
  match c.shape with
  | .model _ s => s
  | _ => ⟨none, none, none⟩

private def enumBases : EnumBase → List Builtin
  | .plain => [.enum, .object]
  | .integer => [.int, .enum, .object]
  | .text => [.text, .enum, .object]

def titleOf (name : String) : String := name ++ ".__init__"

def resolve (s : Schema) (d : ClassDecl) : Class :=
  let order := s.linearized d.name d.bases
  let bases := s.classesOf order
  let marker := d.nullMarker.or (bases.findSome? (·.nullMarker))
  match d.body with
  | .record own post =>
    ⟨d.name, order, marker,
      .record (mergedFields bases own) (post.or (bases.findSome? postInitOf)) (titleOf d.name)⟩
  | .inherited =>
    let shape := match bases.find? (fun b => match b.shape with | .enumeration _ => false | _ => true) with
      | some b => b.shape
      | none => .plain ⟨titleOf d.name, [], none⟩ none
    ⟨d.name, order, marker, shape⟩
  | .model own settings =>
    ⟨d.name, order, marker,
      .model (mergedFields bases own) (bases.foldl (fun acc b => acc.over (settingsOf b)) settings)⟩
  | .plain params rest post =>
    ⟨d.name, order, marker, .plain ⟨titleOf d.name, params, rest⟩ post⟩
  | .enumeration base members =>
    ⟨d.name, .declared d.name :: (enumBases base).map .builtin, marker,
      .enumeration ⟨d.name, base, members⟩⟩

def extend (s : Schema) (d : ClassDecl) : Schema := ⟨s.classes ++ [s.resolve d]⟩

def declare (ds : List ClassDecl) : Schema := ds.foldl extend ⟨[]⟩

mutual

def knows (s : Schema) : TypeExpr → Bool
  | .cls (.declared n) => (s.find? n).isSome
  | .unresolved _ => false
  | .union _ ts | .generic _ ts _ | .aliased _ ts => s.knowsAll ts
  | .marked t _ => s.knows t
  | .cls (.builtin _) | .literal _ | .variable .. => true

def knowsAll (s : Schema) : List TypeExpr → Bool
  | [] => true
  | t :: ts => s.knows t && s.knowsAll ts

end

/-- Whether a class can be described. All annotations of a record, inherited ones too, must name
what is declared. -/
def describes (s : Schema) (c : Class) : Bool :=
  match c.shape with
  | .record .. => (s.classesOf c.ancestors).all fun b => b.shape.fields.all fun f => s.knows f.type
  | _ => true

def nullMarker (s : Schema) : ClassRef → Option String
  | .declared n => (s.find? n).bind (·.nullMarker)
  | .builtin _ => none

def describesSubclass (s : Schema) (d : Descriptor) (base : ClassRef) : Bool :=
  d.raw.class?.any fun c => s.isSubclass c base

def isInstance (s : Schema) (v : Value) (c : ClassRef) : Bool := s.isSubclass v.classOf c

end Schema
end RowMapping
