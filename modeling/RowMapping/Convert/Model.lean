import RowMapping.Convert.Scalar
import RowMapping.Types.Descriptor

/-! Construction. A call binds keywords to the parameters of a class; a validation reads a mapping
into a class, converting every field to its type and collecting the rejections in field order. -/
namespace RowMapping

inductive ConstructFault where
  | bind (fault : BindFault)
  | raised (r : Raise)
  | rejected (rs : List LocatedRejection)

abbrev Constructed (α : Type) := Except ConstructFault α

namespace Constructed

/-- One rejection at the place itself. A value without representation aborts. -/
def reject {α : Type} : Rejection → Constructed α
  | .unrepresentable message => .error (.raised ⟨.value, message⟩)
  | r => .error (.rejected [⟨[], r⟩])

def ofScalar : Scalar.Outcome → Constructed Value
  | .ok v => .ok v
  | .error r => reject r

def under {α : Type} (p : Place) : Constructed α → Constructed α
  | .error (.rejected rs) => .error (.rejected (rs.map (·.under p)))
  | outcome => outcome

/-- All results, or the rejections of all that were refused; the first abort ends it. -/
def collect {α : Type} : List (Constructed α) → Constructed (List α)
  | [] => .ok []
  | .ok a :: rest => (collect rest).map (a :: ·)
  | .error (.rejected rs) :: rest =>
    match collect rest with
    | .error (.rejected more) => .error (.rejected (rs ++ more))
    | .error fault => .error fault
    | .ok _ => .error (.rejected rs)
  | .error fault :: _ => .error fault

end Constructed

namespace Schema

open Constructed

abbrev Checker := Value → Constructed Value

def recordSignature (title : String) (fields : List FieldSpec) : Signature where
  title := title
  params := (fields.filter (·.inConstructor)).map fun f => ⟨f.name, f.fallback.map fun _ => .null, f.keywordOnly⟩
  rest := none

def initial (ks : Keywords) (f : FieldSpec) : Except Raise (String × Value) :=
  match ks.find? f.name, f.fallback with
  | some v, _ => .ok (f.name, v)
  | none, some d => d.value?.map (f.name, ·)
  | none, none => .ok (f.name, .null)

def finish (name : String) (fields : List FieldSpec) (post : Option PostInit) (all : Keywords) :
    Except Raise Value :=
  (completed post all).map fun done =>
    .object name true (List.filter (fun k => !fields.any fun f => f.initOnly && f.name = k.1) done)

def buildRecord (name : String) (fields : List FieldSpec) (post : Option PostInit) (title : String)
    (ks : Keywords) : Constructed Value :=
  match (recordSignature title fields).bind ks with
  | .error fault => .error (.bind fault)
  | .ok _ =>
    match fields.mapM (initial ks) >>= finish name fields post with
    | .error r => .error (.raised r)
    | .ok v => .ok v

private def items? (strict : Bool) (own : Value → Option (List Value)) (v : Value) :
    Option (List Value) :=
  match own v with
  | some items => some items
  | none =>
    if strict then none
    else match v with
      | .list xs | .tuple xs | .set xs | .frozenset xs => some xs
      | _ => none

private def checkItems (check : Checker) (items : List Value) : Constructed (List Value) :=
  collect (items.zipIdx.map fun p => (check p.1).under (.index p.2))

private def hashed (check : Checker) : Checker := fun v => do
  let w ← check v
  if w.hashable then return w else reject .itemUnhashable

private def checkCollection (strict : Bool) (origin : Builtin) (check : Checker) (v : Value) :
    Constructed Value :=
  match origin with
  | .list =>
    match items? strict (fun | .list xs => some xs | _ => none) v with
    | some items => (checkItems check items).map .list
    | none => reject .listType
  | .set =>
    match items? strict (fun | .set xs => some xs | _ => none) v with
    | some items => (checkItems (hashed check) items).map fun vs => .set (Value.distinct vs)
    | none => reject .setType
  | .frozenset =>
    match items? strict (fun | .frozenset xs => some xs | _ => none) v with
    | some items => (checkItems (hashed check) items).map fun vs => .frozenset (Value.distinct vs)
    | none => reject .frozensetType
  | .tuple =>
    match items? strict (fun | .tuple xs => some xs | _ => none) v with
    | some items => (checkItems check items).map .tuple
    | none => reject .tupleType
  | _ => .ok v

private def checkPositions (strict : Bool) (checks : List Checker) (v : Value) : Constructed Value :=
  match items? strict (fun | .tuple xs => some xs | _ => none) v with
  | none => reject .tupleType
  | some items =>
    (collect (checks.zipIdx.map fun p =>
      ((items[p.2]?).elim (reject .missing) p.1).under (.index p.2))).map .tuple

private def checkEntries (keys values : Checker) (v : Value) : Constructed Value :=
  match v with
  | .dict es =>
    (collect (es.map fun e => do
      let k ← keys e.1
      let w ← values e.2
      return (k, w))).map .dict
  | _ => reject .dictType

/-- A value as a declared or built-in class, where `instantiate` reads a mapping into a class. -/
def checkClass (s : Schema) (instantiate : Class → List (Value × Value) → Constructed Value)
    (strict : Bool) (c : ClassRef) (v : Value) : Constructed Value :=
  match Scalar.ofClass? s c with
  | some scalar => ofScalar (scalar.convert strict v)
  | none =>
    match c with
    | .builtin .any | .builtin .object => .ok v
    | .builtin .none => if v.isNull then .ok v else reject .noneRequired
    | .builtin .dict => match v with | .dict _ => .ok v | _ => reject .dictType
    | .builtin .complex => reject (.instanceOf "complex")
    | .builtin b => checkCollection strict b .ok v
    | .declared n =>
      if s.isInstance v c then .ok v
      else
        match s.find? n, v with
        | some cls, .dict es =>
          match cls.shape with
          | .record .. | .model .. => instantiate cls es
          | _ => reject (.instanceOf n)
        | some cls, _ =>
          match cls.shape with
          | .record .. => reject (.recordType n)
          | .model .. => reject (.modelType n)
          | _ => reject (.instanceOf n)
        | none, _ => reject (.instanceOf n)

/-- A value as one of several types: its own class first, then what takes it as it is, then what
converts it. -/
private def checkAlternatives (labels : List String) (own : List Bool) (exact lax : List Checker)
    (v : Value) : Constructed Value :=
  let attempts := (exact.zip own).filterMap (fun p => if p.2 then some p.1 else none) ++ exact ++ lax
  match attempts.findSome? (fun check => (check v).toOption) with
  | some w => .ok w
  | none =>
    match collect ((lax.zip labels).map fun p => (p.1 v).under (.key p.2)) with
    | .error fault => .error fault
    | .ok _ => .ok v

mutual

def checker (s : Schema) (instantiate : Class → List (Value × Value) → Constructed Value)
    (strict : Bool) : TypeExpr → Checker
  | .cls c => s.checkClass instantiate strict c
  | .marked t _ => checker s instantiate strict t
  | .union _ ms => fun v =>
    if v.isNull && ms.any TypeExpr.isNone then .ok v
    else
      let ds := Descriptor.ofAlternatives ms
      match checkers s instantiate strict ms with
      | [check] => check v
      | lax =>
        checkAlternatives (ds.map Descriptor.text)
          (ds.map fun d => d.raw.class? = some v.classOf) (checkers s instantiate true ms) lax v
  | .generic .dict [k, w] _ =>
    checkEntries (checker s instantiate strict k) (checker s instantiate strict w)
  | .generic .tuple ts false => checkPositions strict (checkers s instantiate strict ts)
  | .generic origin [t] _ => checkCollection strict origin (checker s instantiate strict t)
  | .generic origin _ _ => s.checkClass instantiate strict (.builtin origin)
  | .aliased origin [t] => checkCollection strict origin (checker s instantiate strict t)
  | .aliased origin _ => s.checkClass instantiate strict (.builtin origin)
  | .literal vs => fun v =>
    match vs.find? (·.same v) with
    | some w => .ok w
    | none => reject (.literal (vs.map Value.shown))
  | .variable .. => .ok
  | .unresolved _ => .ok

def checkers (s : Schema) (instantiate : Class → List (Value × Value) → Constructed Value)
    (strict : Bool) : List TypeExpr → List Checker
  | [] => []
  | t :: ts =>
    if t.isNone then checkers s instantiate strict ts
    else checker s instantiate strict t :: checkers s instantiate strict ts

end

def valueAt? (es : List (Value × Value)) (key : String) : Option Value :=
  (es.find? fun e => e.1.same (.text key)).map (·.2)

/-- The keys under which a model field is looked for, the one for messages first. -/
def fieldKeys (settings : ModelSettings) (f : FieldSpec) : List String :=
  match f.inputKey.or f.key with
  | some a => if settings.byName = some true then [a, f.name] else [a]
  | none => [f.name]

def keyOf? : Value → Option String
  | .text s => some s
  | _ => none

def checkModel (check : Bool → TypeExpr → Checker) (name : String) (fields : List FieldSpec)
    (settings : ModelSettings) (es : List (Value × Value)) : Constructed Value :=
  let strict := settings.strict = some true
  let one (f : FieldSpec) : Constructed (String × Value) :=
    let keys := fieldKeys settings f
    let place := Place.key (keys.headD f.name)
    match keys.findSome? (valueAt? es) with
    | some v => ((check strict f.type v).under place).map fun w => (f.name, w)
    | none => f.fallback.elim ((reject .missing).under place) fun d =>
        (d.value?.map (f.name, ·)).mapError .raised
  let known := fields.flatMap (fieldKeys settings)
  let surplus := (es.filterMap fun e => keyOf? e.1).filter fun k => !known.contains k
  let extras : List (Constructed (String × Value)) :=
    if settings.forbidsExtra = some true then
      surplus.map fun k => (reject .extraForbidden).under (.key k)
    else []
  (collect (fields.map one ++ extras)).map (.object name true)

/-- Defaults are made in their place among the fields. -/
private def checkRecord (check : Bool → TypeExpr → Checker) (name : String) (fields : List FieldSpec)
    (post : Option PostInit) (es : List (Value × Value)) : Constructed Value := do
  let one (f : FieldSpec) : Constructed (String × Value) :=
    match if f.inConstructor then valueAt? es f.name else none, f.fallback with
    | some v, _ => ((check false f.type v).under (.key f.name)).map (f.name, ·)
    | none, some d => (d.value?.map (f.name, ·)).mapError .raised
    | none, none =>
      if f.inConstructor then (reject .missing).under (.key f.name) else .ok (f.name, .null)
  match finish name fields post (← collect (fields.map one)) with
  | .error r => if r.kind = .value then reject (.custom r.message) else .error (.raised r)
  | .ok v => .ok v

/-- Reads a mapping into a class; mappings in mappings go as deep as `fuel`. -/
def validate : Nat → Schema → Class → List (Value × Value) → Constructed Value
  | 0, _, c, _ => reject (.instanceOf c.name)
  | fuel + 1, s, c, es =>
    let check (strict : Bool) (t : TypeExpr) : Checker := s.checker (validate fuel s) strict t
    match c.shape with
    | .record fields post _ => checkRecord check c.name fields post es
    | .model fields settings => checkModel check c.name fields settings es
    | _ => reject (.instanceOf c.name)

mutual

def depth : Value → Nat
  | .list vs | .tuple vs | .set vs | .frozenset vs => depthAll vs + 1
  | .dict es => depthEntries es + 1
  | _ => 0

def depthAll : List Value → Nat
  | [] => 0
  | v :: vs => max (depth v) (depthAll vs)

def depthEntries : List (Value × Value) → Nat
  | [] => 0
  | (_, v) :: es => max (depth v) (depthEntries es)

end

def validateKeywords (s : Schema) (c : Class) (ks : Keywords) : Constructed Value :=
  let es := ks.map fun k => (Value.text k.1, k.2)
  validate (depthEntries es + 1) s c es

/-- What a built-in class makes of no arguments, or why it makes nothing. -/
def emptyOf : Builtin → Except String Value
  | .int => .ok (.int 0)
  | .float => .ok (.float (.ofInt 0))
  | .bool => .ok (.bool false)
  | .text => .ok (.text "")
  | .bytes => .ok (.bytes [])
  | .decimal => .ok (.decimal (.ofInt 0))
  | .time => .ok (.time ⟨0, 0, 0, 0, none⟩)
  | .span => .ok (.span (.ofParts 0 0 0))
  | .list => .ok (.list [])
  | .tuple => .ok (.tuple [])
  | .set => .ok (.set [])
  | .frozenset => .ok (.frozenset [])
  | .dict => .ok (.dict [])
  | .none => .ok .null
  | .object => .ok (.object "object" false [])
  | .complex => .ok (.object "complex" false [])
  | .date | .datetime => .error "function missing required argument 'year' (pos 1)"
  | .uuid => .error "one of the hex, bytes, bytes_le, fields, or int arguments must be given"
  | .any => .error "Any cannot be instantiated"
  | .enum => .error "EnumType.__call__() missing 1 required positional argument: 'value'"

def keywordRefusal (b : Builtin) (k : String) : String :=
  match b with
  | .int | .text | .bytes | .complex =>
    "'" ++ k ++ "' is an invalid keyword argument for " ++ b.name ++ "()"
  | .decimal | .time => "'" ++ k ++ "' is an invalid keyword argument for this function"
  | .span => "'" ++ k ++ "' is an invalid keyword argument for __new__()"
  | .date | .datetime => "function missing required argument 'year' (pos 1)"
  | .uuid => "UUID.__init__() got an unexpected keyword argument '" ++ k ++ "'"
  | .enum => "EnumType.__call__() got an unexpected keyword argument '" ++ k ++ "'"
  | .any => "Any cannot be instantiated"
  | .object => "object() takes no arguments"
  | .none => "NoneType takes no arguments"
  | _ => b.name ++ "() takes no keyword arguments"

/-- The call of a built-in class. A dictionary takes every keyword as an entry. -/
def callBuiltin (b : Builtin) (ks : Keywords) : Constructed Value :=
  match b, ks with
  | .dict, ks => .ok (.dict (ks.map fun k => (.text k.1, k.2)))
  | b, [] => (emptyOf b).mapError fun message => .raised ⟨.type, message⟩
  | b, (k, _) :: _ => .error (.raised ⟨.type, keywordRefusal b k⟩)

/-- How the member of an enumeration is asked for: by its value. -/
def memberSignature : Signature where
  title := "EnumType.__call__"
  params := [⟨"value", none, false⟩, ⟨"names", some .null, false⟩] ++
    ["module", "qualname", "type", "start", "boundary"].map fun n => ⟨n, some .null, true⟩
  rest := none

def callMember (spec : EnumSpec) (ks : Keywords) : Constructed Value :=
  match memberSignature.bind ks with
  | .error fault => .error (.bind fault)
  | .ok bound =>
    let v := (bound.find? "value").getD .null
    match spec.ofValue? v with
    | some m => .ok m
    | none => .error (.raised ⟨.value, v.shown ++ " is not a valid " ++ spec.name⟩)

def call (s : Schema) (c : Class) (ks : Keywords) : Constructed Value :=
  match c.shape with
  | .record fields post title => buildRecord c.name fields post title ks
  | .model .. => s.validateKeywords c ks
  | .plain signature post =>
    match signature.bind ks with
    | .error fault => .error (.bind fault)
    | .ok bound =>
      match completed post bound with
      | .error r => .error (.raised r)
      | .ok kept => .ok (.object c.name false kept)
  | .enumeration spec => callMember spec ks

private def isIdentifier (name : String) : Bool :=
  match name.toList with
  | [] => false
  | c :: cs =>
    let letter (x : Char) : Bool := x.isAlpha || x = '_' || 0x80 ≤ x.toNat
    letter c && cs.all fun x => letter x || x.isDigit

/-- The parameter that stands for a model field: an alias that can be one, or else the name. -/
def parameterOf (f : FieldSpec) : String :=
  ([f.key, f.inputKey].findSome? (·.filter isIdentifier)).getD f.name

def requiredOf (c : Class) : List String :=
  match c.shape with
  | .record fields _ title => (recordSignature title fields).required
  | .model fields _ => (fields.filter (·.fallback.isNone)).map parameterOf
  | .plain signature _ => signature.required
  | .enumeration _ => memberSignature.required

end Schema
end RowMapping
