import RowMapping.Types.ClassRef
import RowMapping.Value.Equality
import RowMapping.Value.Shown

/-! Type expressions as they are written: classes, unions in two spellings, generic classes with
arguments, literal values, marked types and type variables. Unions are built flat and without
repetition, so a union of one alternative never occurs. -/
namespace RowMapping

inductive Mark where
  | column (name : String)
  | nested (lead : String)
  | propagateNull
  | unmappable (value : Bool)
  | other (label : String)
  deriving DecidableEq, Repr, Inhabited

inductive UnionStyle where
  | bar | keyword
  deriving DecidableEq, Repr, Inhabited

inductive TypeExpr where
  | cls (c : ClassRef)
  | union (style : UnionStyle) (members : List TypeExpr)
  | generic (origin : Builtin) (args : List TypeExpr) (variadic : Bool)
  /-- A generic class under its typing name. -/
  | aliased (origin : Builtin) (args : List TypeExpr)
  | literal (values : List Value)
  | marked (base : TypeExpr) (marks : List Mark)
  | variable (name : String) (serial : Nat)
  /-- A name that nothing declares. -/
  | unresolved (name : String)
  deriving Inhabited, Repr

namespace TypeExpr

def none : TypeExpr := .cls (.builtin .none)

def isNone : TypeExpr → Bool
  | .cls (.builtin .none) => true
  | _ => false

/-- Literal values are told apart by their class as well: one is not the truth value. -/
def sameLiteral (v w : Value) : Bool := v.same w && v.classOf = w.classOf

def sameLiterals (vs ws : List Value) : Bool :=
  vs.all (fun v => ws.any (sameLiteral v)) && ws.all (fun w => vs.any (sameLiteral w))

mutual

/-- Whether two expressions are the same type. The order of alternatives and the spelling of the
union do not count; the typing name of a generic class and its own name differ. -/
def same : TypeExpr → TypeExpr → Bool
  | .cls c, .cls d => c = d
  | .union _ ms, .union _ ns => within ms ns && ns.all (found ms)
  | .generic o as v, .generic p bs w => o = p && v = w && sameAll as bs
  | .aliased o as, .aliased p bs => o = p && sameAll as bs
  | .literal vs, .literal ws => sameLiterals vs ws
  | .marked a ms, .marked b ns => same a b && ms = ns
  | .variable _ s, .variable _ t => s = t
  | .unresolved a, .unresolved b => a = b
  | _, _ => false

def sameAll : List TypeExpr → List TypeExpr → Bool
  | [], [] => true
  | a :: as, b :: bs => same a b && sameAll as bs
  | _, _ => false

def within : List TypeExpr → List TypeExpr → Bool
  | [], _ => true
  | a :: as, bs => bs.any (fun b => same a b) && within as bs

def found : List TypeExpr → TypeExpr → Bool
  | [], _ => false
  | a :: as, b => same a b || found as b

end

def alternatives : TypeExpr → List TypeExpr
  | .union _ members => members
  | t => [t]

def distinct (ts : List TypeExpr) : List TypeExpr :=
  ts.foldl (fun kept t => if kept.any (fun k => k.same t) then kept else kept ++ [t]) []

def unite (style : UnionStyle) (ts : List TypeExpr) : TypeExpr :=
  match distinct (ts.flatMap alternatives) with
  | [] => none
  | [t] => t
  | members => .union style members

def unionOf (ts : List TypeExpr) : TypeExpr := unite .keyword ts

def optional (t : TypeExpr) : TypeExpr := unionOf [t, none]

/-- Types whose bars make a union with bars. Beside any other operand the keyword takes over. -/
def joinsByBar : TypeExpr → Bool
  | .cls _ => true
  | .generic .. => true
  | .union style _ => style = .bar
  | _ => false

def literalOf (vs : List Value) : TypeExpr :=
  .literal (vs.foldl (fun kept v => if kept.any (sameLiteral v) then kept else kept ++ [v]) [])

def bar (a b : TypeExpr) : TypeExpr :=
  unite (if a.joinsByBar && b.joinsByBar then .bar else .keyword) [a, b]

def barOf : List TypeExpr → TypeExpr
  | [] => none
  | t :: ts => ts.foldl bar t

/-- A type with marks; those of a marked type come first. -/
def mark (t : TypeExpr) (marks : List Mark) : TypeExpr :=
  match t with
  | .marked base inner => .marked base (inner ++ marks)
  | t => .marked t marks

def marks : TypeExpr → List Mark
  | .marked _ ms => ms
  | _ => []

def bare : TypeExpr → TypeExpr
  | .marked t _ => t
  | t => t

mutual

def isUnresolved : TypeExpr → Bool
  | .unresolved _ => true
  | .union _ ts => anyUnresolved ts
  | .generic _ ts _ => anyUnresolved ts
  | .aliased _ ts => anyUnresolved ts
  | .marked t _ => isUnresolved t
  | _ => false

def anyUnresolved : List TypeExpr → Bool
  | [] => false
  | t :: ts => isUnresolved t || anyUnresolved ts

end

mutual

def unmarked : TypeExpr → TypeExpr
  | .union .bar ts => barOf (unmarkedAll ts)
  | .union .keyword ts => unionOf (unmarkedAll ts)
  | .generic o ts v => .generic o (unmarkedAll ts) v
  | .aliased o ts => .aliased o (unmarkedAll ts)
  | .marked t _ => unmarked t
  | t => t

def unmarkedAll : List TypeExpr → List TypeExpr
  | [] => []
  | t :: ts => unmarked t :: unmarkedAll ts

end

def markText : Mark → String
  | .column n => "ColumnName(name=" ++ Text.quoted n ++ ")"
  | .nested l => "Nested(prefix=" ++ Text.quoted l ++ ")"
  | .propagateNull => "PropagateNull()"
  | .unmappable b => "Unmappable(value=" ++ (if b then "True" else "False") ++ ")"
  | .other l => l

mutual

/-- The spelling inside a union with bars: classes with their modules. -/
def text : TypeExpr → String
  | .cls c => c.qualifiedName
  | .union .bar ms => " | ".intercalate (texts ms)
  | .union .keyword ms => "typing.Union[" ++ ", ".intercalate (texts ms) ++ "]"
  | .generic o [] _ => o.qualifiedName ++ "[()]"
  | .generic o ts variadic =>
    o.qualifiedName ++ "[" ++ ", ".intercalate (texts ts) ++ (if variadic then ", ...]" else "]")
  | .aliased o [] => o.typingName
  | .aliased o ts => o.typingName ++ "[" ++ ", ".intercalate (texts ts) ++ "]"
  | .literal vs => "typing.Literal[" ++ ", ".intercalate (vs.map Value.shown) ++ "]"
  | .marked t ms => "typing.Annotated[" ++ text t ++ ", " ++ ", ".intercalate (ms.map markText) ++ "]"
  | .variable n _ => "~" ++ n
  | .unresolved n => n

def texts : List TypeExpr → List String
  | [] => []
  | t :: ts => text t :: texts ts

end

end TypeExpr
end RowMapping
