import RowMapping.Types.TypeExpr

/-! Type descriptors, the keys of mapper look-ups: the raw type of an expression, the descriptors of
its arguments and whether null is admitted. Marks, the spelling of unions and the typing names of
generic classes leave no trace in a descriptor. -/
namespace RowMapping

/-- What is left of a type expression without its arguments. -/
inductive RawType where
  | cls (c : ClassRef)
  | union (style : UnionStyle) (members : List TypeExpr)
  | literalForm
  | value (v : Value)
  | variable (name : String) (serial : Nat)
  | unresolved (name : String)
  deriving Inhabited, Repr

namespace RawType

/-- Sameness as a key: unions by their alternatives, values as values. -/
def same : RawType → RawType → Bool
  | .cls c, .cls d => c = d
  | .union s ms, .union t ns => (TypeExpr.union s ms).same (.union t ns)
  | .literalForm, .literalForm => true
  | .value v, .value w => v.same w
  | .variable _ s, .variable _ t => s = t
  | .unresolved a, .unresolved b => a = b
  | _, _ => false

/-- The name a type bears itself. Unions with bars and values bear none. -/
def ownName? : RawType → Option String
  | .cls c => some c.name
  | .union .keyword _ => some "Union"
  | .union .bar _ => none
  | .literalForm => some "Literal"
  | .value _ => none
  | .variable n _ => some n
  | .unresolved n => some n

def name : RawType → String
  | .union .bar ms => (TypeExpr.union .bar ms).text
  | .value v => v.shown
  | r => r.ownName?.getD ""

def display : RawType → String
  | .cls c => c.display
  | .union s ms => (TypeExpr.union s ms).text
  | .literalForm => "typing.Literal"
  | .value v => v.shown
  | .variable n _ => "~" ++ n
  | .unresolved n => n

def class? : RawType → Option ClassRef
  | .cls c => some c
  | _ => none

end RawType

inductive Descriptor where
  | mk (raw : RawType) (args : List Descriptor) (nullable : Bool)
  deriving Inhabited, Repr

namespace Descriptor

def raw : Descriptor → RawType
  | .mk r _ _ => r

def args : Descriptor → List Descriptor
  | .mk _ as _ => as

def nullable : Descriptor → Bool
  | .mk _ _ n => n

/-- The form that admits null, under which column mappers are looked up. -/
def boxed : Descriptor → Descriptor
  | .mk r as _ => .mk r as true

def ofClass (c : ClassRef) : Descriptor := .mk (.cls c) [] false

mutual

/-- The descriptor of a type expression. A union of one type and null is that type, nullable. -/
def of : TypeExpr → Descriptor
  | .cls c => ofClass c
  | .union style members =>
    match ofAlternatives members with
    | [d] => d.boxed
    | ds => .mk (.union style members) [] (ds.length < members.length)
  | .generic origin ts _ => .mk (.cls (.builtin origin)) (ofAll ts) false
  | .aliased origin ts => .mk (.cls (.builtin origin)) (ofAll ts) false
  | .literal values => .mk .literalForm (values.map fun v => .mk (.value v) [] false) false
  | .marked t _ => of t
  | .variable n s => .mk (.variable n s) [] false
  | .unresolved n => .mk (.unresolved n) [] false

def ofAll : List TypeExpr → List Descriptor
  | [] => []
  | t :: ts => of t :: ofAll ts

def ofAlternatives : List TypeExpr → List Descriptor
  | [] => []
  | t :: ts => if t.isNone then ofAlternatives ts else of t :: ofAlternatives ts

end

mutual

def same : Descriptor → Descriptor → Bool
  | .mk r as m, .mk s bs n => r.same s && m = n && sameAll as bs

def sameAll : List Descriptor → List Descriptor → Bool
  | [], [] => true
  | a :: as, b :: bs => same a b && sameAll as bs
  | _, _ => false

end

/-- A number or truth value that cannot be null, whose null shows only on the row. -/
def primitive (d : Descriptor) : Bool :=
  !d.nullable && match d.raw with
    | .cls (.builtin b) => b = .int || b = .float || b = .bool
    | _ => false

def element (d : Descriptor) : Option Descriptor := d.args.head?

mutual

def text : Descriptor → String
  | .mk r as nullable =>
    r.name ++ (if as.isEmpty then "" else "[" ++ ", ".intercalate (texts as) ++ "]")
      ++ (if nullable then " | None" else "")

def texts : List Descriptor → List String
  | [] => []
  | d :: ds => text d :: texts ds

end

end Descriptor
end RowMapping
