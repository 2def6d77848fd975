import RowMapping.Text.Quoted
import RowMapping.Value.Basic

/-! Parameters by keyword, and how a list of keywords is bound to them. -/
namespace RowMapping

inductive ErrorKind where
  | value | type | key | runtime | lookup | mapping
  deriving DecidableEq, Repr, Inhabited

structure Raise where
  kind : ErrorKind
  message : String
  deriving DecidableEq, Repr, Inhabited

namespace Raise

def shown (r : Raise) : String := if r.kind = .key then Text.quoted r.message else r.message

def rejects (r : Raise) : Bool := r.kind = .value || r.kind = .type

end Raise

abbrev Keywords := List (String × Value)

/-- Sets a keyword: in its place if it is there, at the end otherwise. -/
def Keywords.put (ks : Keywords) (name : String) (v : Value) : Keywords :=
  if ks.any (·.1 = name) then ks.map fun k => if k.1 = name then (name, v) else k
  else ks ++ [(name, v)]

def Keywords.find? (ks : Keywords) (name : String) : Option Value :=
  (List.find? (·.1 = name) ks).map (·.2)

structure Param where
  name : String
  fallback : Option Value
  keywordOnly : Bool
  deriving Inhabited, Repr

/-- The parameters of something that is called by the name `title`; `rest` collects what no
parameter takes. -/
structure Signature where
  title : String
  params : List Param
  rest : Option String
  deriving Inhabited, Repr

inductive BindFault where
  | unexpected (title name : String)
  | missing (title : String) (names : List String)
  | missingKeywordOnly (title : String) (names : List String)

private def missingText (title kind : String) (names : List String) : String :=
  title ++ "() missing " ++ toString names.length ++ " required " ++ kind ++ " argument"
    ++ (if names.length = 1 then "" else "s") ++ ": " ++ Text.series "and" (names.map Text.quoted)

def BindFault.message : BindFault → String
  | .unexpected title name => title ++ "() got an unexpected keyword argument " ++ Text.quoted name
  | .missing title names => missingText title "positional" names
  | .missingKeywordOnly title names => missingText title "keyword-only" names

namespace Signature

def lacking (s : Signature) (ks : Keywords) (keywordOnly : Bool) : List String :=
  (s.params.filter fun p =>
    p.keywordOnly = keywordOnly && p.fallback.isNone && (ks.find? p.name).isNone).map (·.name)

def surplus (s : Signature) (ks : Keywords) : Keywords :=
  List.filter (fun k => !s.params.any (·.name = k.1)) ks

/-- Binds keywords: the parameters in order with their values, then the rest. A keyword that
nothing takes is reported before one that is missing. -/
def bind (s : Signature) (ks : Keywords) : Except BindFault Keywords :=
  match s.rest, s.surplus ks with
  | none, (name, _) :: _ => .error (.unexpected s.title name)
  | _, more =>
    match s.lacking ks false, s.lacking ks true with
    | [], [] =>
      .ok (s.params.map (fun p => (p.name, (ks.find? p.name).getD (p.fallback.getD .null))) ++ more)
    | [], names => .error (.missingKeywordOnly s.title names)
    | names, _ => .error (.missing s.title names)

def required (s : Signature) : List String :=
  (s.params.filter (·.fallback.isNone)).map (·.name) ++ s.rest.toList

end Signature
end RowMapping
