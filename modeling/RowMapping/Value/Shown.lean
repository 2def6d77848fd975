import RowMapping.Text.Quoted
import RowMapping.Time.Written
import RowMapping.Value.Basic

/-! Values as messages show them: texts quoted, containers in their brackets, times and identifiers
by their constructors, records by their fields. Numbers of too many digits cannot be shown. -/
namespace RowMapping.Value

open Number Text

private def inBraces (s : String) : String := "\x7b" ++ s ++ "\x7d"

mutual

def shown : Value → String
  | .null => "None"
  | .bool b => if b then "True" else "False"
  | .int n => toString n
  | .float x => x.render
  | .decimal d => "Decimal('" ++ d.render ++ "')"
  | .text s => quoted s
  | .bytes b => quotedBytes b
  | .view _ => "<memory>"
  | .date d => d.shown
  | .time t => t.shown
  | .moment d => d.shown
  | .span s => s.shown
  | .uuid u => "UUID('" ++ u.render ++ "')"
  | .member c _ n v => "<" ++ c ++ "." ++ n ++ ": " ++ v.shown ++ ">"
  | .list xs => "[" ++ ", ".intercalate (shownAll xs) ++ "]"
  | .tuple [x] => "(" ++ x.shown ++ ",)"
  | .tuple xs => "(" ++ ", ".intercalate (shownAll xs) ++ ")"
  | .set [] => "set()"
  | .set xs => inBraces (", ".intercalate (shownAll xs))
  | .frozenset [] => "frozenset()"
  | .frozenset xs => "frozenset(" ++ inBraces (", ".intercalate (shownAll xs)) ++ ")"
  | .dict es => inBraces (", ".intercalate (shownEntries es))
  | .object c record fields =>
    if record then c ++ "(" ++ ", ".intercalate (shownFields fields) ++ ")" else "<" ++ c ++ ">"
  | .made .. => "<Made>"

def shownAll : List Value → List String
  | [] => []
  | v :: vs => v.shown :: shownAll vs

def shownEntries : List (Value × Value) → List String
  | [] => []
  | (k, v) :: es => (k.shown ++ ": " ++ v.shown) :: shownEntries es

def shownFields : List (String × Value) → List String
  | [] => []
  | (k, v) :: fs => (k ++ "=" ++ v.shown) :: shownFields fs

end

def digitLimit : Nat := 4300

mutual

def showable : Value → Bool
  | .int n => (digits n.natAbs).length ≤ digitLimit
  | .member _ _ _ v => v.showable
  | .list vs | .tuple vs | .set vs | .frozenset vs => allShowable vs
  | .dict es => entriesShowable es
  | .object _ record fields => !record || fieldsShowable fields
  | _ => true

def allShowable : List Value → Bool
  | [] => true
  | v :: vs => v.showable && allShowable vs

def entriesShowable : List (Value × Value) → Bool
  | [] => true
  | (k, v) :: es => k.showable && v.showable && entriesShowable es

def fieldsShowable : List (String × Value) → Bool
  | [] => true
  | (_, v) :: fs => v.showable && fieldsShowable fs

end

end RowMapping.Value
