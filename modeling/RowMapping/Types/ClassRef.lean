/-! Names of classes: the built-in ones, and those that a schema declares. -/
namespace RowMapping

inductive Builtin where
  | int | float | bool | text | bytes | decimal | datetime | date | time | span | uuid | complex
  | object | list | tuple | set | frozenset | dict | none | any | enum
  deriving DecidableEq, Repr, Inhabited

inductive ClassRef where
  | builtin (b : Builtin)
  | declared (name : String)
  deriving DecidableEq, Repr, Inhabited

namespace Builtin

def name : Builtin → String
  | .int => "int" | .float => "float" | .bool => "bool" | .text => "str" | .bytes => "bytes"
  | .decimal => "Decimal" | .datetime => "datetime" | .date => "date" | .time => "time"
  | .span => "timedelta" | .uuid => "UUID" | .complex => "complex" | .object => "object"
  | .list => "list" | .tuple => "tuple" | .set => "set" | .frozenset => "frozenset"
  | .dict => "dict" | .none => "NoneType" | .any => "Any" | .enum => "Enum"

/-- The name with the module that holds the class, as unions and class displays spell it. -/
def qualifiedName : Builtin → String
  | .decimal => "decimal.Decimal" | .datetime => "datetime.datetime" | .date => "datetime.date"
  | .time => "datetime.time" | .span => "datetime.timedelta" | .uuid => "uuid.UUID"
  | .any => "typing.Any" | .enum => "enum.Enum" | .none => "None"
  | b => b.name

def typingName : Builtin → String
  | .list => "typing.List" | .tuple => "typing.Tuple" | .set => "typing.Set"
  | .frozenset => "typing.FrozenSet" | .dict => "typing.Dict"
  | b => b.qualifiedName

end Builtin

namespace ClassRef

def name : ClassRef → String
  | .builtin b => b.name
  | .declared n => n

/-- Declared classes live in the module of the schema. -/
def qualifiedName : ClassRef → String
  | .builtin b => b.qualifiedName
  | .declared n => "scn." ++ n

def display : ClassRef → String
  | .builtin .none => "<class 'NoneType'>"
  | c => "<class '" ++ c.qualifiedName ++ "'>"

end ClassRef
end RowMapping
