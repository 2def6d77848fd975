import RowMapping.Text.Case

/-! Column name matchers: when a column stands for a name, and when it lies under a lead, the text
that the columns of a sub-object start with. -/
namespace RowMapping

inductive Matcher where
  | caseInsensitive
  /-- Equal but for case and underscores. -/
  | snakeCase
  | exact
  /-- The column is the name read backwards, and lies under a lead that it ends in. -/
  | reverse
  /-- A matcher of the caller: whether a column stands for a name, and whether it lies under a lead. -/
  | written (name : String) (accepts liesUnder : String → String → Bool)
  deriving Inhabited

namespace Matcher

open Text

def accepts (m : Matcher) (column name : String) : Bool :=
  match m with
  | .caseInsensitive => fold column = fold name
  | .snakeCase => squash column = squash name
  | .exact => column = name
  | .reverse => column.toList = name.toList.reverse
  | .written _ accepts _ => accepts column name

def liesUnder (m : Matcher) (column lead : String) : Bool :=
  match m with
  | .caseInsensitive => (fold lead).isPrefixOf (fold column)
  | .snakeCase => (squash lead).isPrefixOf (squash column)
  | .exact => lead.toList.isPrefixOf column.toList
  | .reverse => lead.toList.isSuffixOf column.toList
  | .written _ _ liesUnder => liesUnder column lead

def shown : Matcher → String
  | .caseInsensitive => "CaseInsensitiveColumnNameMatcher()"
  | .snakeCase => "SnakeCaseColumnNameMatcher()"
  | .exact => "ExactMatcher()"
  | .reverse => "ReverseMatcher()"
  | .written name .. => name

instance : Repr Matcher := ⟨fun m _ => m.shown⟩

def standard : List Matcher := [.caseInsensitive, .snakeCase]

end Matcher
end RowMapping
