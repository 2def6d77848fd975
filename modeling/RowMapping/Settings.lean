import RowMapping.Column.Search

/-! The settings of a context: two switches that make mapping strict, and the matchers of its columns. -/
namespace RowMapping

structure Settings where
  /-- Whether columns under a mapper's lead that no property reads are an error. -/
  strictMatching : Bool
  /-- Whether a property type without a column mapper is an error. -/
  strictTypes : Bool
  matchers : List (Option Matcher)
  deriving Inhabited, Repr

namespace Settings

def standard : Settings := ⟨false, true, Matcher.standard.map some⟩

def chain (s : Settings) : MatcherChain := .ofEntries s.matchers

end Settings

end RowMapping
