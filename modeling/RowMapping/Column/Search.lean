import RowMapping.Column.Matcher
import RowMapping.Failure

/-! The search for the one column that stands for a name, and for columns under a lead. -/
namespace RowMapping

/-- The matchers of a chain in order. What comes after an entry that is no matcher is never
reached; a column that no matcher before it accepts then breaks the search. -/
structure MatcherChain where
  usable : List Matcher
  broken : Bool
  deriving Repr, Inhabited

namespace MatcherChain

def of (ms : List Matcher) : MatcherChain := ⟨ms, false⟩

def ofEntries (es : List (Option Matcher)) : MatcherChain :=
  ⟨(es.takeWhile Option.isSome).filterMap id, es.any Option.isNone⟩

private def asked (chain : MatcherChain) (test : Matcher → Bool) : Except Failure Bool :=
  if chain.usable.any test then .ok true
  else if chain.broken then .error .lacksPart
  else .ok false

def accepts (chain : MatcherChain) (column name : String) : Except Failure Bool :=
  chain.asked fun m => m.accepts column name

def liesUnder (chain : MatcherChain) (column lead : String) : Except Failure Bool :=
  chain.asked fun m => m.liesUnder column lead

/-- Searches from position `i` on, where `found` is what was accepted before. -/
def searchFrom (chain : MatcherChain) (name label : String) :
    List String → Nat → Option (Nat × String) → Except Failure (Option Nat)
  | [], _, found => .ok (found.map (·.1))
  | c :: cs, i, found => do
    if ← chain.accepts c name then
      match found with
      | some (_, first) => .error (.ambiguousColumn label first c)
      | none => searchFrom chain name label cs (i + 1) (some (i, c))
    else searchFrom chain name label cs (i + 1) found

/-- The position of the single column accepted for a name. A second one is an error, reported under
`label` if there is one. -/
def find (chain : MatcherChain) (name : String) (columns : List String) (label : Option String) :
    Except Failure (Option Nat) :=
  chain.searchFrom name ((label.filter (!·.isEmpty)).getD name) columns 0 none

def anyUnder (chain : MatcherChain) (lead : String) : List String → Except Failure Bool
  | [] => .ok false
  | c :: cs => do
    if ← chain.liesUnder c lead then return true
    else chain.anyUnder lead cs

end MatcherChain
end RowMapping
