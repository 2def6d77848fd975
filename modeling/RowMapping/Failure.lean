import RowMapping.Convert.Rejection
import RowMapping.Schema.Signature

/-! Failures of look-ups, mappings and row accesses, by cause. Each has one message; a few concern
the caller's own misuse and have none. -/
namespace RowMapping

open Text

inductive Failure where
  /-- A mapper is registered without a type and declares none. -/
  | mapperInference (mapper : String)
  | noMatchingColumns (type : String) (columns : List String)
  | leftoverColumns (type : String) (columns : List String)
  | noSuchMapper (type property propertyType : String)
  | ambiguousColumn (property first second : String)
  | unknownProperties (type : String)
  | nestedCycle (type lead : String)
  | columnMismatch (type detail : String)
  | modelMismatch (type : String) (rejections : List LocatedRejection)
  | missingColumn (column : String) (columns : List String)
  | noSuchRowMapper (type : String)
  | conversion (value target reason : String)
  | notArray (index : Int) (found : String)
  | rowLength (values columns : Nat)
  | raised (r : Raise)
  | settings (rejections : List LocatedRejection)
  /-- An index beyond the columns of a row. -/
  | indexRange
  /-- A part is asked of a value that does not have it. -/
  | lacksPart
  /-- A value is used as what it is not. -/
  | misuse
  /-- An annotation names what nothing declares. -/
  | undeclared
  | exhausted

namespace Failure

private def single (s : String) : String := "'" ++ s ++ "'"

def message : Failure → String
  | .mapperInference m =>
    "Cannot infer the mapped type of " ++ m
      ++ "; pass target_type or annotate the return type of map()"
  | .noMatchingColumns t cs =>
    "Mapping " ++ t ++ " didn't find any matching columns in " ++ quotedList cs
  | .leftoverColumns t cs =>
    "Mapping " ++ t ++ " could not match properties for columns: " ++ quotedList cs
  | .noSuchMapper t p pt =>
    "Couldn't find mapper for property " ++ single p ++ " of type " ++ single pt ++ " from " ++ t
  | .ambiguousColumn p a b =>
    single p ++ " matches multiple columns: " ++ single a ++ " and " ++ single b
  | .unknownProperties t => "Couldn't find properties for " ++ t
  | .nestedCycle t lead =>
    "Nested mapping of " ++ t ++ " recurses into itself at prefix " ++ single lead
  | .columnMismatch t d => "Cannot map to " ++ t ++ ": " ++ quotedList [d]
  | .modelMismatch t _ => "Cannot map to " ++ t
  | .missingColumn c cs => "Column " ++ single c ++ " not found in " ++ quotedList cs
  | .noSuchRowMapper t => "No row mapper registered for " ++ t
  | .conversion v t r => "Cannot convert " ++ v ++ " to " ++ t ++ ": " ++ r
  | .notArray i f => "Column " ++ toString i ++ " holds " ++ f ++ ", expected an array"
  | .rowLength n m => "Row has " ++ toString n ++ " values for " ++ toString m ++ " columns"
  | .raised r => r.shown
  | _ => ""

end Failure
end RowMapping
