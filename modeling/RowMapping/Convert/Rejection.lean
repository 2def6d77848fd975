import RowMapping.Text.Quoted
import RowMapping.Time.Reading
import RowMapping.Uuid

/-! Why a value is refused as a value of some type. Each reason has a code and a message. -/
namespace RowMapping

inductive Rejection where
  | intType | intParsing | intSize | intFraction | finiteNumber
  | floatType | floatParsing
  | boolType | boolParsing
  | textType | textEncoding
  | decimalType | decimalParsing
  | bytesType
  | datetimeType
  | datetimeParsing (fault : Time.ReadFault)
  | datetimeFromDate (fault : Time.ReadFault)
  | dateType
  | dateFromDatetime (fault : Time.ReadFault)
  | dateInexact
  | timeType
  | timeParsing (fault : Time.ReadFault)
  | spanType
  | spanParsing (fault : Time.ReadFault)
  | uuidType
  | uuidParsing (fault : UuidFault)
  | member (expected : List String)
  | literal (expected : List String)
  | instanceOf (name : String)
  | recordType (name : String)
  | modelType (name : String)
  | listType | setType | frozensetType | tupleType | dictType
  | itemUnhashable
  | noneRequired
  | missing
  | extraForbidden
  | custom (message : String)
  /-- A value that is read but has no representation; it aborts instead of being reported. -/
  | unrepresentable (message : String)

namespace Rejection

def code : Rejection → String
  | .intType => "int_type"
  | .intParsing => "int_parsing"
  | .intSize => "int_parsing_size"
  | .intFraction => "int_from_float"
  | .finiteNumber => "finite_number"
  | .floatType => "float_type"
  | .floatParsing => "float_parsing"
  | .boolType => "bool_type"
  | .boolParsing => "bool_parsing"
  | .textType => "string_type"
  | .textEncoding => "string_unicode"
  | .decimalType => "decimal_type"
  | .decimalParsing => "decimal_parsing"
  | .bytesType => "bytes_type"
  | .datetimeType => "datetime_type"
  | .datetimeParsing _ => "datetime_parsing"
  | .datetimeFromDate _ => "datetime_from_date_parsing"
  | .dateType => "date_type"
  | .dateFromDatetime _ => "date_from_datetime_parsing"
  | .dateInexact => "date_from_datetime_inexact"
  | .timeType => "time_type"
  | .timeParsing _ => "time_parsing"
  | .spanType => "time_delta_type"
  | .spanParsing _ => "time_delta_parsing"
  | .uuidType => "uuid_type"
  | .uuidParsing _ => "uuid_parsing"
  | .member _ => "enum"
  | .literal _ => "literal_error"
  | .instanceOf _ => "is_instance_of"
  | .recordType _ => "dataclass_type"
  | .modelType _ => "model_type"
  | .listType => "list_type"
  | .setType => "set_type"
  | .frozensetType => "frozen_set_type"
  | .tupleType => "tuple_type"
  | .dictType => "dict_type"
  | .itemUnhashable => "set_item_not_hashable"
  | .noneRequired => "none_required"
  | .missing => "missing"
  | .extraForbidden => "extra_forbidden"
  | .custom _ => "value_error"
  | .unrepresentable _ => "value_error"

private def expecting (what : String) : String := "Input should be " ++ what

def message : Rejection → String
  | .intType => expecting "a valid integer"
  | .intParsing => expecting "a valid integer, unable to parse string as an integer"
  | .intSize => "Unable to parse input string as an integer, exceeded maximum size"
  | .intFraction => expecting "a valid integer, got a number with a fractional part"
  | .finiteNumber => expecting "a finite number"
  | .floatType => expecting "a valid number"
  | .floatParsing => expecting "a valid number, unable to parse string as a number"
  | .boolType => expecting "a valid boolean"
  | .boolParsing => expecting "a valid boolean, unable to interpret input"
  | .textType => expecting "a valid string"
  | .textEncoding => expecting "a valid string, unable to parse raw data as a unicode string"
  | .decimalType => "Decimal input should be an integer, float, string or Decimal object"
  | .decimalParsing => expecting "a valid decimal"
  | .bytesType => expecting "a valid bytes"
  | .datetimeType => expecting "a valid datetime"
  | .datetimeParsing f => expecting ("a valid datetime, " ++ f.message)
  | .datetimeFromDate f => expecting ("a valid datetime or date, " ++ f.message)
  | .dateType => expecting "a valid date"
  | .dateFromDatetime f => expecting ("a valid date or datetime, " ++ f.message)
  | .dateInexact => "Datetimes provided to dates should have zero time - e.g. be exact dates"
  | .timeType => expecting "a valid time"
  | .timeParsing f => expecting ("in a valid time format, " ++ f.message)
  | .spanType => expecting "a valid timedelta"
  | .spanParsing f => expecting ("a valid timedelta, " ++ f.message)
  | .uuidType => "UUID input should be a string, bytes or UUID object"
  | .uuidParsing f => expecting ("a valid UUID, " ++ f.message)
  | .member names => expecting (Text.choice "or" names)
  | .literal names => expecting (Text.choice "or" names)
  | .instanceOf name => expecting ("an instance of " ++ name)
  | .recordType name => expecting ("a dictionary or an instance of " ++ name)
  | .modelType name => expecting ("a valid dictionary or instance of " ++ name)
  | .listType => expecting "a valid list"
  | .setType => expecting "a valid set"
  | .frozensetType => expecting "a valid frozenset"
  | .tupleType => expecting "a valid tuple"
  | .dictType => expecting "a valid dictionary"
  | .itemUnhashable => "Set items should be hashable"
  | .noneRequired => expecting "None"
  | .missing => "Field required"
  | .extraForbidden => "Extra inputs are not permitted"
  | .custom message => "Value error, " ++ message
  | .unrepresentable message => message

end Rejection

/-- A step towards the place of a rejection: a key, or the index of an item. -/
inductive Place where
  | key (name : String)
  | index (i : Nat)

structure LocatedRejection where
  place : List Place
  reason : Rejection

def LocatedRejection.under (p : Place) (r : LocatedRejection) : LocatedRejection :=
  { r with place := p :: r.place }

end RowMapping
