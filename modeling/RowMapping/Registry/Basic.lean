import RowMapping.Registry.Chain
import RowMapping.Session.Command

/-! Registries: a chain of row factories and a chain of column factories. -/
namespace RowMapping

/-- A factory of the caller: one mapper, offered for the types it claims. -/
structure CustomFactory where
  serial : Nat
  name : String
  claim : Claim
  mapper : CustomMapper
  onBuild : List Command
  deriving Inhabited

namespace CustomFactory

/-- Whether two raw types are one object and not only equal: unions with bars never are. -/
private def identical : RawType → RawType → Bool
  | .union .bar _, _ => false
  | r, s => r.same s

def claims (f : CustomFactory) (d : Descriptor) : Bool :=
  match f.claim with
  | .any => true
  | .never => false
  | .raw t => identical d.raw (Descriptor.of t).raw
  | .exact t => d.same (.of t)

def shown (f : CustomFactory) : String := "Factory(" ++ f.name ++ ")"

end CustomFactory

private def writtenShown (name : String) : String := "Factory(" ++ name ++ ")"

inductive ColumnFactory where
  | scalars (serial : Nat)
  | arrays
  /-- One mapper for one type, null admitted or not. -/
  | fixed (target : Descriptor) (mapper : ColumnMapper)
  | custom (f : CustomFactory)
  | written (name : String) (ask : Descriptor → Procedure Command ColumnMapper)
  /-- Reflective mappers, out of their place. -/
  | reflective (targets : Option (List RawType)) (lead : String)
  deriving Inhabited

inductive RowFactory where
  /-- Reflective mappers, of the given targets or of all types that have properties. -/
  | reflective (targets : Option (List RawType)) (lead : String)
  | fixed (target : Descriptor) (mapper : RowMapper)
  | custom (f : CustomFactory)
  | written (name : String) (ask : Descriptor → Procedure Command RowMapper)
  | scalars (serial : Nat)
  | arrays
  deriving Inhabited

private def targetsShown : Option (List RawType) → String
  | none => "None"
  | some [] => "frozenset()"
  | some ts => "frozenset(\x7b" ++ ", ".intercalate (ts.map RawType.display) ++ "\x7d)"

private def scalarsShown : String := "BuiltInMapperFactory()"
private def arraysShown : String := "ArrayMapperFactory()"
private def reflectiveShown (targets : Option (List RawType)) (lead : String) : String :=
  "PojoMapperFactory(targets=" ++ targetsShown targets ++ ", prefix=" ++ Text.quoted lead ++ ")"

def ColumnFactory.shown : ColumnFactory → String
  | .scalars _ => scalarsShown
  | .arrays => arraysShown
  | .fixed target _ => "InferredColumnMapperFactory(" ++ target.text ++ ")"
  | .custom f => f.shown
  | .written name _ => writtenShown name
  | .reflective targets lead => reflectiveShown targets lead

def RowFactory.shown : RowFactory → String
  | .reflective targets lead => reflectiveShown targets lead
  | .fixed target _ => "InferredRowMapperFactory(" ++ target.text ++ ")"
  | .custom f => f.shown
  | .written name _ => writtenShown name
  | .scalars _ => scalarsShown
  | .arrays => arraysShown

structure Registry where
  rows : Chain RowFactory RowMapper
  columns : Chain ColumnFactory ColumnMapper
  deriving Inhabited

namespace Registry

def standard (serial : Nat) : Registry := ⟨.of [], .of [.scalars serial, .arrays]⟩

/-- The same factories and caches, with a history of its own. -/
def snapshot (r : Registry) : Registry := ⟨r.rows.snapshot, r.columns.snapshot⟩

def registerRow (r : Registry) (f : RowFactory) : Registry := { r with rows := r.rows.register f }

def registerColumn (r : Registry) (f : ColumnFactory) : Registry :=
  { r with columns := r.columns.register f }

end Registry
end RowMapping
