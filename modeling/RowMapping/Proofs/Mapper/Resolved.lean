import RowMapping.Proofs.Mapper.Trails
import RowMapping.Proofs.Registry.RowCache
import RowMapping.Proofs.Session.Comes

/-! What types resolve to where all factories are the library's own: to reflective mappers, and to mappers of
the first column that convert to scalar classes. Nothing fails to resolve but a type that
nothing maps, or whose annotations name what nothing declares. -/
namespace RowMapping

open MappingM

def RowFactory.Library : RowFactory → Prop
  | .reflective .. => True
  | _ => False

instance (f : RowFactory) : Decidable f.Library :=
  match f with
  | .reflective .. => isTrue trivial
  | .fixed .. | .custom _ | .written .. | .scalars _ | .arrays => isFalse id

def ColumnMapper.Converts (s : Schema) : ColumnMapper → Prop
  | .value _ target => (Scalar.ofClass? s target).isSome
  | .array _ _ _ element => (Scalar.ofClass? s element).isSome
  | .raw => True
  | .custom _ | .misplaced _ => False

theorem ColumnMapper.Converts.alike {s : Schema} {m n : ColumnMapper} (converts : n.Converts s)
    (alike : Alike m n) : m.Converts s := by
  cases m <;> cases n <;> simp_all [Alike, Numbered.anonymous, ColumnMapper.Converts]

section Columns

variable {s : Schema} {fs : List ColumnFactory}

variable {w : World} {c : Context}

end Columns
/-! ### Rows -/

section Rows

variable {fs : List ColumnFactory} {w : World} {c : Context}

end Rows
/-! ### Kept mappers -/

/-- All factories of the context are the library's own, those of columns being `fs`. -/
structure World.OwnFactories (w : World) (c : Context) (fs : List ColumnFactory) : Prop where
  registry : ∃ r, w.registries[c.registry]? = some r ∧ r.columns.factories = fs ∧ ∀ f ∈ r.rows.factories, f.Library
  columns : ∀ f ∈ fs, f.Library

theorem World.OwnFactories.level {s : Schema} {w : World} {c : Context} {fs : List ColumnFactory}
    (own : w.OwnFactories c fs) (reached : Reached s w) : w.Level c fs w := by
  obtain ⟨r, known, rfl, _⟩ := own.registry
  exact World.level_of_reached reached known own.columns

end RowMapping
