import RowMapping.Proofs.Mapper.Reading

/-! Column mappers that look at nothing but their own column. What they make of it depends on its value only,
not on where the column stands, on the rest of the row or on what was mapped before. -/
namespace RowMapping

open MappingM

namespace ColumnMapper

/-- The mapper reads its own column, and makes of the value what `f` says, or fails where `f` says nothing. -/
def Computes (h : Hooks) (c : Context) (s : Schema) (f : Value → Option Value) (m : ColumnMapper) : Prop :=
  ∀ (w : World) (row : Row) (index : Nat) (v : Value), w.schema = s → row.values[index]? = some v →
    match f v with
    | some u => ∃ w', ((m.apply h c index).run row).run w = (.ok (u, { row with wasNull := v.isNull }), w') ∧
        w'.schema = s
    | none => ∃ e w', ((m.apply h c index).run row).run w = (.error e, w')

/-- The mapper reads exactly its own column, and depends on its value only. -/
def Local (h : Hooks) (c : Context) (s : Schema) (m : ColumnMapper) : Prop := ∃ f, m.Computes h c s f

variable {h : Hooks} {c : Context} {s : Schema}

/-! ### The library's own -/

theorem convert_index (m : ColumnMapper) (s : Schema) (i j : Int) (v : Value) :
    (m.convert s i v).toOption = (m.convert s j v).toOption := by
  cases m with
  | array serial container origin element =>
    simp only [convert]
    split
    · rfl
    · split <;> rfl
  | value | raw | custom | misplaced => rfl

theorem run_library {m : ColumnMapper} (library : m.Library) {row : Row} {index : Nat} {v : Value}
    (present : row.values[index]? = some v) (w : World) :
    ((m.apply h c index).run row).run w =
      match m.convert w.schema index v with
      | .ok u => (.ok (u, { row with wasNull := v.isNull }), w)
      | .error e => (.error e, w) := by
  cases converted : m.convert w.schema index v with
  | ok u => exact apply_reads row present converted h c w rfl
  | error e =>
    have read : ((Reading.column index).run row).run w = (.ok (v, { row with wasNull := v.isNull }), w) :=
      reads_column present w rfl
    have classes : ((getThe World : Reading World).run row).run w = (.ok (w, row), w) := rfl
    unfold ColumnMapper.apply
    rw [StateT.run_bind, run_bind_ok classes]
    cases m with
    | value origin target =>
      dsimp only
      rw [StateT.run_bind, run_bind_ok read, show convertTo w.schema target v = .error e from converted]
      rfl
    | array serial container origin element =>
      dsimp only
      rw [StateT.run_bind, run_bind_ok read]
      simp only [convert] at converted
      split at converted
      · contradiction
      · next some =>
        rw [if_neg some]
        split at converted
        · next items known =>
          rw [known]
          dsimp only
          rw [converted]
          rfl
        · next known =>
          cases converted
          rw [known]
          rfl
    | raw => contradiction
    | custom | misplaced => contradiction

theorem Library.looks_local {m : ColumnMapper} (library : m.Library) : m.Local h c s := by
  refine ⟨fun v => (m.convert s 0 v).toOption, fun w row index v schema present => ?_⟩
  have ran := run_library (h := h) (c := c) library present w
  rw [schema] at ran
  dsimp only
  rw [convert_index m s 0 index v]
  cases converted : m.convert s index v with
  | ok u =>
    rw [converted] at ran
    exact ⟨w, ran, schema⟩
  | error e =>
    rw [converted] at ran
    exact ⟨e, w, ran⟩

end ColumnMapper
end RowMapping
