import RowMapping.Proofs.Mapper.Scripts
import RowMapping.Proofs.Registry.Matched

/-! Mapping side by side. In two sessions where look-ups find twins, rows are mapped to the same values, by
mappers of the library and by mappers of the caller that keep no state. -/
namespace RowMapping

open MappingM ReflectiveMapper

/-- Mappers correspond that differ in numbers from `n` on only, and keep no state. -/
def Kinship.twins (n : Nat) (listed : RawType → Property → Prop) : Kinship :=
  ⟨n, Twins n, listed, ColumnMapper.Stateless⟩

/-- Two sessions whose contexts map side by side, as far as look-ups and mappers can tell. -/
structure Coupled (l : Leniency) (R : World → World → Prop) (n : Nat)
    (listed : RawType → Property → Prop) (h k : Hooks) (c d : Context) : Prop extends Idling R n where
  parallel : Parallel l R (.twins n listed) h k c d
  findRow : ∀ key, Together l R (RowsFound n) (Registry.findRow h c key) (Registry.findRow k d key)
  columnFor : ∀ key, Together l R (fun o p => o.isSome = p.isSome) (h.findColumn c key) (k.findColumn d key)
  rowFor : ∀ key, Together l R (fun o p => o.isSome = p.isSome) (h.findRow c key) (k.findRow d key)
  column : ∀ type index row, Together l R (· = ·) (h.column c type index row) (k.column d type index row)
  row : ∀ type row, Together l R (· = ·) (h.row c type row) (k.row d type row)

theorem ColumnMapper.apply_twin (h : Hooks) (c : Context) {n : Nat} {m m' : ColumnMapper}
    (stateless : m.Stateless) (twins : Twins n m m') (index : Int) :
    m.apply h c index = m'.apply h c index := by
  have numbered : Serial.upTo n m = Serial.upTo n m' := twins
  have other : m'.Stateless := by
    rw [← ColumnMapper.stateless_upTo n, ← numbered]
    exact (ColumnMapper.stateless_upTo n m).mpr stateless
  rw [← ColumnMapper.apply_upTo n h c stateless, numbered, ColumnMapper.apply_upTo n h c other]

theorem CustomMapper.twins_spec {n : Nat} {m m' : CustomMapper} (twins : Twins n m m') :
    m.spec = m'.spec ∧ m.step = m'.step ∧ m.wrapped = m'.wrapped ∧ min m.serial n = min m'.serial n := by
  have numbered : Serial.upTo n m = Serial.upTo n m' := twins
  simp only [Serial.upTo, CustomMapper.mk.injEq] at numbered
  exact ⟨numbered.2.2.2, numbered.2.1, numbered.2.2.1, numbered.1⟩

theorem CustomMapper.run_twin (h : Hooks) (c : Context) (delegate : TypeExpr → Reading Value) {n : Nat}
    {m m' : CustomMapper} (stateless : m.spec.stateless = true) (twins : Twins n m m') (index : Option Int) :
    m.run h c delegate index = m'.run h c delegate index := by
  have numbered : Serial.upTo n m = Serial.upTo n m' := twins
  have other : m'.spec.stateless = true := by
    rw [← (CustomMapper.twins_spec twins).1]
    exact stateless
  rw [← CustomMapper.run_upTo n h c delegate stateless, numbered, CustomMapper.run_upTo n h c delegate other]

/-! ### Mapping -/

namespace Coupled

variable {l : Leniency} {R : World → World → Prop} {n : Nat} {listed : RawType → Property → Prop}
  {h k : Hooks} {c d : Context} (coupled : Coupled l R n listed h k c d)
include coupled

theorem conversant : Conversant l R (· = ·) h k c d :=
  ⟨coupled.parallel.settings, coupled.columnFor, coupled.rowFor, coupled.column, coupled.row⟩

theorem applies : Applies l R ColumnMapper.Stateless h k c d where
  schema := coupled.parallel.schema
  column m stateless index := by
    cases m with
    | custom f =>
      refine together_schema coupled.parallel.schema fun w v _ => ?_
      exact coupled.conversant.run (coupled.conversant.columnOver index) (.of_eq f.spec.behaviour)
        (MapperSpec.not_count stateless) (some index)
    | misplaced m =>
      refine together_schema coupled.parallel.schema fun w v _ => ?_
      exact .throw _
    | value origin target =>
      exact together_library (m := .value origin target) coupled.parallel.schema h k c d trivial index
    | array serial container origin element =>
      have library : (ColumnMapper.array serial container origin element).Library := trivial
      exact together_library coupled.parallel.schema h k c d library index
    | raw => exact together_columnOf index

theorem apply {m m' : RowMapper} (twins : Twins n m m') (stateless : m.Stateless) :
    TogetherOver l R (· = ·) (m.apply h c) (m'.apply k d) := by
  cases m <;> cases m' <;> try cases twins
  case single.single s mapper index s' mapper' index' =>
    obtain ⟨_, same, rfl⟩ := RowMapper.single.inj twins
    show TogetherOver l R (· = ·) (mapper.apply h c index) (mapper'.apply k d index)
    rw [← ColumnMapper.apply_twin k d stateless same]
    exact coupled.applies.column mapper stateless index
  case reflective.reflective m m' =>
    refine TogetherOver.get.bind_same fun row => ?_
    have kin : Twins n m m' := RowMapper.reflective.inj twins
    refine (TogetherOver.lift (coupled.parallel.specialize kin _)).bind fun p p' plans => ?_
    rw [← Plan.apply_twin k d plans.2 plans.1]
    exact coupled.applies.plan plans.2
  case planned.planned s plan s' plan' =>
    have same : Twins n plan plan' := (RowMapper.planned.inj twins).2
    show TogetherOver l R (· = ·) (plan.apply h c) (plan'.apply k d)
    rw [← Plan.apply_twin k d stateless same]
    exact coupled.applies.plan stateless
  case custom.custom m m' =>
    have same : Twins n m m' := RowMapper.custom.inj twins
    show TogetherOver l R (· = ·) (m.run h c (fun t row => h.row c t row) m.spec.index)
      (m'.run k d (fun t row => k.row d t row) m'.spec.index)
    rw [← CustomMapper.run_twin k d _ stateless same, ← (CustomMapper.twins_spec same).1]
    exact coupled.conversant.run coupled.conversant.rowOver (.of_eq m.spec.behaviour)
      (MapperSpec.not_count stateless) _
  case misplaced.misplaced => exact .throw _

theorem specializeCustom {m m' : CustomMapper} (twins : Twins n m m') (stateless : m.spec.stateless = true)
    (columns : List String) :
    Together l R (fun a b => Twins n a b ∧ a.spec.stateless = true) (m.specialize columns)
      (m'.specialize columns) := by
  obtain ⟨spec, step, _, serial⟩ := CustomMapper.twins_spec twins
  have named : m.ownName = m'.ownName := by simp only [CustomMapper.ownName, spec]
  unfold CustomMapper.specialize
  rw [← spec, ← step, named]
  split
  · exact .pure ⟨twins, stateless⟩
  · exact .pure ⟨twins, stateless⟩
  · exact (coupled.toIdling.note _ _).bind fun _ _ _ => .pure ⟨twins, stateless⟩
  · next _ _ hands _ =>
    refine (coupled.toIdling.note _ _).bind fun _ _ _ => .pure ⟨?_, MapperSpec.stateless_other stateless hands⟩
    simp only [Twins, Serial.upTo, serial]

theorem specialize {m m' : RowMapper} (twins : Twins n m m') (stateless : m.Stateless)
    (columns : List String) :
    Together l R (fun a b => Twins n a b ∧ a.Stateless) (m.specialize h c columns)
      (m'.specialize k d columns) := by
  cases m <;> cases m' <;> try cases twins
  case reflective.reflective m m' =>
    have kin : Twins n m m' := RowMapper.reflective.inj twins
    refine (coupled.parallel.specialize kin columns).bind fun p p' plans => ?_
    refine coupled.toIdling.fresh.bind fun s t serials => .pure ⟨?_, plans.2⟩
    have same : Serial.upTo n p = Serial.upTo n p' := plans.1
    simp only [Twins, Serial.upTo, serials] at same ⊢
    rw [same]
  case custom.custom m m' =>
    have same : Twins n m m' := RowMapper.custom.inj twins
    refine (coupled.specializeCustom same stateless columns).bind fun a b both => .pure ⟨?_, both.2⟩
    exact congrArg RowMapper.custom both.1
  all_goals exact .pure ⟨twins, stateless⟩

theorem mapRows {m m' : RowMapper} (twins : Twins n m m') (stateless : m.Stateless) {o o' : Option RowMapper}
    (found : RowsFound n o o') (rows : List Row) :
    Together l R (· = ·) (mapRows h c o m rows) (mapRows k d o' m' rows) := by
  induction rows generalizing o o' with
  | nil => exact .pure rfl
  | cons row rows ih =>
    have rest : ∀ a b : RowMapper, Twins n a b ∧ a.Stateless → Together l R (· = ·)
        (do let r ← (a.apply h c).run row
            return r.1 :: (← RowMapping.mapRows h c (some a) m rows) : MappingM (List Value))
        (do let r ← (b.apply k d).run row
            return r.1 :: (← RowMapping.mapRows k d (some b) m' rows) : MappingM (List Value)) := by
      intro a b ready
      refine (coupled.apply ready.1 ready.2 row).bind fun r r' same => ?_
      refine (ih (foundAs_some ready.1 ready.2)).bind fun vs vs' more => .pure ?_
      rw [same.1, more]
    unfold RowMapping.mapRows
    rcases found.cases with ⟨rfl, rfl⟩ | ⟨a, b, rfl, rfl, ready⟩
    · exact (coupled.specialize twins stateless row.columns).bind rest
    · exact (Together.pure (S := fun a b => Twins n a b ∧ a.Stateless) ready).bind rest

theorem requireRow (key : Descriptor) :
    Together l R (fun m m' => Twins n m m' ∧ m.Stateless) (Registry.requireRow h c key)
      (Registry.requireRow k d key) := by
  refine (coupled.findRow key).bind fun o p found => ?_
  rcases found.cases with ⟨rfl, rfl⟩ | ⟨m, m', rfl, rfl, same⟩
  · exact .throw _
  · exact .pure same

theorem mapOne (key : Descriptor) (row : Row) :
    Together l R (· = ·) (Session.mapOne h c key row) (Session.mapOne k d key row) := by
  refine (coupled.requireRow key).bind fun m m' both => ?_
  rw [StateT.run'_eq, StateT.run'_eq, map_eq_pure_bind, map_eq_pure_bind]
  exact (coupled.apply both.1 both.2 row).bind fun _ _ same => .pure same.1

theorem mapMany (key : Descriptor) (rows : List Row) :
    Together l R (· = ·) (Session.mapMany h c key rows) (Session.mapMany k d key rows) :=
  (coupled.requireRow key).bind fun _ _ both => coupled.mapRows both.1 both.2 foundAs_none rows

theorem hookColumn (type : TypeExpr) (index : Int) (row : Row) :
    Together l R (· = ·)
      (do match ← Registry.findColumn h c (.of type) with
          | some m => (m.apply h c index).run row
          | none => return (.text "no mapper", row))
      (do match ← Registry.findColumn k d (.of type) with
          | some m => (m.apply k d index).run row
          | none => return (.text "no mapper", row)) := by
  refine (coupled.parallel.column (.of type)).bind fun o p ⟨twins, good⟩ => ?_
  rcases twins.cases with ⟨rfl, rfl⟩ | ⟨m, m', rfl, rfl, same⟩
  · exact .pure rfl
  · dsimp only
    rw [← ColumnMapper.apply_twin k d (good m rfl) same]
    exact (coupled.applies.column m (good m rfl) index row).mono fun _ _ same => Prod.ext same.1 same.2

theorem hookRow (type : TypeExpr) (row : Row) :
    Together l R (· = ·)
      (do match ← Registry.findRow h c (.of type) with
          | some m => (m.apply h c).run row
          | none => return (.text "no mapper", row))
      (do match ← Registry.findRow k d (.of type) with
          | some m => (m.apply k d).run row
          | none => return (.text "no mapper", row)) := by
  refine (coupled.findRow (.of type)).bind fun o p found => ?_
  rcases found.cases with ⟨rfl, rfl⟩ | ⟨m, m', rfl, rfl, twins, own⟩
  · exact .pure rfl
  · exact (coupled.apply twins own row).mono fun _ _ same => Prod.ext same.1 same.2

end Coupled
end RowMapping
