import RowMapping.Proofs.Mapper.Reading
import RowMapping.Proofs.Schema.Keywords

/-! When an object is null, said of its plan and a row. An object is null where its marked column is, or
where a property that propagates is taken for null. For a sub-object that is more than being null: under
a property of a type that cannot be null, the value read last counts. -/
namespace RowMapping

inductive Plan.Contains : Plan → Plan → Prop
  | itself (p : Plan) : Contains p p
  | nested {p q r : Plan} {prop : Property} : (prop, .nested q) ∈ p.entries → Contains q r →
      Contains p r

def Plan.Calls (s : Schema) (row : Row) (plan : Plan) (keywords : Keywords) : Prop :=
  row.marks plan.nullMarker = .ok false ∧ ∃ last, readEntries s row plan.table plan.entries
    plan.table.create false = .ok (some keywords, last)

def PlanSource.IsNull (s : Schema) (row : Row) : PlanSource → Prop
  | .column _ index => row.values[index]? = some .null
  | .nested q => ∃ last, q.read s row = .ok (.null, last)

/-- What is taken for null without being it: a column whose value is converted to null, and under a
property that cannot be null, a sub-object that was read up to a null. -/
def PlanSource.Mistaken (s : Schema) (row : Row) (p : Property) : PlanSource → Prop
  | .column mapper index => ∃ v, row.values[index]? = some v ∧ v ≠ .null ∧
      mapper.convert s index v = .ok .null
  | .nested q => p.primitive = true ∧ ∃ v, v ≠ .null ∧ q.read s row = .ok (v, true)

namespace Plan

variable (s : Schema) (row : Row) (plan : Plan)

/-- The marked column is null, or a property that propagates is. -/
def Absent : Prop :=
  row.marks plan.nullMarker = .ok true ∨
    ∃ e ∈ plan.entries, e.1.propagatesNull = true ∧ e.2.IsNull s row

/-- A property that propagates is taken for null without being it. -/
def Dropped : Prop := ∃ e ∈ plan.entries, e.1.propagatesNull = true ∧ e.2.Mistaken s row e.1

/-- A keyword of the constructor: a property with its value, which is not null, or null for a slot
that no property sets. -/
def Passes (k : String) (u : Value) : Prop :=
  (∃ e ∈ plan.entries, e.1.name = k ∧ u ≠ .null ∧ ∃ last, e.2.read s row = .ok (u, last)) ∨
    k ∈ plan.table.slots ∧ u = .null ∧
      ∀ e ∈ plan.entries, e.1.name = k → ∃ last, e.2.read s row = .ok (.null, last)

/-- The columns of the plan itself convert, its marker names a column, and its constructor, if it is
called, does not raise. -/
structure SmoothHere : Prop where
  converts : ∀ p mapper index v, (p, .column mapper index) ∈ plan.entries →
    row.values[index]? = some v → ∃ u, mapper.convert s index v = .ok u
  named : ∀ marker, plan.nullMarker = some marker → ∃ i, Row.named? row.columns marker = some i
  constructs : ∀ keywords, plan.Calls s row keywords → ∃ v, plan.table.build s keywords = .ok v

def Smooth : Prop := ∀ q, plan.Contains q → q.SmoothHere s row

end Plan

namespace Plan

variable {s : Schema} {row : Row}

theorem Smooth.nested {plan q : Plan} {p : Property} (smooth : plan.Smooth s row)
    (member : (p, .nested q) ∈ plan.entries) : q.Smooth s row :=
  fun r inside => smooth r (.nested member inside)

theorem Fit.entries {n : Nat} {plan : Plan} (fit : plan.Fit n) : ∀ e ∈ plan.entries, e.2.Fit n := by
  obtain ⟨_, _, fits⟩ := fit
  exact fits

theorem Fit.distinct {n : Nat} {plan : Plan} (fit : plan.Fit n) :
    (plan.entries.map (·.1.name)).Nodup := by
  obtain ⟨_, distinct, _⟩ := fit
  exact distinct

theorem Fit.regular {n : Nat} {plan : Plan} (fit : plan.Fit n) : plan.table.Regular := by
  obtain ⟨regular, _, _⟩ := fit
  exact regular

theorem Fit.nested {n : Nat} {plan q : Plan} {p : Property} (fit : plan.Fit n)
    (member : (p, .nested q) ∈ plan.entries) : q.Fit n := by
  cases fit.entries _ member with
  | nested fits _ => exact fits

theorem Contains.inherits {P : Plan → Prop} {plan q : Plan} (inside : plan.Contains q)
    (handed : ∀ {p q : Plan} {prop : Property}, P p → (prop, .nested q) ∈ p.entries → P q)
    (first : P plan) : P q := by
  induction inside with
  | itself p => exact first
  | nested member _ ih => exact ih (handed first member)

end Plan

section Entries

variable {s : Schema} {row : Row} {table : PropertyTable} {es : List (Property × PlanSource)}

def given (s : Schema) (row : Row) (table : PropertyTable) (e : Property × PlanSource) :
    Option (String × Value) :=
  match e.2.read s row with
  | .ok (v, _) => if v.isNull then none else some (table.keyOf e.1.name, v)
  | .error _ => none

theorem given_eq_some {e : Property × PlanSource} {k : String} {u : Value} :
    given s row table e = some (k, u) ↔
      table.keyOf e.1.name = k ∧ u ≠ .null ∧ ∃ last, e.2.read s row = .ok (u, last) := by
  unfold given
  rcases e.2.read s row with r | ⟨v, last⟩
  · simp
  · by_cases none : v.isNull = true
    · have null := Value.isNull_iff.mp none
      subst null
      simp [Value.isNull, eq_comm]
    · have some : v ≠ .null := fun null => none (Value.isNull_iff.mpr null)
      simp only [none, Bool.false_eq_true, if_false, Option.some.injEq, Prod.mk.injEq, Except.ok.injEq,
        exists_eq_right']
      constructor
      · rintro ⟨key, rfl⟩
        exact ⟨key, some, rfl⟩
      · rintro ⟨key, _, rfl⟩
        exact ⟨key, rfl⟩

def Stops (s : Schema) (row : Row) (e : Property × PlanSource) : Prop :=
  e.1.propagatesNull = true ∧ ∃ v last, e.2.read s row = .ok (v, last) ∧ e.1.lacks v last = true

def Readable (s : Schema) (row : Row) (es : List (Property × PlanSource)) : Prop :=
  ∀ e ∈ es, ∃ v last, e.2.read s row = .ok (v, last)

theorem readEntries_stops (readable : Readable s row es) (stops : ∃ e ∈ es, Stops s row e)
    (keywords : Keywords) (before : Bool) :
    ∃ last, readEntries s row table es keywords before = .ok (none, last) := by
  induction es generalizing keywords before with
  | nil =>
    obtain ⟨e, he, _⟩ := stops
    exact absurd he List.not_mem_nil
  | cons e es ih =>
    obtain ⟨p, source⟩ := e
    obtain ⟨v, last, read⟩ := readable _ List.mem_cons_self
    have others : Readable s row es := fun e he => readable e (List.mem_cons_of_mem _ he)
    simp only [readEntries]
    rw [read]
    by_cases here : (p.propagatesNull && p.lacks v last) = true
    · exact ⟨last, if_pos here⟩
    · simp only [here, Bool.false_eq_true, if_false]
      refine ih others ?_ _ _
      obtain ⟨e, he, propagates, u, after, found, lacks⟩ := stops
      rcases List.mem_cons.mp he with rfl | later
      · cases read.symm.trans found
        exact absurd (Bool.and_eq_true_iff.mpr ⟨propagates, lacks⟩) here
      · exact ⟨e, later, propagates, u, after, found, lacks⟩

theorem readEntries_passes (readable : Readable s row es) (passes : ∀ e ∈ es, ¬ Stops s row e)
    (keywords : Keywords) (before : Bool) :
    ∃ last, readEntries s row table es keywords before =
      .ok (some (keywords.putAll (es.filterMap (given s row table))), last) := by
  induction es generalizing keywords before with
  | nil => exact ⟨before, rfl⟩
  | cons e es ih =>
    obtain ⟨p, source⟩ := e
    obtain ⟨v, last, read⟩ := readable _ List.mem_cons_self
    have others : Readable s row es := fun e he => readable e (List.mem_cons_of_mem _ he)
    have goes : ¬ (p.propagatesNull && p.lacks v last) = true := by
      intro stops
      rw [Bool.and_eq_true] at stops
      exact passes _ List.mem_cons_self ⟨stops.1, v, last, read, stops.2⟩
    simp only [readEntries]
    rw [read]
    simp only [goes, Bool.false_eq_true, if_false]
    obtain ⟨after, rest⟩ := ih others (fun e he => passes e (List.mem_cons_of_mem _ he))
      (if v.isNull then keywords else table.set keywords p v) last
    refine ⟨after, rest.trans ?_⟩
    congr 3
    by_cases none : v.isNull = true
    · have nothing : given s row table (p, source) = Option.none := by
        simp [given, read, none]
      rw [List.filterMap_cons_none nothing, if_pos none]
    · have something : given s row table (p, source) = some (table.keyOf p.name, v) := by
        simp [given, read, none]
      rw [List.filterMap_cons_some something, if_neg none]
      rfl

end Entries

section Columns

variable {s : Schema} {m : ColumnMapper} {index : Int}

theorem ColumnMapper.Library.convert_null (own : m.Library) :
    m.convert s index .null = .ok .null := by
  cases m with
  | value origin target => rfl
  | array serial container origin element => rfl
  | raw => rfl
  | custom f => contradiction
  | misplaced m => contradiction

theorem convertTo_solid {target : ClassRef} {v u : Value} (some : v ≠ .null) (solid : ¬ v.Hollow)
    (converted : convertTo s target v = .ok u) : u ≠ .null := by
  unfold convertTo at converted
  split at converted
  · cases converted
    exact some
  · split at converted
    · next scalar _ =>
      have copy : ¬ (copied v).Hollow := by
        cases v <;> first | exact solid | (rintro ⟨_, _, _, ⟨⟩⟩)
      have outcome := Scalar.convert_solid scalar copy
      cases read : scalar.convert false (copied v) with
      | ok w =>
        rw [read] at converted outcome
        cases converted
        exact Scalar.solid_ok.mp outcome
      | error r =>
        rw [read] at converted
        exact absurd converted (reported_error_ne_ok r)
    · contradiction

theorem ColumnMapper.convert_solid {v u : Value} (some : v ≠ .null) (solid : ¬ v.Hollow)
    (converted : m.convert s index v = .ok u) : u ≠ .null := by
  cases m with
  | value origin target => exact convertTo_solid some solid converted
  | array serial container origin element =>
    have none : ¬ v.isNull = true := fun null => some (Value.isNull_iff.mp null)
    simp only [convert, none, Bool.false_eq_true, if_false] at converted
    split at converted
    · obtain ⟨us, _, rfl⟩ := contain_ok converted
      exact collected_ne_null container us
    · contradiction
  | raw =>
    cases converted
    exact some
  | custom f => contradiction
  | misplaced m => contradiction

end Columns

end RowMapping
