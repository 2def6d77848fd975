import RowMapping.Proofs.Mapper.Reading

/-! Mappers that differ in serial numbers only. The numbers below some bound tell mappers apart, from
the bound on they do not. A mapper that keeps no state maps no matter what its numbers are. -/
namespace RowMapping

open MappingM

/-- What bears serial numbers, with those from a bound on taken for one. -/
class Serial (α : Type) where
  upTo : Nat → α → α

open Serial

/-- They differ in no more than serial numbers from `n` on. -/
def Twins (n : Nat) {α : Type} [Serial α] (a b : α) : Prop := upTo n a = upTo n b

def FoundTwins (n : Nat) {α : Type} [Serial α] (a b : Option α) : Prop :=
  a.map (upTo n) = b.map (upTo n)

section Twins

variable {n : Nat} {α : Type} [Serial α]

theorem Twins.refl (a : α) : Twins n a a := rfl

theorem FoundTwins.refl (a : Option α) : FoundTwins n a a := rfl

theorem FoundTwins.isSome_eq {a b : Option α} (twins : FoundTwins n a b) : a.isSome = b.isSome := by
  simpa using congrArg Option.isSome twins

theorem foundTwins_some {a b : α} (twins : Twins n a b) : FoundTwins n (some a) (some b) :=
  congrArg some twins

theorem FoundTwins.cases {a b : Option α} (twins : FoundTwins n a b) :
    (a = none ∧ b = none) ∨ ∃ x y, a = some x ∧ b = some y ∧ Twins n x y := by
  cases a <;> cases b
  · exact .inl ⟨rfl, rfl⟩
  · contradiction
  · contradiction
  · exact .inr ⟨_, _, rfl, rfl, Option.some.inj twins⟩

end Twins

instance : Serial ReflectiveMapper where
  upTo n m := { m with serial := min m.serial n }

instance : Serial CustomMapper where
  upTo n m := { m with serial := min m.serial n }

instance : Serial PropertyTable where
  upTo n t := { t with serial := min t.serial n }

instance : Serial ColumnMapper where
  upTo n
    | .value origin target => .value (min origin n) target
    | .array serial container origin element => .array (min serial n) container (min origin n) element
    | .raw => .raw
    | .custom m => .custom (upTo n m)
    | .misplaced m => .misplaced (upTo n m)

mutual

def Plan.upTo (n : Nat) : Plan → Plan
  | .mk table entries => .mk (Serial.upTo n table) (entriesUpTo n entries)

def entriesUpTo (n : Nat) : List (Property × PlanSource) → List (Property × PlanSource)
  | [] => []
  | (p, source) :: rest => (p, source.upTo n) :: entriesUpTo n rest

def PlanSource.upTo (n : Nat) : PlanSource → PlanSource
  | .column mapper index => .column (Serial.upTo n mapper) index
  | .nested plan => .nested (plan.upTo n)

end

instance : Serial Plan where
  upTo := Plan.upTo

instance : Serial RowMapper where
  upTo n
    | .single serial mapper index => .single (min serial n) (upTo n mapper) index
    | .reflective m => .reflective (upTo n m)
    | .planned serial plan => .planned (min serial n) (upTo n plan)
    | .custom m => .custom (upTo n m)
    | .misplaced m => .misplaced (upTo n m)

/-! ### Mappers without state -/

mutual

/-- Neither the mapper nor one that it hands over to counts its calls. -/
def MapperSpec.stateless : MapperSpec → Bool
  | ⟨_, _, behaviour, _, _, handover⟩ =>
    (match behaviour with
      | .count => false
      | _ => true) && handoverStateless handover

def handoverStateless : Handover MapperSpec → Bool
  | .absent | .itself => true
  | .other spec => spec.stateless

end

def ColumnMapper.Stateless : ColumnMapper → Prop
  | .custom m => m.spec.stateless = true
  | _ => True

mutual

inductive Plan.Reads (P : ColumnMapper → Prop) : Plan → Prop
  | mk {table : PropertyTable} {entries : List (Property × PlanSource)} :
      (∀ e ∈ entries, PlanSource.Reads P e.2) → Plan.Reads P (.mk table entries)

inductive PlanSource.Reads (P : ColumnMapper → Prop) : PlanSource → Prop
  | column {mapper : ColumnMapper} {index : Nat} : P mapper → PlanSource.Reads P (.column mapper index)
  | nested {plan : Plan} : plan.Reads P → PlanSource.Reads P (.nested plan)

end

def RowMapper.Stateless : RowMapper → Prop
  | .single _ m _ => m.Stateless
  | .planned _ plan => plan.Reads ColumnMapper.Stateless
  | .custom m => m.spec.stateless = true
  | .reflective _ | .misplaced _ => True

theorem MapperSpec.not_count {spec : MapperSpec} (stateless : spec.stateless = true) :
    spec.behaviour ≠ .count := by
  obtain ⟨form, name, behaviour, index, returns, handover⟩ := spec
  rintro rfl
  simp [MapperSpec.stateless] at stateless

theorem MapperSpec.stateless_other {spec other : MapperSpec} (stateless : spec.stateless = true)
    (hands : spec.handover = .other other) : other.stateless = true := by
  obtain ⟨form, name, behaviour, index, returns, handover⟩ := spec
  cases hands
  simp only [MapperSpec.stateless, handoverStateless, Bool.and_eq_true] at stateless
  exact stateless.2

theorem PropertyTable.twins_properties {n : Nat} {t u : PropertyTable} (twins : Twins n t u) :
    t.properties = u.properties := by
  have properties := congrArg PropertyTable.properties (id twins : upTo n t = upTo n u)
  exact properties

/-! ### What does not depend on the numbers -/

section Application

variable (n : Nat) (h : Hooks) (c : Context)

theorem CustomMapper.run_numbered (delegate : TypeExpr → Reading Value) {m : CustomMapper}
    (counts : m.spec.behaviour ≠ .count) (index : Option Int) :
    (upTo n m).run h c delegate index = m.run h c delegate index := by
  obtain ⟨serial, step, wrapped, form, name, behaviour, own, returns, handover⟩ := m
  cases behaviour with
  | count => exact absurd rfl counts
  | const | raw | zero | tag | peek | wasNull | join | delegate | raise | written => rfl

theorem CustomMapper.run_upTo (delegate : TypeExpr → Reading Value) {m : CustomMapper}
    (stateless : m.spec.stateless = true) (index : Option Int) :
    (upTo n m).run h c delegate index = m.run h c delegate index :=
  run_numbered n h c delegate (MapperSpec.not_count stateless) index

theorem ColumnMapper.apply_upTo {m : ColumnMapper} (stateless : m.Stateless)
    (index : Int) : (upTo n m).apply h c index = m.apply h c index := by
  cases m with
  | custom f =>
    have same := fun delegate => CustomMapper.run_upTo n h c delegate stateless (some index)
    simp only [ColumnMapper.apply, upTo]
    exact congrArg (getThe World >>= ·) (funext fun _ => same _)
  | value | array | raw | misplaced => rfl

theorem entriesUpTo_eq (es : List (Property × PlanSource)) :
    entriesUpTo n es = es.map fun e => (e.1, e.2.upTo n) := by
  induction es with
  | nil => rfl
  | cons e es ih => simp [entriesUpTo, ih]

theorem applyEntries_upTo (table : PropertyTable)
    {es : List (Property × PlanSource)} (same : ∀ e ∈ es, (e.2.upTo n).apply h c = e.2.apply h c)
    (keywords : Keywords) :
    applyEntries h c (upTo n table) (entriesUpTo n es) keywords = applyEntries h c table es keywords := by
  induction es generalizing keywords with
  | nil => rfl
  | cons e es ih =>
    have rest := ih fun f hf => same f (List.mem_cons_of_mem _ hf)
    simp only [entriesUpTo, applyEntries, same e List.mem_cons_self, rest]
    rfl

theorem Plan.apply_upTo {plan : Plan}
    (stateless : plan.Reads ColumnMapper.Stateless) : (plan.upTo n).apply h c = plan.apply h c := by
  induction plan using Plan.induct_nested with
  | step table es ih =>
  obtain ⟨each⟩ := stateless
  have same : ∀ e ∈ es, (e.2.upTo n).apply h c = e.2.apply h c := by
    intro e he
    obtain ⟨p, source⟩ := e
    cases each _ he with
    | column own => exact ColumnMapper.apply_upTo n h c own _
    | nested reads => exact ih p _ he reads
  have rest : applyEntries h c (Serial.upTo n table) (entriesUpTo n es) (Serial.upTo n table).create =
      applyEntries h c table es table.create := applyEntries_upTo n h c table same table.create
  simp only [Plan.upTo, Plan.apply, rest]
  rfl

theorem Plan.reads_upTo {P : ColumnMapper → Prop} (same : ∀ m, P (Serial.upTo n m) ↔ P m) (plan : Plan) :
    (plan.upTo n).Reads P ↔ plan.Reads P := by
  induction plan using Plan.induct_nested with
  | step table es ih =>
  have each : ∀ e ∈ es, ((e.2.upTo n).Reads P ↔ e.2.Reads P) := by
    intro e he
    obtain ⟨p, source⟩ := e
    cases source with
    | column mapper index =>
      constructor
      · rintro ⟨own⟩
        exact .column ((same mapper).mp own)
      · rintro ⟨own⟩
        exact .column ((same mapper).mpr own)
    | nested q =>
      have inner := ih p q he
      constructor
      · intro reads
        cases reads with
        | nested reads => exact .nested (inner.mp reads)
      · intro reads
        cases reads with
        | nested reads => exact .nested (inner.mpr reads)
  constructor
  · rintro ⟨reads⟩
    refine .mk fun e he => (each e he).mp (reads (e.1, e.2.upTo n) ?_)
    rw [entriesUpTo_eq]
    exact List.mem_map_of_mem he
  · rintro ⟨reads⟩
    refine .mk fun e he => ?_
    rw [entriesUpTo_eq] at he
    obtain ⟨f, hf, rfl⟩ := List.mem_map.mp he
    exact (each f hf).mpr (reads f hf)

variable {n}

theorem Plan.Reads.twin {P : ColumnMapper → Prop} (same : ∀ m, P (Serial.upTo n m) ↔ P m) {p q : Plan}
    (reads : p.Reads P) (twins : Twins n p q) : q.Reads P := by
  have numbered : p.upTo n = q.upTo n := twins
  rw [← Plan.reads_upTo n same q, ← numbered]
  exact (Plan.reads_upTo n same p).mpr reads

theorem Plan.Reads.mono {P Q : ColumnMapper → Prop} (weaker : ∀ m, P m → Q m) {p : Plan}
    (reads : p.Reads P) : p.Reads Q := by
  induction p using Plan.induct_nested with
  | step table es ih =>
  obtain ⟨each⟩ := reads
  refine .mk fun e he => ?_
  obtain ⟨p, source⟩ := e
  cases each _ he with
  | column own => exact .column (weaker _ own)
  | nested reads => exact .nested (ih p _ he reads)

theorem ColumnMapper.stateless_upTo (n : Nat) (m : ColumnMapper) :
    (upTo n m).Stateless ↔ m.Stateless := by
  cases m <;> exact Iff.rfl

theorem Plan.apply_twin {p q : Plan}
    (stateless : p.Reads ColumnMapper.Stateless) (twins : Twins n p q) : p.apply h c = q.apply h c := by
  have numbered : p.upTo n = q.upTo n := twins
  have other := stateless.twin (ColumnMapper.stateless_upTo n) twins
  rw [← Plan.apply_upTo n h c stateless, numbered, Plan.apply_upTo n h c other]

end Application
end RowMapping
