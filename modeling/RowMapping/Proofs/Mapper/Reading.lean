import RowMapping.Proofs.Convert.Each
import RowMapping.Proofs.Convert.Nulls
import RowMapping.Proofs.Mapper.Plans

/-! What a plan reads. Applied to a row, the plans that the library's column mappers serve come to what
is said here without states: an object or null, and whether the value read last was null. -/
namespace RowMapping

open MappingM Reading

theorem reported_error_ne_ok {target : ClassRef} {v u : Value} (r : Rejection) :
    reported target v (.error r) ≠ .ok u := by
  unfold reported
  split
  · contradiction
  · nofun
  · split <;> nofun

theorem collected_ne_null (container : Builtin) (vs : List Value) : collected container vs ≠ .null := by
  unfold collected
  split <;> nofun

theorem contain_ok {container : Builtin} {made : List (Except Failure Value)} {u : Value}
    (filled : contain container made = .ok u) :
    ∃ vs, made.mapM (· >>= admitted container) = .ok vs ∧ u = collected container vs := by
  unfold contain at filled
  cases all : made.mapM (· >>= admitted container) with
  | error e =>
    rw [all] at filled
    contradiction
  | ok vs =>
    rw [all] at filled
    exact ⟨vs, rfl, (Except.ok.inj filled).symm⟩

theorem contain_map (container : Builtin) (f : Value → Except Failure Value) (items : List Value) :
    contain container (items.map f) =
      (items.mapM fun item => f item >>= admitted container).map (collected container) := by
  unfold contain
  rw [List.mapM_map]
  rfl

theorem admitted_error {container : Builtin} {v : Value} {e : Failure} (failed : admitted container v = .error e) :
    e = .misuse ∧ v.hashable = false := by
  unfold admitted at failed
  split at failed
  · next refused =>
    rw [Bool.and_eq_true, Bool.not_eq_true'] at refused
    exact ⟨(Except.error.inj failed).symm, refused.2⟩
  · cases failed

theorem contain_error {container : Builtin} {f : Value → Except Failure Value} {items : List Value} {e : Failure}
    (failed : contain container (items.map f) = .error e) :
    ∃ item ∈ items, f item = .error e ∨ ∃ v, f item = .ok v ∧ v.hashable = false ∧ e = .misuse := by
  rw [contain_map] at failed
  cases all : items.mapM fun item => f item >>= admitted container with
  | ok vs =>
    rw [all] at failed
    cases failed
  | error e' =>
    rw [all] at failed
    cases failed
    obtain ⟨item, member, refused⟩ := mapM_error all
    refine ⟨item, member, ?_⟩
    cases made : f item with
    | error e' =>
      rw [made] at refused
      exact .inl refused
    | ok v =>
      rw [made] at refused
      obtain ⟨rfl, unhashed⟩ := admitted_error refused
      exact .inr ⟨v, rfl, unhashed, rfl⟩

def ColumnMapper.convert (s : Schema) (index : Int) (v : Value) : ColumnMapper → Except Failure Value
  | .value _ target => convertTo s target v
  | .array _ container _ element =>
    if v.isNull then .ok v
    else match arrayItems? v with
      | some items => contain container (items.map (convertTo s element))
      | none => .error (.notArray index v.classOf.name)
  | .raw => .ok v
  | .custom _ | .misplaced _ => .error .misuse

def Row.marks (row : Row) : Option String → Except Failure Bool
  | none => .ok false
  | some marker =>
    match Row.named? row.columns marker with
    | none => .error (.missingColumn marker row.columns)
    | some i =>
      match row.values[i]? with
      | some v => .ok v.isNull
      | none => .error .indexRange

/-- A property whose value is null, or which cannot be null while the value read last was. -/
def Property.lacks (p : Property) (v : Value) (last : Bool) : Bool := v.isNull || (p.primitive && last)

mutual

/-- The object of a plan, or null, and whether the value read last was null. -/
def Plan.read (s : Schema) (row : Row) : Plan → Except Failure (Value × Bool)
  | .mk table entries =>
    match row.marks table.nullMarker with
    | .error e => .error e
    | .ok true => .ok (.null, true)
    | .ok false =>
      match readEntries s row table entries table.create false with
      | .error e => .error e
      | .ok (none, last) => .ok (.null, last)
      | .ok (some keywords, last) => (table.build s keywords).map fun v => (v, last)

def readEntries (s : Schema) (row : Row) (table : PropertyTable) :
    List (Property × PlanSource) → Keywords → Bool → Except Failure (Option Keywords × Bool)
  | [], keywords, last => .ok (some keywords, last)
  | (p, source) :: rest, keywords, _ =>
    match source.read s row with
    | .error e => .error e
    | .ok (v, last) =>
      if p.propagatesNull && p.lacks v last then .ok (none, last)
      else readEntries s row table rest (if v.isNull then keywords else table.set keywords p v) last

def PlanSource.read (s : Schema) (row : Row) : PlanSource → Except Failure (Value × Bool)
  | .column mapper index =>
    match row.values[index]? with
    | some v => (mapper.convert s index v).map fun u => (u, v.isNull)
    | none => .error .indexRange
  | .nested plan => plan.read s row

end

theorem PlanSource.read_column {s : Schema} {row : Row} {mapper : ColumnMapper} {index : Nat}
    {u : Value} {last : Bool} : PlanSource.read s row (.column mapper index) = .ok (u, last) ↔
      ∃ v, row.values[index]? = some v ∧ mapper.convert s index v = .ok u ∧ v.isNull = last := by
  simp only [PlanSource.read]
  cases present : row.values[index]? with
  | none => simp
  | some v =>
    cases converted : mapper.convert s index v with
    | error r => simp [Except.map, converted]
    | ok w => simp [Except.map, converted]

/-! ### Induction on plans -/

theorem Plan.sizeOf_nested_lt {table : PropertyTable} {es : List (Property × PlanSource)}
    {p : Property} {q : Plan} (member : (p, PlanSource.nested q) ∈ es) :
    sizeOf q < sizeOf (Plan.mk table es) := by
  have inside := List.sizeOf_lt_of_mem member
  simp only [Prod.mk.sizeOf_spec, PlanSource.nested.sizeOf_spec] at inside
  simp only [Plan.mk.sizeOf_spec]
  omega

theorem Plan.induct_nested {P : Plan → Prop}
    (step : ∀ table es, (∀ p q, (p, PlanSource.nested q) ∈ es → P q) → P (.mk table es))
    (plan : Plan) : P plan := by
  cases plan with
  | mk table es => exact step table es fun _ q _ => Plan.induct_nested step q
termination_by sizeOf plan
decreasing_by exact Plan.sizeOf_nested_lt ‹_›

/-! ### Readings of a row -/

/-- Reading the row yields `a` and leaves the row as `after`, in every world with the classes of `s`,
which stays as it is. -/
def Reads (s : Schema) {α : Type} (x : Reading α) (row : Row) (a : α) (after : Row) : Prop :=
  ∀ w : World, w.schema = s → (x.run row).run w = (.ok (a, after), w)

section Rules

variable {s : Schema} {α β : Type} {row after : Row}

theorem reads_pure (a : α) (row : Row) : Reads s (pure a) row a row := fun _ _ => rfl

theorem reads_bind {x : Reading α} {f : α → Reading β} {a : α} {b : β} {middle : Row}
    (first : Reads s x row a middle) (next : Reads s (f a) middle b after) :
    Reads s (x >>= f) row b after :=
  fun w schema => (run_bind_ok (first w schema)).trans (next w schema)

theorem reads_schema {f : World → Reading α} {a : α}
    (next : ∀ w : World, w.schema = s → Reads s (f w) row a after) :
    Reads s (getThe World >>= f) row a after := fun w schema => next w schema w schema

theorem reads_lift {e : Except Failure α} {a : α} (ok : e = .ok a) (row : Row) :
    Reads s (liftM e : Reading α) row a row := by
  subst ok
  exact reads_pure a row

theorem reads_column {index : Nat} {v : Value} (present : row.values[index]? = some v) :
    Reads s (column index) row v { row with wasNull := v.isNull } := by
  have got : row.get index = .ok (v, { row with wasNull := v.isNull }) := by
    have natural : ¬ (index : Int) < 0 := by omega
    simp [Row.get, natural, present]
  exact reads_bind (reads_pure row row) (reads_bind (reads_lift got row) (reads_pure v _))

theorem reads_wasNull : Reads s wasNull row row.wasNull row := reads_pure _ row

theorem reads_build {table : PropertyTable} {keywords : Keywords} {v : Value}
    (built : table.build s keywords = .ok v) (row : Row) :
    Reads s (getThe World >>= fun w => (liftM (table.build w.schema keywords) : Reading Value))
      row v row :=
  reads_schema fun _ schema => reads_lift (schema ▸ built) row

end Rules

theorem ColumnMapper.apply_reads {s : Schema} (row : Row) {index : Nat} {v u : Value}
    {m : ColumnMapper} (present : row.values[index]? = some v)
    (converted : m.convert s index v = .ok u) (h : Hooks) (c : Context) :
    Reads s (m.apply h c index) row u { row with wasNull := v.isNull } := by
  have value := reads_column (s := s) present
  refine reads_schema fun w schema => ?_
  cases m with
  | value origin target =>
    refine reads_bind value (reads_lift ?_ _)
    rw [schema]
    exact converted
  | array serial container origin element =>
    refine reads_bind value ?_
    simp only [convert] at converted
    split
    · next none =>
      rw [if_pos none] at converted
      cases converted
      exact reads_pure v _
    · next some =>
      rw [if_neg some] at converted
      cases known : arrayItems? v with
      | none =>
        rw [known] at converted
        contradiction
      | some items =>
        rw [known] at converted
        refine reads_lift ?_ _
        rw [schema]
        simpa only [known] using converted
  | raw =>
    cases converted
    exact value
  | custom f => contradiction
  | misplaced m => contradiction

theorem isNullMarked_reads (s : Schema) (row : Row) {marker : Option String} {b : Bool}
    (marked : row.marks marker = .ok b) :
    ∃ last, Reads s (isNullMarked marker) row b { row with wasNull := last } ∧
      (b = true → last = true) := by
  cases marker with
  | none =>
    cases marked
    exact ⟨row.wasNull, reads_pure _ _, by rintro ⟨⟩⟩
  | some marker =>
    simp only [Row.marks] at marked
    split at marked
    · contradiction
    · next i named =>
      split at marked
      · next v present =>
        cases marked
        refine ⟨v.isNull, reads_bind (reads_pure row row) ?_, id⟩
        simp only [named]
        exact reads_bind (reads_column present) reads_wasNull
      · contradiction

/-- Both leave the row as it was, but for whether the value read last was null. -/
def ReadsAs (s : Schema) (row : Row) {α : Type} (x : Reading α) (a : α) (last : Bool) : Prop :=
  ∀ before, Reads s x { row with wasNull := before } a { row with wasNull := last }

theorem readsAs_entries {s : Schema} {row : Row} {h : Hooks} {c : Context} {table : PropertyTable}
    {es : List (Property × PlanSource)}
    (each : ∀ e ∈ es, ∀ v last, e.2.read s row = .ok (v, last) →
      ReadsAs s row (e.2.apply h c) v last) {keywords : Keywords} {before : Bool}
    {o : Option Keywords} {last : Bool}
    (read : readEntries s row table es keywords before = .ok (o, last)) :
    Reads s (applyEntries h c table es keywords) { row with wasNull := before } o
      { row with wasNull := last } := by
  induction es generalizing keywords before with
  | nil =>
    cases read
    exact reads_pure _ _
  | cons e es ih =>
    obtain ⟨p, source⟩ := e
    simp only [readEntries] at read
    split at read
    · contradiction
    · next v after found =>
      have first := each _ List.mem_cons_self v after found before
      refine reads_bind first (reads_bind reads_wasNull ?_)
      have others := fun e he => each e (List.mem_cons_of_mem _ he)
      show Reads s (if (p.propagatesNull && p.lacks v after) = true then _ else _) _ _ _
      by_cases stops : (p.propagatesNull && p.lacks v after) = true
      · rw [if_pos stops] at read ⊢
        cases read
        exact reads_pure _ _
      · rw [if_neg stops] at read ⊢
        exact ih others read

/-- Every entry but the first hides what was read before it. -/
theorem readEntries_before {s : Schema} {row : Row} {table : PropertyTable}
    {es : List (Property × PlanSource)} (reads : es ≠ []) (keywords : Keywords) (a b : Bool) :
    readEntries s row table es keywords a = readEntries s row table es keywords b := by
  cases es with
  | nil => exact absurd rfl reads
  | cons e es => rfl

theorem PlanSource.apply_reads {s : Schema} {row : Row} {n : Nat} {h : Hooks} {c : Context}
    {source : PlanSource} (fit : source.Fit n)
    (nested : ∀ q, source = .nested q → q.entries ≠ [] → ∀ v last, q.read s row = .ok (v, last) →
      ReadsAs s row (q.apply h c) v last) {v : Value} {last : Bool}
    (read : source.read s row = .ok (v, last)) : ReadsAs s row (source.apply h c) v last := by
  cases fit with
  | @column mapper index own bound =>
    obtain ⟨u, present, converted, rfl⟩ := read_column.mp read
    intro before
    exact ColumnMapper.apply_reads { row with wasNull := before } present converted h c
  | nested fits reads => exact nested _ rfl reads v last read

/-- A plan without entries leaves the reading of its marker as the last one, in any other the last entry
read is. -/
theorem Plan.apply_reads {s : Schema} {row : Row} {n : Nat} (h : Hooks) (c : Context) {plan : Plan}
    (fit : plan.Fit n) {v : Value} {last : Bool} (read : plan.read s row = .ok (v, last))
    (before : Bool) :
    ∃ after, Reads s (plan.apply h c) { row with wasNull := before } v
        { row with wasNull := after } ∧ (plan.entries ≠ [] → after = last) := by
  -- On the nested plans, for any history of the row that they are applied to.
  induction plan using Plan.induct_nested generalizing v last before with
  | step table es ih =>
  have each : ∀ e ∈ es, ∀ v last, e.2.read s row = .ok (v, last) →
      ReadsAs s row (e.2.apply h c) v last := by
    intro e he v last found
    obtain ⟨p, source⟩ := e
    obtain ⟨_, _, fits⟩ := fit
    refine PlanSource.apply_reads (fits _ he) ?_ found
    rintro q rfl reads u end' read before
    cases fits _ he with
    | nested fitting _ =>
      obtain ⟨after, result, same⟩ := ih p q he fitting read before
      rw [same reads] at result
      exact result
  simp only [Plan.read] at read
  split at read
  · contradiction
  · next marked =>
    obtain ⟨after, result, null⟩ := isNullMarked_reads s { row with wasNull := before } marked
    cases read
    refine ⟨after, reads_bind result ?_, fun _ => null rfl⟩
    exact reads_pure _ _
  · next unmarked =>
    obtain ⟨after, result, _⟩ := isNullMarked_reads s { row with wasNull := before } unmarked
    by_cases reads : es = []
    · subst reads
      simp only [readEntries] at read
      cases built : table.build s table.create with
      | error e => rw [built] at read; contradiction
      | ok u =>
        rw [built] at read
        cases read
        refine ⟨after, reads_bind result ?_, fun some => absurd rfl some⟩
        exact reads_bind (reads_pure _ _) (reads_build built _)
    · -- What the marker left behind does not show after the first entry.
      rw [readEntries_before reads _ _ after] at read
      refine ⟨last, reads_bind result ?_, fun _ => rfl⟩
      split at read
      · contradiction
      · next stopped =>
        cases read
        exact reads_bind (readsAs_entries each stopped) (reads_pure _ _)
      · next keywords end' passed =>
        cases built : table.build s keywords with
        | error e => rw [built] at read; contradiction
        | ok u =>
          rw [built] at read
          cases read
          exact reads_bind (readsAs_entries each passed) (reads_build built _)

end RowMapping
