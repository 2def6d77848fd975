import RowMapping.Proofs.Mapper.Decided

/-! What a plan makes of a row: null, or what its constructor answers to the values that are not null. -/
namespace RowMapping

section Law

variable {s : Schema} {row : Row}

theorem stops_read {p : Property} {source : PlanSource} {v : Value} {last : Bool}
    (read : source.read s row = .ok (v, last)) :
    Stops s row (p, source) ↔
      p.propagatesNull = true ∧ (v = .null ∨ p.primitive = true ∧ last = true) := by
  refine and_congr_right fun _ => ?_
  constructor
  · rintro ⟨u, after, found, lacks⟩
    cases read.symm.trans found
    simpa [Property.lacks, Value.isNull_iff] using lacks
  · intro null
    exact ⟨v, last, read, by simpa [Property.lacks, Value.isNull_iff] using null⟩

theorem lacking_column {p : Property} {mapper : ColumnMapper} {index : Nat} (own : mapper.Library)
    {v : Value} {last : Bool} (read : PlanSource.read s row (.column mapper index) = .ok (v, last)) :
    v = .null ∨ p.primitive = true ∧ last = true ↔
      PlanSource.IsNull s row (.column mapper index) ∨
        PlanSource.Mistaken s row p (.column mapper index) := by
  obtain ⟨u, present, converted, rfl⟩ := PlanSource.read_column.mp read
  simp only [PlanSource.IsNull, PlanSource.Mistaken, present, Option.some.injEq]
  constructor
  · rintro (rfl | ⟨_, null⟩)
    · by_cases null : u = .null
      · exact .inl null
      · exact .inr ⟨u, rfl, null, converted⟩
    · exact .inl (Value.isNull_iff.mp null)
  · rintro (rfl | ⟨_, rfl, _, null⟩)
    · rw [own.convert_null] at converted
      cases converted
      exact .inl rfl
    · cases converted.symm.trans null
      exact .inl rfl

theorem lacking_nested {p : Property} {q : Plan} {v : Value} {last : Bool}
    (read : q.read s row = .ok (v, last)) :
    v = .null ∨ p.primitive = true ∧ last = true ↔
      PlanSource.IsNull s row (.nested q) ∨ PlanSource.Mistaken s row p (.nested q) := by
  simp only [PlanSource.IsNull, PlanSource.Mistaken]
  constructor
  · rintro (rfl | ⟨primitive, rfl⟩)
    · exact .inl ⟨last, read⟩
    · by_cases null : v = .null
      · subst null
        exact .inl ⟨true, read⟩
      · exact .inr ⟨primitive, v, null, read⟩
  · rintro (⟨after, found⟩ | ⟨primitive, u, _, found⟩)
    · cases read.symm.trans found
      exact .inl rfl
    · cases read.symm.trans found
      exact .inr ⟨primitive, rfl⟩

theorem stops_iff {e : Property × PlanSource} {n : Nat} (fit : e.2.Fit n)
    (readable : ∃ v last, e.2.read s row = .ok (v, last)) :
    Stops s row e ↔ e.1.propagatesNull = true ∧ (e.2.IsNull s row ∨ e.2.Mistaken s row e.1) := by
  obtain ⟨p, source⟩ := e
  obtain ⟨v, last, read⟩ := readable
  refine (stops_read read).trans (and_congr_right fun _ => ?_)
  cases fit with
  | column own bound => exact lacking_column own read
  | nested fits reads => exact lacking_nested read

namespace Plan

variable {plan : Plan} {n : Nat}

theorem SmoothHere.marks (smooth : plan.SmoothHere s row)
    (full : row.columns.length = row.values.length) : ∃ b, row.marks plan.nullMarker = .ok b := by
  cases marker : plan.nullMarker with
  | none => exact ⟨false, rfl⟩
  | some m =>
    obtain ⟨i, named⟩ := smooth.named m marker
    have bound : i < row.values.length := by
      rw [← full]
      exact (List.findIdx?_eq_some_iff_findIdx_eq.mp named).1
    exact ⟨(row.values[i]).isNull, by simp [Row.marks, named, bound]⟩

theorem some_stop_iff (fit : plan.Fit n) (readable : Readable s row plan.entries) :
    (∃ e ∈ plan.entries, Stops s row e) ↔
      (∃ e ∈ plan.entries, e.1.propagatesNull = true ∧ e.2.IsNull s row) ∨ plan.Dropped s row := by
  have each := fun e he => stops_iff (fit.entries e he) (readable e he)
  constructor
  · rintro ⟨e, he, stops⟩
    obtain ⟨propagates, null | mistaken⟩ := (each e he).mp stops
    · exact .inl ⟨e, he, propagates, null⟩
    · exact .inr ⟨e, he, propagates, mistaken⟩
  · rintro (⟨e, he, propagates, null⟩ | ⟨e, he, propagates, mistaken⟩)
    · exact ⟨e, he, (each e he).mpr ⟨propagates, .inl null⟩⟩
    · exact ⟨e, he, (each e he).mpr ⟨propagates, .inr mistaken⟩⟩

theorem read_null (fit : plan.Fit n) (marks : ∃ b, row.marks plan.nullMarker = .ok b)
    (readable : Readable s row plan.entries) (null : plan.Absent s row ∨ plan.Dropped s row) :
    ∃ last, plan.read s row = .ok (.null, last) := by
  obtain ⟨b, marked⟩ := marks
  obtain ⟨table, es⟩ := plan
  simp only [Plan.read]
  replace marked : row.marks table.nullMarker = .ok b := marked
  rw [marked]
  cases b with
  | true => exact ⟨true, rfl⟩
  | false =>
    have stop : ∃ e ∈ es, Stops s row e := by
      refine (some_stop_iff fit readable).mpr ?_
      rcases null with (marks | propagates) | dropped
      · cases marked.symm.trans marks
      · exact .inl propagates
      · exact .inr dropped
    obtain ⟨last, stopped⟩ := readEntries_stops readable stop table.create false
    replace stopped : readEntries s row table es table.create false = .ok (none, last) := stopped
    exact ⟨last, by simp only [stopped]⟩

def keywords (s : Schema) (row : Row) (plan : Plan) : Keywords :=
  plan.table.create.putAll (plan.entries.filterMap (given s row plan.table))

theorem calls_keywords (fit : plan.Fit n) (marks : ∃ b, row.marks plan.nullMarker = .ok b)
    (readable : Readable s row plan.entries) (some : ¬ (plan.Absent s row ∨ plan.Dropped s row)) :
    plan.Calls s row (plan.keywords s row) := by
  obtain ⟨b, marked⟩ := marks
  have unmarked : b = false := by
    cases b with
    | false => rfl
    | true => exact absurd (.inl (.inl marked)) some
  subst unmarked
  refine ⟨marked, readEntries_passes readable (fun e he stops => some ?_) _ _⟩
  rcases (some_stop_iff fit readable).mp ⟨e, he, stops⟩ with propagates | dropped
  · exact .inl (.inr propagates)
  · exact .inr dropped

theorem read_of_calls {ks : Keywords} {v : Value} (calls : plan.Calls s row ks)
    (built : plan.table.build s ks = .ok v) : ∃ last, plan.read s row = .ok (v, last) := by
  obtain ⟨unmarked, last, passed⟩ := calls
  obtain ⟨table, es⟩ := plan
  replace unmarked : row.marks table.nullMarker = .ok false := unmarked
  replace passed : readEntries s row table es table.create false = .ok (some ks, last) := passed
  replace built : table.build s ks = .ok v := built
  refine ⟨last, ?_⟩
  simp only [Plan.read]
  rw [unmarked]
  simp only [passed]
  rw [built]
  rfl

theorem SmoothHere.readable (here : plan.SmoothHere s row) (fit : plan.Fit row.values.length)
    (nested : ∀ p q, (p, .nested q) ∈ plan.entries → ∃ v last, q.read s row = .ok (v, last)) :
    Readable s row plan.entries := by
  intro e he
  obtain ⟨p, source⟩ := e
  cases fit.entries _ he with
  | @column mapper index own inside =>
    have present : row.values[index]? = some (row.values[index]) := List.getElem?_eq_getElem inside
    obtain ⟨u, converted⟩ := here.converts p mapper index _ he present
    exact ⟨u, _, PlanSource.read_column.mpr ⟨_, present, converted, rfl⟩⟩
  | nested fits reads => exact nested p _ he

theorem Smooth.read (full : row.columns.length = row.values.length)
    (fit : plan.Fit row.values.length) (smooth : plan.Smooth s row) :
    ∃ v last, plan.read s row = .ok (v, last) := by
  -- On the nested plans: a plan is read to the end once all of its sub-objects can be.
  induction plan using Plan.induct_nested with
  | step table es ih =>
  have here := smooth _ (.itself _)
  have marks := here.marks full
  have readable := here.readable fit fun p q he => ih p q he (fit.nested he) (smooth.nested he)
  by_cases null : Absent s row (.mk table es) ∨ Dropped s row (.mk table es)
  · obtain ⟨last, read⟩ := read_null fit marks readable null
    exact ⟨_, last, read⟩
  · have calls := calls_keywords fit marks readable null
    obtain ⟨v, built⟩ := here.constructs _ calls
    obtain ⟨last, read⟩ := read_of_calls calls built
    exact ⟨v, last, read⟩

theorem given_names (es : List (Property × PlanSource)) (table : PropertyTable) :
    ((es.filterMap (given s row table)).map (·.1)).Sublist (es.map fun e => table.keyOf e.1.name) := by
  induction es with
  | nil => exact .refl _
  | cons e es ih =>
    cases gives : given s row table e with
    | none =>
      rw [List.filterMap_cons_none gives]
      exact ih.cons _
    | some g =>
      obtain ⟨k, u⟩ := g
      obtain ⟨rfl, _⟩ := given_eq_some.mp gives
      rw [List.filterMap_cons_some gives]
      exact ih.cons_cons _

theorem given_distinct (fit : plan.Fit n) (own : ∀ name, plan.table.keyOf name = name) :
    ((plan.entries.filterMap (given s row plan.table)).map (·.1)).Nodup := by
  refine (given_names plan.entries plan.table).nodup ?_
  simp only [own]
  exact fit.distinct

theorem mem_keywords (fit : plan.Fit n) (readable : Readable s row plan.entries)
    (own : ∀ name, plan.table.keyOf name = name) {k : String} {u : Value} :
    (k, u) ∈ plan.keywords s row ↔ plan.Passes s row k u := by
  have slot : (k, u) ∈ plan.table.create ↔ k ∈ plan.table.slots ∧ u = .null := by
    simp [PropertyTable.create, eq_comm]
  have unset : k ∉ (plan.entries.filterMap (given s row plan.table)).map (·.1) ↔
      ∀ e ∈ plan.entries, e.1.name = k → ∃ last, e.2.read s row = .ok (.null, last) := by
    constructor
    · intro none e he name
      obtain ⟨v, last, read⟩ := readable e he
      by_cases null : v = .null
      · exact ⟨last, null ▸ read⟩
      · have gives : given s row plan.table e = some (k, v) :=
          given_eq_some.mpr ⟨(own _).trans name, null, last, read⟩
        exact absurd (List.mem_map.mpr ⟨_, List.mem_filterMap.mpr ⟨e, he, gives⟩, rfl⟩) none
    · intro nulls member
      obtain ⟨⟨k', v⟩, found, rfl⟩ := List.mem_map.mp member
      obtain ⟨e, he, gives⟩ := List.mem_filterMap.mp found
      obtain ⟨name, some, last, read⟩ := given_eq_some.mp gives
      obtain ⟨after, null⟩ := nulls e he ((own _).symm.trans name)
      cases read.symm.trans null
      exact some rfl
  unfold keywords Passes
  rw [Keywords.mem_putAll (given_distinct fit own), List.mem_filterMap, slot, unset, and_assoc]
  simp only [given_eq_some, own]

/-- What a plan makes of a row, in whatever order it reads its entries. -/
structure Lawful (s : Schema) (row : Row) (plan : Plan) : Prop where
  /-- Applied in any context, to the row with any history, it comes to one object or null. -/
  applied : ∃ u last, plan.read s row = .ok (u, last) ∧ ∀ h c before, ∃ after,
    Reads s (plan.apply h c) { row with wasNull := before } u { row with wasNull := after }
  null : plan.Absent s row ∨ plan.Dropped s row → ∃ last, plan.read s row = .ok (.null, last)
  /-- Otherwise it is what the constructor answers. -/
  object : ¬ (plan.Absent s row ∨ plan.Dropped s row) → ∃ ks u last, plan.Calls s row ks ∧
    plan.table.build s ks = .ok u ∧ plan.read s row = .ok (u, last) ∧
    ∀ k v, (k, v) ∈ ks ↔ plan.Passes s row k v
  reordered : ∀ es, plan.entries.Perm es →
    (plan.Absent s row ∨ plan.Dropped s row →
      ∃ last, Plan.read s row (.mk plan.table es) = .ok (.null, last)) ∧
    ∀ ks, plan.Calls s row ks → ∃ ks', Calls s row (.mk plan.table es) ks' ∧ ks'.Perm ks
  /-- Nothing is mistaken for null without sub-objects under properties that propagate and cannot be
  null, and without members that stand for null. -/
  undropped : (∀ p q, (p, .nested q) ∈ plan.entries → p.propagatesNull = true → p.primitive = false) →
    (∀ v ∈ row.values, ¬ v.Hollow) → ¬ plan.Dropped s row

theorem Calls.unique {ks : Keywords} (calls : plan.Calls s row ks) (fit : plan.Fit n)
    (readable : Readable s row plan.entries) :
    ¬ (plan.Absent s row ∨ plan.Dropped s row) ∧ ks = plan.keywords s row := by
  obtain ⟨unmarked, last, passed⟩ := calls
  have passes : ¬ ∃ e ∈ plan.entries, Stops s row e := by
    intro stops
    obtain ⟨after, stopped⟩ := readEntries_stops readable stops plan.table.create false
    cases passed.symm.trans stopped
  refine ⟨fun null => ?_, ?_⟩
  · rcases null with (marks | propagates) | dropped
    · cases unmarked.symm.trans marks
    · exact passes ((some_stop_iff fit readable).mpr (.inl propagates))
    · exact passes ((some_stop_iff fit readable).mpr (.inr dropped))
  · obtain ⟨after, same⟩ := readEntries_passes readable (fun e he stops => passes ⟨e, he, stops⟩)
      plan.table.create false
    cases passed.symm.trans same
    rfl

theorem Fit.reorder {es : List (Property × PlanSource)} (fit : plan.Fit n)
    (perm : plan.entries.Perm es) : Fit n (.mk plan.table es) :=
  .mk fit.regular ((perm.map _).nodup_iff.mp fit.distinct)
    fun e he => fit.entries e (perm.mem_iff.mpr he)

theorem null_reorder {es : List (Property × PlanSource)} (perm : plan.entries.Perm es) :
    Absent s row (.mk plan.table es) ∨ Dropped s row (.mk plan.table es) ↔
      plan.Absent s row ∨ plan.Dropped s row := by
  have some_iff : ∀ P : Property × PlanSource → Prop, (∃ e ∈ es, P e) ↔ ∃ e ∈ plan.entries, P e := by
    intro P
    simp only [perm.mem_iff]
  exact or_congr (or_congr Iff.rfl (some_iff _)) (some_iff _)

theorem calls_reorder {es : List (Property × PlanSource)} {ks : Keywords} (fit : plan.Fit n)
    (marks : ∃ b, row.marks plan.nullMarker = .ok b) (readable : Readable s row plan.entries)
    (own : ∀ name, plan.table.keyOf name = name) (perm : plan.entries.Perm es)
    (calls : plan.Calls s row ks) : ∃ ks', Calls s row (.mk plan.table es) ks' ∧ ks'.Perm ks := by
  obtain ⟨some, rfl⟩ := calls.unique fit readable
  have readable' : Readable s row es := fun e he => readable e (perm.mem_iff.mpr he)
  have calls' := calls_keywords (fit.reorder perm) marks readable' fun null =>
    some ((null_reorder perm).mp null)
  -- The same values are given, in another order and under distinct names.
  have gives := perm.symm.filterMap (given s row plan.table)
  exact ⟨_, calls', Keywords.putAll_perm gives (given_distinct (fit.reorder perm) own) _⟩

theorem not_dropped
    (plain : ∀ p q, (p, .nested q) ∈ plan.entries → p.propagatesNull = true → p.primitive = false)
    (solid : ∀ v ∈ row.values, ¬ v.Hollow) : ¬ plan.Dropped s row := by
  rintro ⟨⟨p, source⟩, he, propagates, mistaken⟩
  cases source with
  | column mapper index =>
    obtain ⟨v, present, some, null⟩ := mistaken
    exact ColumnMapper.convert_solid some (solid v (List.mem_of_getElem? present)) null rfl
  | nested q =>
    have primitive := mistaken.1
    rw [plain p q he propagates] at primitive
    contradiction

theorem lawful (full : row.columns.length = row.values.length) (fit : plan.Fit row.values.length)
    (smooth : plan.Smooth s row) (unvalidated : ∀ n, plan.table.builder ≠ .validate n) :
    plan.Lawful s row := by
  have here := smooth plan (.itself plan)
  have marks := here.marks full
  have readable := here.readable fit fun p q he =>
    Smooth.read full (fit.nested he) (smooth.nested he)
  have own := fit.regular.keyOf unvalidated
  constructor
  case applied =>
    obtain ⟨u, last, read⟩ := smooth.read full fit
    refine ⟨u, last, read, fun h c before => ?_⟩
    obtain ⟨after, applied, _⟩ := Plan.apply_reads h c fit read before
    exact ⟨after, applied⟩
  case null => exact read_null fit marks readable
  case object =>
    intro some
    have calls := calls_keywords fit marks readable some
    obtain ⟨u, built⟩ := here.constructs _ calls
    obtain ⟨last, read⟩ := read_of_calls calls built
    exact ⟨_, u, last, calls, built, read, fun k v => mem_keywords fit readable own⟩
  case reordered =>
    intro es perm
    have readable' : Readable s row es := fun e he => readable e (perm.mem_iff.mpr he)
    constructor
    · intro null
      exact read_null (fit.reorder perm) marks readable' ((null_reorder perm).mpr null)
    · intro ks calls
      exact calls_reorder fit marks readable own perm calls
  case undropped => exact not_dropped

end Plan
end Law

/-- Whatever type table, lead and columns a mapper is specialized for, in a context that a session comes
to and that has no column mappers but the library's: on a row of these columns that converts, whose
marked columns are there and on which no constructor raises, every plan in the graph is lawful. -/
theorem specialized_plans_lawful {s : Schema} {w v : World} (reached : Reached s w) {h : Hooks}
    {c : Context} {r : Registry} (owned : w.registries[c.registry]? = some r)
    (library : ∀ f ∈ r.columns.factories, f.Library) {m : ReflectiveMapper} {columns : List String}
    {plan : Plan} (specialized : (m.specialize h c columns).run w = (.ok plan, v))
    (unvalidated : ∀ q, plan.Contains q → ∀ n, q.table.builder ≠ .validate n) {row : Row}
    (shape : row.columns = columns) (full : row.values.length = columns.length)
    (smooth : plan.Smooth s row) (q : Plan) (inside : plan.Contains q) : q.Lawful s row := by
  have furnished := World.furnished_of_reached reached owned library
  have fit := specialize_fit h furnished specialized
  rw [← full] at fit
  have fits : q.Fit row.values.length :=
    inside.inherits (P := Plan.Fit row.values.length) (fun fit member => fit.nested member) fit
  have smooths : q.Smooth s row :=
    inside.inherits (P := Plan.Smooth s row) (fun smooth member => smooth.nested member) smooth
  exact Plan.lawful (by rw [shape, full]) fits smooths (unvalidated q inside)

def planFor (w : World) (cls : String) (columns : List String) : Option Plan :=
  ((ReflectiveMapper.specialize (Session.hooks Session.depth) ⟨0, 0, 0⟩
    ⟨0, .cls (.declared cls), ""⟩ columns).run w).1.toOption

def field (name : String) (type : TypeExpr) : FieldSpec :=
  ⟨name, type, none, true, false, none, none, false⟩

def people : Schema := .declare
  [⟨"Address", [], some "addr_id", .record [field "street" (.cls (.builtin .text))] none⟩,
    ⟨"Person", [], none, .record [field "name" (.cls (.builtin .text)),
      field "home" (.marked (.cls (.declared "Address")) [.nested "addr_", .propagateNull])] none⟩]

def personRow : Row :=
  ⟨["name", "addr_id", "addr_street"], [.text "Ann", .null, .text "Hill Street"], false⟩

theorem specialized_plans_lawful_people :
    ∃ w v plan, Reached people w ∧
      (ReflectiveMapper.specialize (Session.hooks Session.depth) ⟨0, 0, 0⟩
        ⟨0, .cls (.declared "Person"), ""⟩ personRow.columns).run w = (.ok plan, v) ∧
      plan.Smooth people personRow ∧ plan.Lawful people personRow := by
  have computed : ((Session.start people [] ⟨.fresh true, none, []⟩).toOption.any fun w =>
      (w.registries[0]?).any fun r => (r.columns.factories.all fun f => f.Library) &&
        (planFor w "Person" personRow.columns).any fun plan =>
          plan.all Plan.constructed && plan.all (Plan.runsHere people personRow)) = true := by
    decide +kernel
  simp only [Option.any_eq_true, Bool.and_eq_true] at computed
  obtain ⟨w, started, r, owned, library, plan, planned, constructed, runs⟩ := computed
  have reached := Reached.after started []
  have builtIn : ∀ f ∈ r.columns.factories, f.Library :=
    fun f hf => of_decide_eq_true (List.all_eq_true.mp library f hf)
  have specialized := run_of_toOption planned
  have smooth := Plan.smooth_of_all runs
  refine ⟨w, _, plan, reached, specialized, smooth, ?_⟩
  exact specialized_plans_lawful reached (c := ⟨0, 0, 0⟩) owned builtIn specialized
    (Plan.unvalidated_of constructed) rfl rfl smooth plan (.itself plan)

/-- A property of a type that cannot be null, whose sub-object ends in a column that can. -/
def boxes : Schema := .declare
  [⟨"Outer", [], none, .record
    [field "x" (.marked (.cls (.builtin .int)) [.nested "x_", .propagateNull])] none⟩]

def boxProperties : List Command :=
  [.registerProperties "main" (.cls (.builtin .int))
    [⟨"a", .cls (.builtin .text), []⟩, ⟨"b", .union .bar [.cls (.builtin .text), TypeExpr.none], []⟩]
    (some (.keeping ⟨"I", [⟨"a", none, false⟩, ⟨"b", some .null, false⟩], none⟩ none false)) none]

def boxRow : Row := ⟨["x_a", "x_b"], [.text "v", .null], false⟩

/-- Nothing that propagates is null, yet the object is. -/
theorem sub_object_dropped :
    ∃ w v plan, Reached boxes w ∧
      (∃ r, w.registries[0]? = some r ∧ ∀ f ∈ r.columns.factories, f.Library) ∧
      (ReflectiveMapper.specialize (Session.hooks Session.depth) ⟨0, 0, 0⟩
        ⟨0, .cls (.declared "Outer"), ""⟩ boxRow.columns).run w = (.ok plan, v) ∧
      (∀ q, plan.Contains q → ∀ n, q.table.builder ≠ .validate n) ∧
      plan.Smooth boxes boxRow ∧ ¬ plan.Absent boxes boxRow ∧
      ∀ h c, ∃ after, Reads boxes (plan.apply h c) boxRow .null after := by
  have computed : ((Session.start boxes [] ⟨.fresh true, none, []⟩).toOption.any fun u =>
      ((Session.after boxProperties u).registries[0]?).any fun r =>
        (r.columns.factories.all fun f => f.Library) &&
        (planFor (Session.after boxProperties u) "Outer" boxRow.columns).any fun plan =>
          plan.all Plan.constructed && plan.all (Plan.runsHere boxes boxRow) &&
          !plan.absent boxes boxRow &&
          (plan.read boxes boxRow).toOption.any fun r => r.1.isNull) = true := by
    decide +kernel
  simp only [Option.any_eq_true, Bool.and_eq_true, Bool.not_eq_true'] at computed
  obtain ⟨u, started, r, owned, library, plan, planned, ⟨⟨constructed, runs⟩, some⟩, ⟨x, last⟩, read,
    null⟩ := computed
  have reached := Reached.after started boxProperties
  have builtIn : ∀ f ∈ r.columns.factories, f.Library :=
    fun f hf => of_decide_eq_true (List.all_eq_true.mp library f hf)
  have specialized := run_of_toOption planned
  refine ⟨_, _, plan, reached, ⟨r, owned, builtIn⟩, specialized, Plan.unvalidated_of constructed,
    Plan.smooth_of_all runs, fun absent => ?_, fun h c => ?_⟩
  · rw [Plan.absent_of absent] at some
    contradiction
  · have furnished := World.furnished_of_reached reached owned builtIn
    have fit := specialize_fit _ (c := ⟨0, 0, 0⟩) furnished specialized
    cases Value.isNull_iff.mp null
    cases ok : plan.read boxes boxRow with
    | error e => rw [ok] at read; contradiction
    | ok r =>
      rw [ok] at read
      cases read
      obtain ⟨after, applied, _⟩ := Plan.apply_reads h c fit ok false
      exact ⟨_, applied⟩

end RowMapping
