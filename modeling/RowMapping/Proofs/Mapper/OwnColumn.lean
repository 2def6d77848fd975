import RowMapping.Proofs.Mapper.Unaltered

/-! Null that propagates from a property with a column of its own. A plan reads its entries in order, and
stops at a property that propagates null for one of two reasons: what its column was mapped to is null, or
its type cannot be null and the value of the row that was read last is. Where the mapper of the column
reads that column last, the second reason tells of the property's own column and of nothing else. -/
namespace RowMapping

open MappingM Reading

/-- The first part of a plan: the marker of the class and some entries, none of which makes the object
null. -/
def Plan.begin (h : Hooks) (c : Context) (plan : Plan) (before : List (Property × PlanSource)) :
    Reading (Option Keywords) := do
  if ← isNullMarked plan.nullMarker then return none
  applyEntries h c plan.table before plan.table.create

def Plan.finish (h : Hooks) (c : Context) (plan : Plan) (after : List (Property × PlanSource))
    (keywords : Keywords) : Reading Value := do
  match ← applyEntries h c plan.table after keywords with
  | none => return .null
  | some keywords => plan.table.build (← getThe World).schema keywords

section Stages

variable {h : Hooks} {c : Context}

theorem runs_bind {α β : Type} {x : Reading α} {f : α → Reading β} {row r : Row} {w v : World} {a : α}
    (first : (x.run row).run w = (.ok (a, r), v)) :
    ((x >>= f).run row).run w = ((f a).run r).run v := run_bind_ok first

theorem applyEntries_append (table : PropertyTable) (before after : List (Property × PlanSource))
    (keywords : Keywords) :
    applyEntries h c table (before ++ after) keywords = (do
      match ← applyEntries h c table before keywords with
      | none => return none
      | some keywords => applyEntries h c table after keywords) := by
  induction before generalizing keywords with
  | nil => simp [applyEntries]
  | cons e es ih =>
    obtain ⟨p, source⟩ := e
    rw [List.cons_append, applyEntries, applyEntries]
    simp only [bind_assoc]
    refine bind_congr fun v => bind_congr fun last => ?_
    split
    · simp
    · exact ih _

theorem Plan.apply_split {plan : Plan} {before after : List (Property × PlanSource)}
    (entries : plan.entries = before ++ after) :
    plan.apply h c = (do
      match ← plan.begin h c before with
      | none => return .null
      | some keywords => plan.finish h c after keywords) := by
  obtain ⟨table, es⟩ := plan
  obtain rfl : es = before ++ after := entries
  unfold Plan.apply Plan.begin
  simp only [bind_assoc]
  refine bind_congr fun marked => ?_
  cases marked with
  | true => rfl
  | false =>
    simp only [Bool.false_eq_true, if_false, applyEntries_append, bind_assoc]
    refine bind_congr fun found => ?_
    cases found with
    | none => simp
    | some keywords => rfl

/-- The reading of a plan at one of its entries: it stops if the property propagates and is taken for null,
and goes on with the next entry otherwise. -/
theorem Plan.apply_at {plan : Plan} {before after : List (Property × PlanSource)} {p : Property}
    {source : PlanSource} (entries : plan.entries = before ++ (p, source) :: after) {row r s : Row}
    {w u x : World} {ks : Keywords} {v : Value}
    (passed : ((plan.begin h c before).run row).run w = (.ok (some ks, r), u))
    (read : ((source.apply h c).run r).run u = (.ok (v, s), x)) :
    (p.propagatesNull = true ∧ (v = .null ∨ p.primitive = true ∧ s.wasNull = true) →
      ((plan.apply h c).run row).run w = (.ok (.null, s), x)) ∧
    (¬ (p.propagatesNull = true ∧ (v = .null ∨ p.primitive = true ∧ s.wasNull = true)) →
      ((plan.apply h c).run row).run w =
        ((plan.finish h c after (if v.isNull then ks else plan.table.set ks p v)).run s).run x) := by
  have test : (p.propagatesNull && (v.isNull || (p.primitive && s.wasNull))) = true ↔
      p.propagatesNull = true ∧ (v = .null ∨ p.primitive = true ∧ s.wasNull = true) := by
    simp [Value.isNull_iff]
  have first : ((plan.apply h c).run row).run w =
      ((plan.finish h c ((p, source) :: after) ks).run r).run u := by
    rw [Plan.apply_split entries]
    exact runs_bind passed
  have here : ((plan.finish h c ((p, source) :: after) ks).run r).run u =
      (((if (p.propagatesNull && (v.isNull || (p.primitive && s.wasNull))) = true then return .null
        else plan.finish h c after (if v.isNull then ks else plan.table.set ks p v) :
          Reading Value)).run s).run x := by
    unfold Plan.finish
    rw [applyEntries, bind_assoc, runs_bind read]
    simp only [bind_assoc]
    rw [runs_bind (x := wasNull) (a := s.wasNull) (r := s) (v := x) rfl]
    split
    · rfl
    · rfl
  rw [first, here]
  constructor
  · intro stops
    rw [if_pos (test.mpr stops)]
    rfl
  · intro goes
    rw [if_neg (mt test.mp goes)]

theorem Hooks.Leave.begin (leave : h.Leave) {plan : Plan} (before : List (Property × PlanSource))
    {row : Row} : Leaves row (plan.begin h c before) := by
  refine (Leaves.nullMarked _).bind fun marked => ?_
  cases marked with
  | true => exact .pure _
  | false => exact entries (fun e _ => leave.source e.2) _

end Stages

/-- After a reading, the value read last is null if and only if the one at the index is. -/
def Row.TellsOf (index : Nat) (row r : Row) : Prop := r.wasNull = true ↔ row.values[index]? = some .null

/-- A mapper that, where it answers with a value, has read the column at the index last. -/
def ColumnMapper.ReadsOwn (h : Hooks) (c : Context) (m : ColumnMapper) (index : Nat) : Prop :=
  ∀ row w v r u, ((m.apply h c index).run row).run w = (.ok (v, r), u) → v ≠ .null → row.TellsOf index r

/-- Behaviours that answer with null or read the column of the mapper last. -/
def Behaviour.ReadsOwn : Behaviour → Prop
  | .raw | .zero _ | .tag _ | .raise _ => True
  | .const v => v = .null
  | .peek _ | .wasNull | .join | .count | .delegate _ => False
  | .written script => ∀ i : Int, ∃ f : Value → Value, script (some i) = .ask (.value i) fun v => .yield (f v)

section Mappers

variable {h : Hooks} {c : Context} {index : Nat} {row : Row}

theorem run_column (index : Int) (row : Row) (w : World) :
    ((Reading.column index).run row).run w = (row.get index, w) := by
  have first : ((get : Reading Row).run row).run w = (.ok (row, row), w) := rfl
  refine (runs_bind first).trans ?_
  cases got : row.get index with
  | error e => rfl
  | ok a => rfl

theorem comes_readLast {f : Value → Reading Value}
    (rest : ∀ v, ComesOver (fun _ => True) (fun _ => True) (row.TellsOf index) (fun _ => True) (f v)) :
    Comes (fun _ => True) (fun _ => True) (fun a => row.TellsOf index a.2)
      ((Reading.column index >>= f).run row) := by
  have natural : ¬ (index : Int) < 0 := by omega
  have read : Comes (fun _ => True) (fun _ => True) (fun a : Value × Row => row.TellsOf index a.2)
      ((Reading.column index).run row) := by
    refine fun w _ => ⟨trivial, fun a got => ?_, fun _ _ => trivial⟩
    rw [run_column] at got
    cases present : row.values[index]? with
    | none => simp [Row.get, natural, present] at got
    | some v =>
      simp only [Row.get, natural, present, if_false, Int.toNat_natCast, Except.ok.injEq] at got
      subst got
      simp [Row.TellsOf, present, Value.isNull_iff]
  exact read.bind fun a tells => (rest a.1 a.2 tells).mono fun _ both => both.2

theorem ColumnMapper.readsOwn_of_column {m : ColumnMapper} {f : World → Value → Reading Value}
    (reads : ∀ row w, ((m.apply h c index).run row).run w = ((Reading.column index >>= f w).run row).run w)
    (rest : ∀ (row : Row) w v,
      ComesOver (fun _ => True) (fun _ => True) (row.TellsOf index) (fun _ => True) (f w v)) :
    m.ReadsOwn h c index := by
  intro row w v r u ran _
  have tells := (comes_readLast (rest row w) w trivial).2.1 (v, r)
  rw [← reads, ran] at tells
  exact tells rfl

/-- Mappers of the library read their column, and nothing after it. -/
theorem ColumnMapper.Library.readsOwn {m : ColumnMapper} (library : m.Library) : m.ReadsOwn h c index := by
  cases m with
  | value origin target =>
    exact readsOwn_of_column (f := fun w v => liftM (liftM (convertTo w.schema target v) : MappingM Value))
      (fun _ _ => rfl) fun _ _ _ => .lift (.anything _)
  | array serial container origin element =>
    refine readsOwn_of_column (f := fun w v => if v.isNull then pure v else
      (arrayItems? v).elim (throw (.notArray index v.classOf.name)) fun items =>
        liftM (liftM (contain container (items.map (convertTo w.schema element))) : MappingM Value)) ?_ ?_
    · intro row w
      unfold apply
      rw [runs_bind (x := getThe World) (a := w) (r := row) (v := w) rfl]
      refine congrArg (fun x : Reading Value => (x.run row).run w) (bind_congr fun v => ?_)
      cases arrayItems? v <;> rfl
    · intro row w v
      split
      · exact .pure trivial
      · cases arrayItems? v with
        | none => exact .throw trivial
        | some items => exact .lift (.anything _)
  | raw =>
    refine readsOwn_of_column (f := fun _ => pure) (fun _ _ => ?_) fun _ _ _ => .pure trivial
    rw [bind_pure]
    rfl
  | custom | misplaced => contradiction

/-- So do mappers of the caller that read one column and no other. -/
theorem Behaviour.ReadsOwn.custom {f : CustomMapper} (own : f.spec.behaviour.ReadsOwn) :
    (ColumnMapper.custom f).ReadsOwn h c index := by
  by_cases bare : f.isBare = true
  -- A bare function lacks the part that maps, and never answers.
  · intro row w v r u ran
    have fails : (((ColumnMapper.custom f).apply h c index).run row).run w = (.error .lacksPart, w) := by
      show ((f.run h c _ _).run row).run w = _
      rw [CustomMapper.run, if_pos bare]
      rfl
    cases fails.symm.trans ran
  · have runs : ∀ row w, (((ColumnMapper.custom f).apply h c index).run row).run w =
        ((f.compute h c (fun t row => h.column c t index row) (some index)).run row).run w := by
      intro row w
      show ((f.run h c _ _).run row).run w = _
      rw [CustomMapper.run, if_neg bare]
    unfold CustomMapper.compute at runs
    cases behaves : f.spec.behaviour with
    | raw =>
      rw [behaves] at runs
      refine ColumnMapper.readsOwn_of_column (f := fun _ => pure) (fun row w => ?_) fun _ _ _ => .pure trivial
      rw [bind_pure]
      exact runs row w
    | zero z =>
      rw [behaves] at runs
      exact ColumnMapper.readsOwn_of_column (f := fun _ v => pure (if v.isNull then z else v)) runs
        fun _ _ _ => .pure trivial
    | tag label =>
      rw [behaves] at runs
      exact ColumnMapper.readsOwn_of_column (f := fun _ v => pure (.list [label, .int index, v])) runs
        fun _ _ _ => .pure trivial
    | raise e =>
      rw [behaves] at runs
      intro row w v r u ran
      cases (runs row w).symm.trans ran
    | const z =>
      rw [behaves] at runs own
      intro row w v r u ran some
      cases (runs row w).symm.trans ran
      exact absurd own some
    | peek | wasNull | join | count | delegate =>
      rw [behaves] at own
      contradiction
    | written script =>
      rw [behaves] at runs own
      obtain ⟨g, reads⟩ := own index
      simp only [reads] at runs
      exact ColumnMapper.readsOwn_of_column (f := fun _ v => pure (g v)) runs fun _ _ _ => .pure trivial

end Mappers

/-- Null propagates from a property of a type that cannot be null exactly if the column of the property is
null in the row or its mapper answers with null, where the mapper reads that column last. Otherwise the plan
goes on. Nothing else in the row counts, nor in what order it was read. -/
theorem own_null_propagates {depth : Nat} {c : Context} {plan : Plan}
    {before after : List (Property × PlanSource)} {p : Property} {mapper : ColumnMapper} {index : Nat}
    (entries : plan.entries = before ++ (p, .column mapper index) :: after)
    (propagates : p.propagatesNull = true) (primitive : p.primitive = true)
    (own : mapper.ReadsOwn (Session.hooks depth) c index) {row r s : Row} {w u x : World} {ks : Keywords}
    {v : Value}
    (passed : ((plan.begin (Session.hooks depth) c before).run row).run w = (.ok (some ks, r), u))
    (mapped : ((mapper.apply (Session.hooks depth) c index).run r).run u = (.ok (v, s), x)) :
    (v = .null ∨ row.values[index]? = some .null →
      ((plan.apply (Session.hooks depth) c).run row).run w = (.ok (.null, s), x)) ∧
    (¬ (v = .null ∨ row.values[index]? = some .null) →
      ((plan.apply (Session.hooks depth) c).run row).run w =
        ((plan.finish (Session.hooks depth) c after (plan.table.set ks p v)).run s).run x) := by
  have leave := leave_hooks depth
  -- What was read before leaves the row as it was, so that its mapper finds the column as it is.
  have same : r.values = row.values := (leave.begin before |>.like passed).2
  have last : v ≠ .null → row.TellsOf index s := by
    unfold Row.TellsOf
    rw [← same]
    exact own r u v s x mapped
  have read : (((PlanSource.column mapper index).apply (Session.hooks depth) c).run r).run u =
      (.ok (v, s), x) := by
    unfold PlanSource.apply
    exact mapped
  obtain ⟨stops, goes⟩ := Plan.apply_at entries passed read
  constructor
  · intro null
    refine stops ⟨propagates, ?_⟩
    by_cases answered : v = .null
    · exact .inl answered
    · exact .inr ⟨primitive, (last answered).mpr (null.resolve_left answered)⟩
  · intro present
    obtain ⟨answered, there⟩ := not_or.mp present
    rw [goes ?_, if_neg fun null => answered (Value.isNull_iff.mp null)]
    rintro ⟨_, null | ⟨_, wasNull⟩⟩
    · exact answered null
    · exact there ((last answered).mp wasNull)

/-! ### Tallies -/

def tallies : Schema := .declare
  [⟨"Tally", [], none, .record
    [{ name := "name", type := .optional (.cls (.builtin .text)) },
      { name := "count", type := .marked (.cls (.builtin .int)) [.propagateNull] }] none⟩]

def tally : ReflectiveMapper := ⟨0, .cls (.declared "Tally"), ""⟩

def sevens : Command :=
  .registerColumn "main" (.mapper ⟨.function, none, .const (.int 7), none, none, .absent⟩)
    (some (.cls (.builtin .int)))

def talliesWorld (commands : List Command) : World :=
  Session.after commands ((Session.start tallies [] ⟨.fresh true, none, []⟩).toOption.getD default)

def tallyRow (name count : Value) : Row := ⟨["name", "count"], [name, count], false⟩

def tallied (commands : List Command) (row : Row) : Except Failure Value :=
  ((Session.mapOne (Session.hooks Session.depth) ⟨0, 0, 0⟩ (.of (.cls (.declared "Tally"))) row).run
    (talliesWorld commands)).1

/-- A plan of tallies that ends in the number, with what is before it, its property and its mapper. -/
structure TallyPlan where
  plan : Plan
  before : List (Property × PlanSource)
  count : Property
  mapper : ColumnMapper
  entries : plan.entries = before ++ [(count, .column mapper 1)]

def tallyPlan (commands : List Command) : Option TallyPlan :=
  match ((tally.specialize (Session.hooks Session.depth) ⟨0, 0, 0⟩ ["name", "count"]).run
      (talliesWorld commands)).1 with
  | .ok plan =>
    match known : plan.entries with
    | [e, (p, .column mapper 1)] => some ⟨plan, [e], p, mapper, known⟩
    | _ => none
  | .error _ => none

def TallyPlan.counted (t : TallyPlan) (commands : List Command) (row : Row) : Option Value :=
  match ((t.plan.begin (Session.hooks Session.depth) ⟨0, 0, 0⟩ t.before).run row).run
      (talliesWorld commands) with
  | (.ok (some _, r), u) =>
    ((t.mapper.apply (Session.hooks Session.depth) ⟨0, 0, 0⟩ 1).run r).run u |>.1.toOption.map (·.1)
  | _ => none

theorem TallyPlan.counted_eq {t : TallyPlan} {commands : List Command} {row : Row} {v : Value}
    (counted : t.counted commands row = some v) : ∃ ks r u s x,
      ((t.plan.begin (Session.hooks Session.depth) ⟨0, 0, 0⟩ t.before).run row).run
        (talliesWorld commands) = (.ok (some ks, r), u) ∧
      ((t.mapper.apply (Session.hooks Session.depth) ⟨0, 0, 0⟩ 1).run r).run u = (.ok (v, s), x) := by
  unfold TallyPlan.counted at counted
  split at counted
  · next ks r u passed =>
    obtain ⟨⟨_, s⟩, mapped, rfl⟩ := Option.map_eq_some_iff.mp counted
    exact ⟨ks, r, u, s, _, passed, run_of_toOption mapped⟩
  · contradiction

/-- Numbers that the library reads make a tally null when they are null themselves, and not when the name
before them is. -/
theorem own_null_propagates_tally : ∃ t : TallyPlan, tallyPlan [] = some t ∧
    (∃ s x, ((t.plan.apply (Session.hooks Session.depth) ⟨0, 0, 0⟩).run (tallyRow (.text "x") .null)).run
      (talliesWorld []) = (.ok (.null, s), x)) ∧
    ∃ ks v s x, v ≠ .null ∧
      ((t.plan.apply (Session.hooks Session.depth) ⟨0, 0, 0⟩).run (tallyRow .null (.int 5))).run
        (talliesWorld []) =
      ((t.plan.finish (Session.hooks Session.depth) ⟨0, 0, 0⟩ [] (t.plan.table.set ks t.count v)).run s).run x := by
  have computed : ((tallyPlan []).any fun t => t.count.propagatesNull && t.count.primitive &&
      decide t.mapper.Library && (t.counted [] (tallyRow (.text "x") .null)).any Value.isNull &&
      (t.counted [] (tallyRow .null (.int 5))).any fun v => !v.isNull) = true := by
    decide +kernel
  simp only [Option.any_eq_true, Bool.and_eq_true, decide_eq_true_eq] at computed
  obtain ⟨t, planned, ⟨⟨⟨propagates, primitive⟩, library⟩, n, null, none⟩, v, five, some⟩ := computed
  obtain ⟨_, _, _, s, x, passed, mapped⟩ := TallyPlan.counted_eq null
  obtain ⟨ks, _, _, s', x', passed', mapped'⟩ := TallyPlan.counted_eq five
  have answered : v ≠ .null := by
    rintro rfl
    contradiction
  refine ⟨t, planned, ⟨s, x, ?_⟩, ks, v, s', x', answered, ?_⟩
  · exact (own_null_propagates t.entries propagates primitive library.readsOwn passed mapped).1 (.inr rfl)
  · exact (own_null_propagates t.entries propagates primitive library.readsOwn passed' mapped').2
      fun null => null.elim answered nofun

/-- Under a mapper that does not read the row, the null of the name makes a tally null though its number is
not, and the null of the number passes. -/
theorem neighbour_propagates : ∃ t : TallyPlan, tallyPlan [sevens] = some t ∧
    t.count.propagatesNull = true ∧ t.count.primitive = true ∧
    (∃ v, t.counted [sevens] (tallyRow .null (.int 5)) = some v ∧ v ≠ .null) ∧
    (tallyRow .null (.int 5)).values[1]? ≠ some .null ∧
    tallied [sevens] (tallyRow .null (.int 5)) = .ok .null ∧
    (tallyRow (.text "x") .null).values[1]? = some .null ∧
    ∃ v, tallied [sevens] (tallyRow (.text "x") .null) = .ok v ∧ v ≠ .null := by
  have computed : ((tallyPlan [sevens]).any fun t => t.count.propagatesNull && t.count.primitive &&
      ((t.counted [sevens] (tallyRow .null (.int 5))).any (!·.isNull)) &&
      ((tallied [sevens] (tallyRow .null (.int 5))).toOption.any Value.isNull) &&
      (tallied [sevens] (tallyRow (.text "x") .null)).toOption.any (!·.isNull)) = true := by
    decide +kernel
  simp only [Option.any_eq_true, Bool.and_eq_true] at computed
  obtain ⟨t, planned, ⟨⟨⟨propagates, primitive⟩, v, seven, some⟩, n, stopped, null⟩, u, went, kept⟩ := computed
  have present : ∀ {v : Value}, (!v.isNull) = true → v ≠ .null := by
    rintro v present rfl
    contradiction
  obtain rfl := Value.isNull_iff.mp null
  refine ⟨t, planned, propagates, primitive, ⟨v, seven, present some⟩, nofun, ?_, rfl, u, ?_, present kept⟩
  · exact congrArg Prod.fst (run_of_toOption stopped)
  · exact congrArg Prod.fst (run_of_toOption went)

end RowMapping
