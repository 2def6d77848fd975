import RowMapping.Proofs.Mapper.Twins
import RowMapping.Proofs.Schema.Described
import RowMapping.Proofs.Session.Together

/-! Specialization and mapping side by side. Where settings, property tables, column look-ups and child
mappers correspond, so do plans and what is made of rows by them. -/
namespace RowMapping

open MappingM ReflectiveMapper

/-- When mappers of two sessions correspond: serial numbers count below a bound, reflective mappers
are kin, properties are listed for a type, and column mappers are good for mapping. -/
structure Kinship where
  bound : Nat
  kin : ReflectiveMapper → ReflectiveMapper → Prop
  listed : RawType → Property → Prop
  good : ColumnMapper → Prop

namespace Kinship

variable (q : Kinship)

def tables (raw : RawType) (o p : Option PropertyTable) : Prop :=
  FoundTwins q.bound o p ∧ ∀ t ∈ o, ∀ prop ∈ t.properties, q.listed raw prop

def columns (o p : Option ColumnMapper) : Prop := FoundTwins q.bound o p ∧ ∀ m ∈ o, q.good m

def plans (p p' : Plan) : Prop := Twins q.bound p p' ∧ p.Reads q.good

def found (o p : Option Plan) : Prop := FoundTwins q.bound o p ∧ ∀ plan ∈ o, plan.Reads q.good

def entries (es fs : List Entry) : Prop :=
  entriesUpTo q.bound es = entriesUpTo q.bound fs ∧ ∀ e ∈ es, e.2.Reads q.good

end Kinship

structure Parallel (l : Leniency) (R : World → World → Prop) (q : Kinship) (h k : Hooks)
    (c d : Context) : Prop where
  schema : ∀ w v, R w v → w.schema = v.schema
  log : ∀ level logger text, Together l R (fun _ _ => True) (log level logger text) (log level logger text)
  settings : Together l R (· = ·) (settings c) (settings d)
  table : ∀ raw, Together l R (q.tables raw) (table? c raw) (table? d raw)
  column : ∀ key, Together l R q.columns (Registry.findColumn h c key) (Registry.findColumn k d key)
  child : ∀ m m' p, q.kin m m' → q.listed m.target p → p.unmappable = false → p.nested.isSome →
    Together l R q.kin (child m p) (child m' p)
  /-- Kin map to one type under one lead, or to what has no properties where failures of the first are
  passed over. -/
  kin : ∀ m m', q.kin m m' →
    m.target = m'.target ∧ m.lead = m'.lead ∨ m.target.class? = none ∧ ∀ e, l.first e
  raw : q.good .raw

namespace Parallel

variable {l : Leniency} {R : World → World → Prop} {q : Kinship} {h k : Hooks} {c d : Context}
  (par : Parallel l R q h k c d) {columns : List String} {chain : MatcherChain}
include par

theorem fallbackMapper (owner : String) (p : Property) :
    Together l R (fun a b => a = .raw ∧ b = .raw) (fallbackMapper ⟨h, c, columns, chain⟩ owner p)
      (fallbackMapper ⟨k, d, columns, chain⟩ owner p) := by
  refine par.settings.bind fun s s' same => ?_
  subst same
  dsimp only
  split
  · exact (Together.throw (S := fun _ _ => True) _).bind fun _ _ _ =>
      (par.log _ _ _).bind fun _ _ _ => .pure ⟨rfl, rfl⟩
  · exact (par.log _ _ _).bind fun _ _ _ => .pure ⟨rfl, rfl⟩

theorem planColumn {m m' : ReflectiveMapper} (target : m.target = m'.target) (lead : m.lead = m'.lead)
    (p : Property) :
    TogetherOver l R (fun o o' => q.entries o.toList o'.toList)
      (planColumn ⟨h, c, columns, chain⟩ m p) (planColumn ⟨k, d, columns, chain⟩ m' p) := by
  have owners : m.typeName = m'.typeName := by simp only [typeName, target]
  unfold ReflectiveMapper.planColumn
  rw [owners, lead]
  refine (TogetherOver.liftSame _).bind_same fun owner => ?_
  refine (TogetherOver.liftSame _).bind_same fun found => ?_
  cases found with
  | none => exact .pure ⟨rfl, by simp⟩
  | some index =>
    refine (TogetherOver.lift (par.column p.type.boxed)).bind fun o o' found => ?_
    obtain ⟨twins, good⟩ := found
    have taken : ∀ x y : ColumnMapper, Twins q.bound x y → q.good x →
        q.entries [(p, .column x index)] [(p, .column y index)] := by
      intro x y same own
      refine ⟨by simpa [entriesUpTo, PlanSource.upTo, Twins] using same, ?_⟩
      simpa using PlanSource.Reads.column own
    rcases twins.cases with ⟨rfl, rfl⟩ | ⟨x, y, rfl, rfl, same⟩
    · refine (TogetherOver.lift (par.fallbackMapper _ _)).bind fun x y both => ?_
      obtain ⟨rfl, rfl⟩ := both
      exact (TogetherOver.modify _).bind fun _ _ _ => .pure (taken _ _ rfl par.raw)
    · refine (TogetherOver.pure (S := fun a b => a = x ∧ b = y) ⟨rfl, rfl⟩).bind fun a b both => ?_
      obtain ⟨rfl, rfl⟩ := both
      exact (TogetherOver.modify _).bind fun _ _ _ => .pure (taken _ _ same (good _ rfl))

end Parallel

def Planners (l : Leniency) (R : World → World → Prop) (q : Kinship) (plan plan' : Planner) : Prop :=
  ∀ m m' trail, q.kin m m' → TogetherOver l R q.found (plan m trail) (plan' m' trail)

namespace Parallel

variable {l : Leniency} {R : World → World → Prop} {q : Kinship} {h k : Hooks} {c d : Context}
  (par : Parallel l R q h k c d) {columns : List String} {chain : MatcherChain}
include par

theorem planNested {plan plan' : Planner} (planners : Planners l R q plan plan')
    {m m' : ReflectiveMapper} (kin : q.kin m m') (target : m.target = m'.target)
    (lead : m.lead = m'.lead) (trail : Trail) {p : Property} {nested : String}
    (known : p.nested = some nested) (listed : q.listed m.target p) (mappable : p.unmappable = false) :
    TogetherOver l R (fun o o' => q.entries o.toList o'.toList)
      (planNested ⟨h, c, columns, chain⟩ plan m trail p nested)
      (planNested ⟨k, d, columns, chain⟩ plan' m' trail p nested) := by
  have owners : m.typeName = m'.typeName := by simp only [typeName, target]
  unfold ReflectiveMapper.planNested
  rw [owners, lead]
  refine (TogetherOver.liftSame _).bind_same fun under => ?_
  split
  · refine (TogetherOver.liftSame _).bind_same fun owner => ?_
    exact (TogetherOver.lift (par.log _ _ _)).bind fun _ _ _ => .pure ⟨rfl, by simp⟩
  · split
    · split
      · exact .throw _
      · exact .throw _
    · have some : p.nested.isSome := by rw [known]; rfl
      refine (TogetherOver.lift (par.child m m' p kin listed mappable some)).bind fun made made' kin => ?_
      refine (planners made made' trail kin).bind fun o o' found => .pure ?_
      obtain ⟨twins, good⟩ := found
      rcases twins.cases with ⟨rfl, rfl⟩ | ⟨x, y, rfl, rfl, same⟩
      · exact ⟨rfl, by simp⟩
      · refine ⟨?_, ?_⟩
        · replace same : x.upTo q.bound = y.upTo q.bound := same
          simp [entriesUpTo, PlanSource.upTo, same]
        · simpa using PlanSource.Reads.nested (good x rfl)

theorem planEntries {plan plan' : Planner} (planners : Planners l R q plan plan')
    {m m' : ReflectiveMapper} (kin : q.kin m m') (target : m.target = m'.target)
    (lead : m.lead = m'.lead) (trail : Trail) {ps : List Property}
    (listed : ∀ p ∈ ps, q.listed m.target p) :
    TogetherOver l R q.entries (planEntries ⟨h, c, columns, chain⟩ plan m trail ps)
      (planEntries ⟨k, d, columns, chain⟩ plan' m' trail ps) := by
  induction ps with
  | nil => exact .pure ⟨rfl, by simp⟩
  | cons p ps ih =>
    have rest := ih fun p' hp => listed p' (List.mem_cons_of_mem p hp)
    have more : ∀ o o' : Option Entry, q.entries o.toList o'.toList → TogetherOver l R q.entries
        (do return o.toList ++ (← ReflectiveMapper.planEntries ⟨h, c, columns, chain⟩ plan m trail ps))
        (do return o'.toList ++
          (← ReflectiveMapper.planEntries ⟨k, d, columns, chain⟩ plan' m' trail ps)) := by
      intro o o' ⟨same, good⟩
      refine rest.bind fun es es' ⟨same', good'⟩ => .pure ⟨?_, ?_⟩
      · simp only [entriesUpTo_eq, List.map_append] at same same' ⊢
        rw [same, same']
      · intro e he
        rcases List.mem_append.mp he with new | old
        · exact good e new
        · exact good' e old
    unfold ReflectiveMapper.planEntries
    split
    · exact rest
    · next mappable =>
      split
      · exact (par.planColumn target lead p).bind more
      · next nested known =>
        have own := listed p List.mem_cons_self
        exact (par.planNested planners kin target lead trail known own (eq_false_of_ne_true mappable)).bind more

omit par in
theorem entries_ordered {es fs : List Entry} (same : q.entries es fs) :
    entriesUpTo q.bound (ordered es) = entriesUpTo q.bound (ordered fs) := by
  have filtered : ∀ test : Property → Bool, entriesUpTo q.bound (es.filter fun e => test e.1) =
      entriesUpTo q.bound (fs.filter fun e => test e.1) := by
    intro test
    have along : ∀ gs : List Entry, entriesUpTo q.bound (gs.filter fun e => test e.1) =
        (entriesUpTo q.bound gs).filter fun e => test e.1 := by
      intro gs
      simp only [entriesUpTo_eq, List.filter_map]
      rfl
    rw [along, along, same.1]
  simp only [ordered, entriesUpTo_eq, List.map_append]
  simp only [← entriesUpTo_eq]
  rw [filtered fun p => !p.propagatesNull, filtered fun p => p.propagatesNull]

omit par in
theorem entries_isEmpty {es fs : List Entry} (same : q.entries es fs) : es.isEmpty = fs.isEmpty := by
  have lengths : (entriesUpTo q.bound es).length = (entriesUpTo q.bound fs).length :=
    congrArg List.length same.1
  rw [entriesUpTo_eq, entriesUpTo_eq, List.length_map, List.length_map] at lengths
  cases es <;> cases fs <;> simp_all

omit par in
theorem plans_ordered {t t' : PropertyTable} {es fs : List Entry} (tables : Twins q.bound t t')
    (same : q.entries es fs) : q.plans (.mk t (ordered es)) (.mk t' (ordered fs)) := by
  constructor
  · show Plan.mk (Serial.upTo q.bound t) _ = Plan.mk (Serial.upTo q.bound t') _
    rw [show Serial.upTo q.bound t = Serial.upTo q.bound t' from tables, entries_ordered same]
  · refine .mk fun e he => same.2 e ?_
    simp only [ordered, List.mem_append, List.mem_filter] at he
    rcases he with ⟨member, _⟩ | ⟨member, _⟩
    · exact member
    · exact member

omit par in
theorem planWithin_fails {s : Scope} {m : ReflectiveMapper} (unknown : m.target.class? = none)
    (fuel : Nat) (trail : Trail) (unread : List String) (w : World) :
    ∃ e, (((planWithin s fuel m trail).run unread).run w).1 = .error e := by
  have named : ∀ (x : String → Planning (Option Plan)) (e : String → Failure) (v : World),
      (∀ o, x o = throw (e o)) →
        ∃ f, (((liftM m.typeName >>= x : Planning (Option Plan)).run unread).run v).1 = .error f := by
    intro x e v throws
    cases known : m.typeName with
    | error f => exact ⟨f, rfl⟩
    | ok owner =>
      refine ⟨e owner, ?_⟩
      show (((x owner).run unread).run v).1 = _
      rw [throws]
      rfl
  cases fuel with
  | zero => exact ⟨_, rfl⟩
  | succ fuel =>
    unfold ReflectiveMapper.planWithin
    split
    · exact named _ _ w fun _ => rfl
    · obtain ⟨t, v, ran, described, _⟩ | ⟨_, _, obscure⟩ := run_table s.context w m.target
      on_goal 2 => simp [unknown] at obscure
      obtain rfl : t = none := by simpa [unknown] using described
      have looked : ((liftM (table? s.context m.target) : Planning (Option PropertyTable)).run
          unread).run w = (.ok (none, unread), v) := run_bind_ok ran
      rw [StateT.run_bind, run_bind_ok looked]
      exact named _ _ v fun _ => rfl

theorem planWithin (fuel : Nat) :
    Planners l R q (planWithin ⟨h, c, columns, chain⟩ fuel) (planWithin ⟨k, d, columns, chain⟩ fuel) := by
  -- Sub-objects are planned with one less, by the planners that `planEntries` is given.
  induction fuel with
  | zero => exact fun _ _ _ _ => .throw _
  | succ fuel ih =>
    intro m m' trail kin
    rcases par.kin m m' kin with ⟨target, lead⟩ | ⟨unknown, lenient⟩
    · have owners : m.typeName = m'.typeName := by simp only [typeName, target]
      have trails : onTrail trail m = onTrail trail m' := by simp only [onTrail, target, lead]
      unfold ReflectiveMapper.planWithin
      rw [owners, trails, target, lead]
      split
      · refine (TogetherOver.liftSame _).bind_same fun owner => ?_
        exact (TogetherOver.throw (S := fun _ _ => False) _).bind fun _ _ never => never.elim
      · refine (TogetherOver.lift (par.table _)).bind fun o o' found => ?_
        obtain ⟨twins, listed⟩ := found
        rcases twins.cases with ⟨rfl, rfl⟩ | ⟨t, t', rfl, rfl, same⟩
        · refine (TogetherOver.liftSame _).bind_same fun owner => ?_
          exact .throw _
        · have properties := PropertyTable.twins_properties same
          dsimp only
          rw [← properties]
          refine (par.planEntries ih kin target lead _ (target ▸ listed t rfl)).bind fun es es' both => ?_
          rw [entries_isEmpty both]
          split
          · exact .pure ⟨rfl, by simp⟩
          · have plans := plans_ordered same both
            refine .pure ⟨foundTwins_some plans.1, ?_⟩
            rintro _ ⟨⟩
            exact plans.2
    · intro unread
      exact .of_fails lenient (planWithin_fails unknown _ trail unread)

theorem refuseLeftover {m m' : ReflectiveMapper} (target : m.target = m'.target)
    (lead : m.lead = m'.lead) (unread : List String) :
    Together l R (fun _ _ => True) (refuseLeftover c chain m unread)
      (refuseLeftover d chain m' unread) := by
  have owners : m.typeName = m'.typeName := by simp only [typeName, target]
  unfold ReflectiveMapper.refuseLeftover
  rw [owners, lead]
  refine par.settings.bind fun s s' same => ?_
  subst same
  split
  · refine (Together.liftSame _).bind_same fun left => ?_
    split
    · refine (Together.liftSame _).bind_same fun owner => ?_
      exact .throw _
    · exact .pure trivial
  · exact .pure trivial

omit par in
theorem plans_names {p p' : Plan} (same : Twins q.bound p p') : p.propertyNames = p'.propertyNames := by
  have names : ∀ r : Plan, (r.upTo q.bound).propertyNames = r.propertyNames := by
    rintro ⟨t, es⟩
    simp [Plan.upTo, Plan.propertyNames, Plan.entries, entriesUpTo_eq]
  rw [← names p, ← names p', show p.upTo q.bound = p'.upTo q.bound from same]

theorem specialize {m m' : ReflectiveMapper} (kin : q.kin m m') (columns : List String) :
    Together l R q.plans (m.specialize h c columns) (m'.specialize k d columns) := by
  unfold ReflectiveMapper.specialize
  refine par.settings.bind fun s s' same => ?_
  subst same
  refine Together.get.bind fun w v worlds => ?_
  rw [par.schema w v worlds]
  rcases par.kin m m' kin with ⟨target, lead⟩ | ⟨unknown, lenient⟩
  · have owners : m.typeName = m'.typeName := by simp only [typeName, target]
    refine (par.planWithin _ m m' [] kin columns).bind fun (o, unread) (o', _) both => ?_
    obtain ⟨⟨twins, good⟩, same⟩ := both
    cases same
    rcases twins.cases with ⟨rfl, rfl⟩ | ⟨p, p', rfl, rfl, same⟩
    · dsimp only
      rw [owners]
      refine (Together.liftSame _).bind_same fun owner => ?_
      exact .throw _
    · have names : p.propertyNames = p'.propertyNames := plans_names same
      dsimp only
      rw [owners, names]
      refine (par.refuseLeftover target lead _).bind fun _ _ _ => ?_
      refine (Together.liftSame _).bind fun owner _ same' => ?_
      subst same'
      exact (par.log _ _ _).bind fun _ _ _ => .pure ⟨same, good p rfl⟩
  · have failed := Together.of_fails (R := R) (S := fun _ _ => False) lenient
      (planWithin_fails (s := ⟨h, c, columns, s.chain⟩) unknown (trailBound v.schema columns) [] columns)
      (y := (ReflectiveMapper.planWithin ⟨k, d, columns, s.chain⟩ (trailBound v.schema columns) m' []).run
        columns)
    exact failed.bind fun _ _ never => never.elim

end Parallel
/-! ### Mapping -/

/-- Column mappers of a kind make the same of every column in corresponding contexts. -/
structure Applies (l : Leniency) (R : World → World → Prop) (good : ColumnMapper → Prop)
    (h k : Hooks) (c d : Context) : Prop where
  schema : ∀ w v, R w v → w.schema = v.schema
  column : ∀ m, good m → ∀ index, TogetherOver l R (· = ·) (m.apply h c index) (m.apply k d index)

section Reading

variable {l : Leniency} {R : World → World → Prop} {α β : Type}

theorem together_columnOf (index : Int) :
    TogetherOver l R (· = ·) (Reading.column index) (Reading.column index) := by
  refine TogetherOver.get.bind_same fun row => ?_
  refine (TogetherOver.liftSame _).bind_same fun read => ?_
  exact (TogetherOver.set _).bind fun _ _ _ => .pure rfl

theorem together_wasNull : TogetherOver l R (· = ·) Reading.wasNull Reading.wasNull :=
  TogetherOver.get.bind fun _ _ same => .pure (congrArg Row.wasNull same)

theorem together_requireIndex (i : Option Int) :
    TogetherOver l R (· = ·) (requireIndex i) (requireIndex i) := by
  cases i with
  | none => exact .throw _
  | some i => exact .pure rfl

theorem together_schema (schema : ∀ w v, R w v → w.schema = v.schema) {S : α → β → Prop}
    {f : World → Reading α} {g : World → Reading β}
    (next : ∀ w v, w.schema = v.schema → TogetherOver l R S (f w) (g v)) :
    TogetherOver l R S (getThe World >>= f) (getThe World >>= g) := by
  refine TogetherOver.bind (S := fun w v => w.schema = v.schema) ?_ next
  exact TogetherOver.lift (Together.get.mono schema)

theorem together_isNullMarked (marker : Option String) :
    TogetherOver l R (· = ·) (isNullMarked marker) (isNullMarked marker) := by
  cases marker with
  | none => exact .pure rfl
  | some marker =>
    refine TogetherOver.get.bind_same fun row => ?_
    dsimp only
    split
    · exact (together_columnOf _).bind fun _ _ _ => together_wasNull
    · exact .throw _

/-- The library's own column mappers read nothing of the world but the classes. -/
theorem together_library (schema : ∀ w v, R w v → w.schema = v.schema) (h k : Hooks) (c d : Context)
    {m : ColumnMapper} (library : m.Library) (index : Int) :
    TogetherOver l R (· = ·) (m.apply h c index) (m.apply k d index) := by
  refine together_schema schema fun w v same => ?_
  dsimp only
  rw [same]
  cases m with
  | value origin target =>
    refine (together_columnOf _).bind_same fun x => ?_
    exact .liftSame _
  | array serial container origin element =>
    refine (together_columnOf _).bind_same fun x => ?_
    split
    · exact .pure rfl
    · split
      · exact .liftSame _
      · exact .throw _
  | raw => exact together_columnOf _
  | custom | misplaced => contradiction

theorem together_entries {h k : Hooks} {c d : Context} (table : PropertyTable) {es : List Entry}
    (each : ∀ e ∈ es, TogetherOver l R (· = ·) (e.2.apply h c) (e.2.apply k d)) (keywords : Keywords) :
    TogetherOver l R (· = ·) (applyEntries h c table es keywords)
      (applyEntries k d table es keywords) := by
  induction es generalizing keywords with
  | nil => exact .pure rfl
  | cons e es ih =>
    obtain ⟨p, source⟩ := e
    have rest := ih fun f hf => each f (List.mem_cons_of_mem _ hf)
    unfold applyEntries
    refine (each _ List.mem_cons_self).bind_same fun v => ?_
    refine together_wasNull.bind_same fun last => ?_
    split
    · exact .pure rfl
    · exact rest _

end Reading

namespace Applies

variable {l : Leniency} {R : World → World → Prop} {good : ColumnMapper → Prop} {h k : Hooks}
  {c d : Context} (applies : Applies l R good h k c d)
include applies

theorem plan {p : Plan} (reads : p.Reads good) :
    TogetherOver l R (· = ·) (p.apply h c) (p.apply k d) := by
  induction p using Plan.induct_nested with
  | step table es ih =>
  obtain ⟨each⟩ := reads
  have sources : ∀ e ∈ es, TogetherOver l R (· = ·) (e.2.apply h c) (e.2.apply k d) := by
    intro e he
    obtain ⟨p, source⟩ := e
    cases each _ he with
    | column own => exact applies.column _ own _
    | nested reads => exact ih p _ he reads
  unfold Plan.apply
  refine (together_isNullMarked _).bind_same fun marked => ?_
  split
  · exact .pure rfl
  · refine (together_entries table sources _).bind_same fun set => ?_
    split
    · exact .pure rfl
    · refine together_schema applies.schema fun w v same => ?_
      rw [same]
      exact .liftSame _

end Applies
end RowMapping
