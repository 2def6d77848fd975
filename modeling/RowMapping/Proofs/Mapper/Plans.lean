import RowMapping.Proofs.Registry.Library

/-! Plans that specialization makes in a context with the library's column mappers. Their tables are
regular, their columns are among those of the rows, and a nested plan reads something. -/
namespace RowMapping

open MappingM ReflectiveMapper

mutual

inductive Plan.Fit (n : Nat) : Plan → Prop
  | mk {table : PropertyTable} {entries : List Entry} : table.Regular →
      (entries.map (·.1.name)).Nodup → (∀ e ∈ entries, PlanSource.Fit n e.2) →
        Plan.Fit n (.mk table entries)

inductive PlanSource.Fit (n : Nat) : PlanSource → Prop
  | column {mapper : ColumnMapper} {index : Nat} : mapper.Library → index < n →
      PlanSource.Fit n (.column mapper index)
  | nested {plan : Plan} : plan.Fit n → plan.entries ≠ [] → PlanSource.Fit n (.nested plan)

end

theorem searchFrom_lt {chain : MatcherChain} {name label : String} {columns : List String}
    {i index n : Nat} {found : Option (Nat × String)} (known : ∀ e, found = some e → e.1 < n)
    (fits : i + columns.length ≤ n)
    (searched : chain.searchFrom name label columns i found = .ok (some index)) : index < n := by
  induction columns generalizing i found with
  | nil =>
    simp only [MatcherChain.searchFrom, Except.ok.injEq, Option.map_eq_some_iff] at searched
    obtain ⟨e, he, rfl⟩ := searched
    exact known e he
  | cons c cs ih =>
    rw [List.length_cons] at fits
    simp only [MatcherChain.searchFrom] at searched
    cases accepted : chain.accepts c name with
    | error e => rw [accepted] at searched; contradiction
    | ok b =>
      rw [accepted] at searched
      cases b with
      | false => exact ih known (by omega) searched
      | true =>
        cases found with
        | some first => contradiction
        | none =>
          refine ih (fun e he => ?_) (by omega) searched
          cases he
          omega

theorem MatcherChain.find_lt {chain : MatcherChain} {name : String} {columns : List String}
    {label : Option String} {index : Nat} (found : chain.find name columns label = .ok (some index)) :
    index < columns.length := searchFrom_lt (by rintro _ ⟨⟩) (by omega) found

section Planning

variable {s : Scope}

/-- The property stands for itself and is read from where a row of the scope has it. -/
def EntryFit (n : Nat) (p : Property) (o : Option Entry) : Prop :=
  ∀ e, o = some e → e.1 = p ∧ e.2.Fit n

theorem entryFit_none (n : Nat) (p : Property) : EntryFit n p none := by
  rintro e ⟨⟩

theorem yields_settings {I : World → Prop} (c : Context) : Yields I (fun _ => True) (settings c) :=
  Yields.get.bind fun _ _ => Yields.pure trivial

theorem fallbackMapper_library (owner : String) (p : Property) (i : Nat) :
    Yields (World.Furnished i) ColumnMapper.Library (fallbackMapper s owner p) := by
  refine (yields_settings _).bind fun st _ => ?_
  have told := World.Furnished.log (i := i) .warning .mapping ("No column mapper for " ++ owner ++ "."
    ++ p.name ++ " of type " ++ p.type.text ++ "; using raw column values")
  split
  · exact (Yields.throw _).bind fun _ (_ : True) => told.bind fun _ _ => Yields.pure trivial
  · exact told.bind fun _ _ => Yields.pure trivial

theorem planColumn_fit (m : ReflectiveMapper) (p : Property) :
    YieldsOver (World.Furnished s.context.registry) (EntryFit s.columns.length p)
      (planColumn s m p) := by
  refine (YieldsOver.lift (Yields.lift _)).bind fun owner _ => ?_
  refine (YieldsOver.lift (Yields.lift _)).bind fun found searched => ?_
  cases found with
  | none => exact YieldsOver.pure (entryFit_none _ p)
  | some index =>
    have bound := MatcherChain.find_lt searched
    have planned : ∀ mapper : ColumnMapper, mapper.Library →
        EntryFit s.columns.length p (some (p, .column mapper index)) := by
      intro mapper own e he
      cases he
      exact ⟨rfl, .column own bound⟩
    have lookup := World.Furnished.findColumnAs s.hooks s.context p.type.boxed p.type.boxed.nullable
    refine (YieldsOver.lift lookup).bind fun found own => ?_
    cases found with
    | some mapper =>
      refine (YieldsOver.pure (own mapper rfl)).bind fun m hm => ?_
      exact (YieldsOver.modify _).bind fun _ _ => YieldsOver.pure (planned m hm)
    | none =>
      refine (YieldsOver.lift (fallbackMapper_library owner p _)).bind fun m hm => ?_
      exact (YieldsOver.modify _).bind fun _ _ => YieldsOver.pure (planned m hm)

theorem child_furnished (m : ReflectiveMapper) (p : Property) (i : Nat) :
    Yields (World.Furnished i) (fun _ => True) (child m p) := by
  unfold child
  refine Yields.get.bind fun w _ => ?_
  split
  · exact Yields.pure trivial
  · refine World.Furnished.fresh.bind fun _ _ => ?_
    have noted : ∀ made : Child, Yields (World.Furnished i) (fun _ => True)
        (modify fun w => { w with children := w.children ++ [made] }) :=
      fun made => Leads.yields fun _ furnished => furnished.aside rfl rfl
    exact (noted _).bind fun _ _ => Yields.pure trivial

/-- What a planner makes fits the rows of the scope, and reads something where they have columns. -/
def PlannerFit (s : Scope) (plan : Planner) : Prop :=
  ∀ m trail, YieldsOver (World.Furnished s.context.registry)
    (fun o => ∀ q, o = some q → q.Fit s.columns.length ∧ (s.columns ≠ [] → q.entries ≠ []))
    (plan m trail)

theorem planNested_fit {plan : Planner} (fit : PlannerFit s plan) (m : ReflectiveMapper)
    (trail : Trail) (p : Property) (nested : String) :
    YieldsOver (World.Furnished s.context.registry) (EntryFit s.columns.length p)
      (planNested s plan m trail p nested) := by
  refine (YieldsOver.lift (Yields.lift _)).bind fun under _ => ?_
  split
  · refine (YieldsOver.lift (Yields.lift _)).bind fun _ _ => ?_
    refine (YieldsOver.lift (World.Furnished.log _ _ _)).bind fun _ _ => ?_
    exact YieldsOver.pure (entryFit_none _ p)
  · split
    · split
      · exact YieldsOver.throw _
      · exact YieldsOver.throw _
    · next within =>
      have columns : s.columns ≠ [] := by
        intro none
        exact within (by simp [outgrown, none])
      refine (YieldsOver.lift (child_furnished m p _)).bind fun made _ => ?_
      refine (fit made trail).bind fun planned hq => YieldsOver.pure ?_
      intro e he
      obtain ⟨q, known, rfl⟩ := Option.map_eq_some_iff.mp he
      obtain ⟨fits, reads⟩ := hq q known
      exact ⟨rfl, .nested fits (reads columns)⟩

theorem planEntries_fit {plan : Planner} (fit : PlannerFit s plan) (m : ReflectiveMapper)
    (trail : Trail) (ps : List Property) :
    YieldsOver (World.Furnished s.context.registry)
      (fun es => (es.map (·.1)).Sublist ps ∧ ∀ e ∈ es, e.2.Fit s.columns.length)
      (planEntries s plan m trail ps) := by
  induction ps with
  | nil => exact YieldsOver.pure ⟨List.Sublist.refl _, fun e he => absurd he List.not_mem_nil⟩
  | cons p ps ih =>
    have more : ∀ o, EntryFit s.columns.length p o → YieldsOver (World.Furnished s.context.registry)
        (fun es => (es.map (·.1)).Sublist (p :: ps) ∧ ∀ e ∈ es, e.2.Fit s.columns.length)
        (do return o.toList ++ (← planEntries s plan m trail ps)) := by
      intro o own
      refine ih.bind fun es planned => YieldsOver.pure ?_
      obtain ⟨sub, fits⟩ := planned
      cases o with
      | none => exact ⟨sub.trans (List.sublist_cons_self p ps), fits⟩
      | some e =>
        obtain ⟨rfl, fit⟩ := own e rfl
        refine ⟨sub.cons_cons e.1, fun e' he' => ?_⟩
        rcases List.mem_cons.mp he' with rfl | old
        · exact fit
        · exact fits e' old
    unfold planEntries
    split
    · intro w
      refine (ih w).mono fun r planned => ?_
      exact ⟨planned.1.trans (List.sublist_cons_self p ps), planned.2⟩
    · split
      · exact (planColumn_fit m p).bind more
      · exact (planNested_fit fit m trail p _).bind more

theorem tables_regular (c : Context) (i : Nat) :
    Yields (World.Furnished i) TableStore.Regular (tables c) := by
  intro w furnished
  refine ⟨furnished, ?_⟩
  rintro _ ⟨⟩
  cases store : w.tables[c.tables]? with
  | some t => exact furnished.tables t (List.mem_of_getElem? store)
  | none => exact fun e he => absurd he List.not_mem_nil

theorem derive_regular (c : Context) (cls : Class) (i : Nat) :
    Yields (World.Furnished i) (fun o => ∀ t, o = some t → t.Regular) (derive? c cls) := by
  unfold derive?
  refine Yields.get.bind fun w _ => Yields.get.bind fun v _ => (Yields.lift _).bind fun o told => ?_
  split
  · exact Yields.pure (by rintro _ ⟨⟩)
  · next t =>
    have new := PropertyTable.regular_ofClass (PropertyTable.describe_ok told).2
    have derived : Yields (World.Furnished i) (fun _ => True) (changeTables c (·.derive t)) := by
      refine Leads.yields fun w furnished => ⟨furnished.library, ?_⟩
      exact furnished.tables.modify c.tables fun _ old => old.derive new
    refine World.Furnished.fresh.bind fun _ _ => derived.bind fun _ _ => Yields.pure ?_
    rintro _ ⟨⟩
    exact new

theorem table_regular (c : Context) (raw : RawType) (i : Nat) :
    Yields (World.Furnished i) (fun o => ∀ t, o = some t → t.Regular) (table? c raw) := by
  refine (tables_regular c i).bind fun store regular => ?_
  dsimp only
  split
  · exact Yields.pure (by rintro _ ⟨⟩)
  · exact Yields.pure fun t found => regular.find found
  · refine Yields.get.bind fun w _ => ?_
    split
    · exact Yields.pure (by rintro _ ⟨⟩)
    · split
      · next t found =>
        exact Yields.pure (by rintro _ ⟨⟩; exact regular.find found)
      · exact derive_regular c _ i

theorem ordered_perm (es : List Entry) : (ordered es).Perm es := by
  have split := List.filter_append_perm (fun e : Entry => !e.1.propagatesNull) es
  simpa only [ordered, Bool.not_not] using split

theorem fit_ordered {t : PropertyTable} {es : List Entry} {n : Nat} (own : t.Regular)
    (sub : (es.map (·.1)).Sublist t.properties) (fits : ∀ e ∈ es, e.2.Fit n) :
    Plan.Fit n (.mk t (ordered es)) := by
  have perm := ordered_perm es
  have names := (sub.map (·.name)).nodup own.distinct
  rw [List.map_map] at names
  exact .mk own ((perm.map _).nodup_iff.mpr names) fun e he => fits e (perm.mem_iff.mp he)

theorem planWithin_fit (fuel : Nat) : PlannerFit s (planWithin s fuel) := by
  -- Sub-objects are planned with one less, by the planner that `planEntries` is given.
  induction fuel with
  | zero => exact fun _ _ => YieldsOver.throw _
  | succ fuel ih =>
    intro m trail
    unfold planWithin
    split
    · refine (YieldsOver.lift (Yields.lift _)).bind fun _ _ => ?_
      exact (YieldsOver.throw (Q := fun _ => False) _).bind fun _ never => never.elim
    · refine (YieldsOver.lift (table_regular _ _ _)).bind fun table regular => ?_
      cases table with
      | none => exact (YieldsOver.lift (Yields.lift _)).bind fun _ _ => YieldsOver.throw _
      | some t =>
        refine (planEntries_fit ih m _ _).bind fun es planned => ?_
        obtain ⟨sub, fits⟩ := planned
        split
        · exact YieldsOver.pure (by rintro _ ⟨⟩)
        · next reads =>
          refine YieldsOver.pure ?_
          rintro _ ⟨⟩
          refine ⟨fit_ordered (regular t rfl) sub fits, fun columns none => ?_⟩
          have empty : es = [] := List.Perm.eq_nil (none ▸ (ordered_perm es).symm)
          exact reads (by simp [empty, columns])

theorem yields_refuseLeftover {I : World → Prop} (c : Context) (chain : MatcherChain) (m : ReflectiveMapper)
    (unread : List String) : Yields I (fun _ => True) (refuseLeftover c chain m unread) := by
  refine (yields_settings c).bind fun st _ => ?_
  split
  · refine (Yields.lift _).bind fun left _ => ?_
    split
    · exact (Yields.lift _).bind fun _ _ => Yields.throw _
    · exact Yields.pure trivial
  · exact Yields.pure trivial

end Planning

/-- A plan that a context with built-in column factories makes fits the rows it was made for. -/
theorem specialize_fit (h : Hooks) {c : Context} {m : ReflectiveMapper} {columns : List String}
    {w v : World} {plan : Plan} (furnished : w.Furnished c.registry)
    (specialized : (m.specialize h c columns).run w = (.ok plan, v)) : plan.Fit columns.length := by
  have yields : Yields (World.Furnished c.registry) (Plan.Fit columns.length)
      (m.specialize h c columns) := by
    refine (yields_settings c).bind fun st _ => Yields.get.bind fun w _ => ?_
    refine (planWithin_fit (s := ⟨h, c, columns, st.chain⟩) _ m [] columns).bind fun r fits => ?_
    obtain ⟨planned, unread⟩ := r
    cases planned with
    | none => exact (Yields.lift _).bind fun _ _ => Yields.throw _
    | some p =>
      have fit := (fits p rfl).1
      refine (yields_refuseLeftover c _ m unread).bind fun _ _ => (Yields.lift _).bind fun _ _ => ?_
      exact (World.Furnished.log _ _ _).bind fun _ _ => Yields.pure fit
  have result := yields w furnished
  rw [specialized] at result
  exact result.2 plan rfl

end RowMapping
