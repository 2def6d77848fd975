import Mathlib.Data.List.Perm.Subperm
import RowMapping.Proofs.Mapper.Batches
import RowMapping.Proofs.Mapper.Nullness
import RowMapping.Proofs.Mapper.Plans
import RowMapping.Proofs.Schema.Described
import RowMapping.Proofs.Schema.Tabled
import RowMapping.Proofs.Session.Comes
import RowMapping.Proofs.Session.Reached

/-! Plans against their tables. Whatever column mappers a registry has, the entries of a plan are of
properties of its table, one for each at most, and so it is with the plans nested in it. -/
namespace RowMapping

open MappingM ReflectiveMapper

/-- The entries of the plan, and of the plans in it, are of distinct properties of the table. -/
inductive Plan.Tidy : Plan → Prop
  | mk {table : PropertyTable} {entries : List Entry} : (entries.map (·.1.name)).Nodup →
      (∀ e ∈ entries, e.1 ∈ table.properties) → (∀ p q, (p, .nested q) ∈ entries → Tidy q) →
        Tidy (.mk table entries)

/-- The plan has a table that its class may have, and entries for some of its properties; and the plans in it have
tables that the classes of their properties may have. -/
inductive Plan.Laid (tables : ClassRef → PropertyTable → Prop) : ClassRef → Plan → Prop
  | mk {cls : ClassRef} {table : PropertyTable} {entries : List Entry} : tables cls table →
      (entries.map (·.1)).Subperm table.properties →
      (∀ p q, (p, .nested q) ∈ entries → p.type.raw.class?.isSome) →
      (∀ p q inner, (p, .nested q) ∈ entries → p.type.raw.class? = some inner → Laid tables inner q) →
        Laid tables cls (.mk table entries)

theorem Plan.Laid.tidy {tables : ClassRef → PropertyTable → Prop} (regular : ∀ cls t, tables cls t → t.Regular)
    {cls : ClassRef} {plan : Plan} (laid : plan.Laid tables cls) : plan.Tidy := by
  induction laid with
  | @mk cls t entries table within classes _ deeper =>
    refine .mk ?_ (fun e member => List.Subperm.subset within (List.mem_map_of_mem member)) fun p q member => ?_
    · obtain ⟨ps, perm, sub⟩ := within
      have names := (perm.map (·.name)).nodup_iff.mp ((sub.map (·.name)).nodup (regular _ _ table).distinct)
      rw [List.map_map] at names
      exact names
    · obtain ⟨inner, named⟩ := Option.isSome_iff_exists.mp (classes p q member)
      exact deeper p q inner member named

def Plan.LaidFor (tables : ClassRef → PropertyTable → Prop) (raw : RawType) (plan : Plan) : Prop :=
  ∃ cls, raw.class? = some cls ∧ plan.Laid tables cls

/-- Planning keeps worlds of a kind, in which classes have some tables. -/
structure Lays (I : World → Prop) (h : Hooks) (c : Context) (tables : ClassRef → PropertyTable → Prop) : Prop where
  log : ∀ level logger text, Yields I (fun _ => True) (log level logger text)
  table : ∀ raw, Yields I (fun o => ∀ t ∈ o, ∃ cls, raw.class? = some cls ∧ tables cls t) (table? c raw)
  column : ∀ key, Yields I (fun _ => True) (Registry.findColumn h c key)
  child : ∀ m p, Yields I (fun _ => True) (child m p)

section Planning

variable {I : World → Prop} {tables : ClassRef → PropertyTable → Prop} {h : Hooks} {c : Context}

def EntryLaid (tables : ClassRef → PropertyTable → Prop) (p : Property) (o : Option Entry) : Prop :=
  ∀ e ∈ o, e.1 = p ∧ ∀ q, e.2 = .nested q → q.LaidFor tables p.type.raw

def PlannerLaid (I : World → Prop) (tables : ClassRef → PropertyTable → Prop) (plan : Planner) : Prop :=
  ∀ m trail, YieldsOver I (fun o => ∀ q ∈ o, q.LaidFor tables m.target) (plan m trail)

theorem entryLaid_none (p : Property) : EntryLaid tables p none := by rintro _ ⟨⟩

theorem Lays.child_class (lays : Lays I h c tables) (m : ReflectiveMapper) (p : Property) :
    Yields I (fun k => k.target.class? = p.type.raw.class?) (ReflectiveMapper.child m p) := by
  intro w here
  refine ⟨(lays.child m p w here).1, ?_⟩
  obtain ⟨serial, q, v, ran, one, _⟩ := run_child m p w
  rw [ran]
  rintro _ ⟨⟩
  rcases property_class one with same | ⟨unnamed, unnamed'⟩
  · exact congrArg RawType.class? same
  · exact unnamed.trans unnamed'.symm

variable {s : Scope} (lays : Lays I s.hooks s.context tables)
include lays

theorem Lays.fallbackMapper (owner : String) (p : Property) : Yields I (fun _ => True) (fallbackMapper s owner p) := by
  refine (yields_settings _).bind fun st _ => ?_
  split
  · exact (Yields.throw (Q := fun _ => True) _).bind fun _ _ => (lays.log _ _ _).bind fun _ _ => .pure trivial
  · exact (lays.log _ _ _).bind fun _ _ => .pure trivial

theorem Lays.planColumn (m : ReflectiveMapper) (p : Property) :
    YieldsOver I (EntryLaid tables p) (planColumn s m p) := by
  have planned : ∀ mapper i, EntryLaid tables p (some (p, .column mapper i)) := by
    rintro mapper i _ ⟨⟩
    refine ⟨rfl, ?_⟩
    rintro _ ⟨⟩
  refine (YieldsOver.lift (Yields.lift _)).bind fun owner _ => ?_
  refine (YieldsOver.lift (Yields.lift _)).bind fun found _ => ?_
  cases found with
  | none => exact .pure (entryLaid_none p)
  | some i =>
    refine (YieldsOver.lift (lays.column _)).bind fun o _ => ?_
    cases o with
    | some mapper =>
      refine (YieldsOver.pure (Q := fun _ => True) trivial).bind fun mapper _ => ?_
      exact (YieldsOver.modify _).bind fun _ _ => .pure (planned mapper i)
    | none =>
      refine (YieldsOver.lift (lays.fallbackMapper owner p)).bind fun mapper _ => ?_
      exact (YieldsOver.modify _).bind fun _ _ => .pure (planned mapper i)

theorem Lays.planNested {plan : Planner} (laid : PlannerLaid I tables plan) (m : ReflectiveMapper) (trail : Trail)
    (p : Property) (nested : String) : YieldsOver I (EntryLaid tables p) (planNested s plan m trail p nested) := by
  refine (YieldsOver.lift (Yields.lift _)).bind fun under _ => ?_
  split
  · refine (YieldsOver.lift (Yields.lift _)).bind fun _ _ => ?_
    exact (YieldsOver.lift (lays.log _ _ _)).bind fun _ _ => .pure (entryLaid_none p)
  · split
    · split
      · exact .throw _
      · exact .throw _
    · refine (YieldsOver.lift (lays.child_class m p)).bind fun made target => ?_
      refine (laid made trail).bind fun planned own => .pure ?_
      rintro e member
      obtain ⟨q, known, rfl⟩ := Option.map_eq_some_iff.mp member
      refine ⟨rfl, ?_⟩
      rintro _ ⟨⟩
      obtain ⟨cls, named, inner⟩ := own q known
      exact ⟨cls, target ▸ named, inner⟩

theorem Lays.planEntries {plan : Planner} (laid : PlannerLaid I tables plan) (m : ReflectiveMapper) (trail : Trail)
    (ps : List Property) :
    YieldsOver I
      (fun es => (es.map (·.1)).Sublist ps ∧ ∀ p q, (p, .nested q) ∈ es → q.LaidFor tables p.type.raw)
      (ReflectiveMapper.planEntries s plan m trail ps) := by
  induction ps with
  | nil => exact .pure ⟨.refl _, by rintro _ _ ⟨⟩⟩
  | cons p ps ih =>
    have more : ∀ o, EntryLaid tables p o → YieldsOver I
        (fun es => (es.map (·.1)).Sublist (p :: ps) ∧ ∀ p q, (p, .nested q) ∈ es → q.LaidFor tables p.type.raw)
        (do return o.toList ++ (← ReflectiveMapper.planEntries s plan m trail ps)) := by
      intro o own
      refine ih.bind fun es planned => .pure ?_
      obtain ⟨sub, each⟩ := planned
      cases o with
      | none => exact ⟨sub.trans (List.sublist_cons_self p ps), each⟩
      | some e =>
        obtain ⟨rfl, here⟩ := own e rfl
        refine ⟨sub.cons_cons e.1, fun p q member => ?_⟩
        rcases List.mem_cons.mp member with same | old
        · cases same
          exact here q rfl
        · exact each p q old
    unfold ReflectiveMapper.planEntries
    split
    · intro unread
      exact (ih unread).mono fun r planned => ⟨planned.1.trans (List.sublist_cons_self p ps), planned.2⟩
    · split
      · exact (lays.planColumn m p).bind more
      · exact (lays.planNested laid m trail p _).bind more

theorem Lays.planWithin (fuel : Nat) : PlannerLaid I tables (planWithin s fuel) := by
  -- Nested plans are made with one less, by the planner that `planEntries` is given.
  induction fuel with
  | zero => exact fun _ _ => .throw _
  | succ fuel ih =>
    intro m trail
    unfold ReflectiveMapper.planWithin
    split
    · refine (YieldsOver.lift (Yields.lift _)).bind fun _ _ => ?_
      exact (YieldsOver.throw (Q := fun _ => False) _).bind fun _ never => never.elim
    · refine (YieldsOver.lift (lays.table _)).bind fun table known => ?_
      cases table with
      | none => exact (YieldsOver.lift (Yields.lift _)).bind fun _ _ => .throw _
      | some t =>
        obtain ⟨cls, named, own⟩ := known t rfl
        refine (lays.planEntries ih m _ _).bind fun es planned => ?_
        obtain ⟨sub, each⟩ := planned
        split
        · exact .pure (by rintro _ ⟨⟩)
        · refine .pure ?_
          rintro _ ⟨⟩
          have perm := ordered_perm es
          refine ⟨cls, named, .mk own ((perm.map _).subperm_right.mpr sub.subperm) ?_ ?_⟩
          · intro p q member
            obtain ⟨inner, own, _⟩ := each p q (perm.mem_iff.mp member)
            exact Option.isSome_iff_exists.mpr ⟨inner, own⟩
          · intro p q inner member own
            obtain ⟨inner', own', laid⟩ := each p q (perm.mem_iff.mp member)
            cases own.symm.trans own'
            exact laid

end Planning

theorem Lays.specialize {I : World → Prop} {tables : ClassRef → PropertyTable → Prop} {h : Hooks} {c : Context}
    (lays : Lays I h c tables) (m : ReflectiveMapper) (columns : List String) :
    Yields I (Plan.LaidFor tables m.target) (m.specialize h c columns) := by
  refine (yields_settings c).bind fun st _ => Yields.get.bind fun w _ => ?_
  have planned := Lays.planWithin (s := ⟨h, c, columns, st.chain⟩) lays (trailBound w.schema columns) m [] columns
  refine planned.bind fun r laid => ?_
  obtain ⟨o, unread⟩ := r
  cases o with
  | none => exact (Yields.lift _).bind fun _ _ => .throw _
  | some p =>
    refine (yields_refuseLeftover c st.chain m unread).bind fun _ _ => (Yields.lift _).bind fun _ _ => ?_
    exact (lays.log _ _ _).bind fun _ _ => .pure (laid p rfl)

/-! ### Sessions -/

theorem Leads.reached {s : Schema} {α : Type} {x : MappingM α} (leads : Leads Onward x) :
    Yields (Reached s) (fun _ => True) x :=
  fun w reached => ⟨reached.onward (leads w), fun _ _ => trivial⟩

/-- Tables that a session looks up list distinct properties. -/
theorem lays_reached (s : Schema) (depth : Nat) (c : Context) :
    Lays (Reached s) (Session.hooks depth) c fun _ t => t.Regular where
  log level logger text := Leads.reached (Onward.course.log level logger text)
  table raw := by
    intro w reached
    refine ⟨reached.onward (Onward.course.table? c raw w), ?_⟩
    obtain ⟨v, ran, _⟩ := run_table_for c raw w
    rw [ran]
    rintro _ looked t ⟨⟩
    obtain ⟨cls, named, found⟩ := Option.bind_eq_some_iff.mp (World.consult_some looked)
    exact ⟨cls, named, (World.regular_of_reached reached).tableFor found⟩
  column key :=
    have lookup : Registry.Lead Onward (Session.hooks depth) := Onward.lookups depth
    Leads.reached (lookup.findColumn c key)
  child m p := Leads.reached (Onward.course.child m p)

theorem specialize_tidy {s : Schema} {w v : World} (reached : Reached s w) {depth : Nat} {c : Context}
    {m : ReflectiveMapper} {columns : List String} {plan : Plan}
    (specialized : (m.specialize (Session.hooks depth) c columns).run w = (.ok plan, v)) : plan.Tidy := by
  have result := ((lays_reached s depth c).specialize m columns w reached).2 plan
  rw [specialized] at result
  obtain ⟨cls, _, laid⟩ := result rfl
  exact laid.tidy fun _ _ regular => regular

theorem run_liftOver {σ α β : Type} {x : MappingM α} {f : α → StateT σ MappingM β} {w u : World} {a : α}
    (first : x.run w = (.ok a, u)) (s : σ) :
    ((liftM x >>= f : StateT σ MappingM β).run s).run w = ((f a).run s).run u := by
  have lifted : ((liftM x : StateT σ MappingM α).run s).run w = (.ok (a, s), u) := run_bind_ok first
  exact run_bind_ok lifted

/-- The plan of a mapper has the table that the class of its type has, or would get. -/
theorem planWithin_table {s : Scope} {fuel : Nat} {m : ReflectiveMapper} {trail : Trail} {unread rest : List String}
    {plan : Plan} {w v : World}
    (planned : ((planWithin s fuel m trail).run unread).run w = (.ok (some plan, rest), v)) :
    m.target.class?.bind (w.tableFor s.context) = some plan.table := by
  have never : ∀ {x : Planning (Option Plan)} {u : World},
      ComesOver (fun _ => True) (fun _ => True) (fun _ => True) (fun _ => False) x →
        (x.run unread).run u ≠ (.ok (some plan, rest), v) :=
    fun comes ran => (comes.returned trivial trivial ran).1
  cases fuel with
  | zero => cases planned
  | succ fuel =>
    unfold planWithin at planned
    split at planned
    · refine absurd planned (never ?_)
      exact (ComesOver.anything _).bind fun _ _ =>
        (ComesOver.throw (Q := fun _ => False) trivial).bind fun _ impossible => impossible.elim
    · obtain ⟨u, looked, _⟩ := run_table_for s.context m.target w
      dsimp only at planned
      rcases told : w.consult s.context m.target with e | _ | t <;> rw [told] at looked
      · have failed : ((liftM (table? s.context m.target) : Planning (Option PropertyTable)).run unread).run w =
            (.error e, u) := run_bind_error looked
        cases (run_bind_error failed).symm.trans planned
      · rw [run_liftOver looked] at planned
        exact absurd planned (never ((ComesOver.anything _).bind fun _ _ => .throw trivial))
      · rw [run_liftOver looked] at planned
        rw [World.consult_some told]
        refine (ComesOver.returned (I := fun _ => True) (E := fun _ => True) (T := fun _ => True)
          (Q := fun o : Option Plan => ∀ q ∈ o, some t = some q.table) ?_ trivial trivial planned).1 plan rfl
        refine (ComesOver.anything _).bind fun es _ => ?_
        split
        · exact .pure (by rintro _ ⟨⟩)
        · refine .pure ?_
          rintro _ ⟨⟩
          rfl

theorem specialize_table {h : Hooks} {c : Context} {m : ReflectiveMapper} {columns : List String} {w v : World}
    {plan : Plan} (specialized : (m.specialize h c columns).run w = (.ok plan, v)) :
    m.target.class?.bind (w.tableFor c) = some plan.table := by
  have read : (settings c).run w = (.ok ((w.settings[c.settings]?).getD default), w) := rfl
  unfold ReflectiveMapper.specialize at specialized
  rw [run_bind_ok read, run_bind_ok (run_get w)] at specialized
  generalize trailBound w.schema columns = bound at specialized
  rcases planned : ((planWithin ⟨h, c, columns, ((w.settings[c.settings]?).getD default).chain⟩ bound m []).run
    columns).run w with ⟨e | ⟨_ | p, unread⟩, u⟩
  · cases (run_bind_error planned).symm.trans specialized
  · rw [run_bind_ok planned] at specialized
    refine (Comes.returned (I := fun _ => True) (E := fun _ => True) (Q := fun _ => False) ?_ trivial
      specialized).elim
    exact (Comes.anything _).bind fun _ _ => .throw trivial
  · rw [planWithin_table planned]
    rw [run_bind_ok planned] at specialized
    refine congrArg (some ·.table) (Comes.returned (I := fun _ => True) (E := fun _ => True)
      (Q := fun q => p = q) ?_ trivial specialized)
    refine (Comes.anything _).bind fun _ _ => (Comes.anything _).bind fun _ _ => ?_
    exact (Comes.anything _).bind fun _ _ => .pure rfl

theorem Plan.Tidy.contained {plan q : Plan} (tidy : plan.Tidy) (inside : plan.Contains q) : q.Tidy := by
  refine inside.inherits (P := Plan.Tidy) ?_ tidy
  rintro _ _ _ ⟨_, _, nested⟩ member
  exact nested _ _ member

end RowMapping
