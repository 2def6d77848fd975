import RowMapping.Proofs.Mapper.Parallel
import RowMapping.Proofs.Registry.ColumnCache
import RowMapping.Proofs.Registry.Stocked
import RowMapping.Proofs.Schema.Tabled

/-! Mapping many rows and mapping them one by one. Rows of one list of columns are mapped by one plan; a
plan made again for each of them, in whatever worlds the mappings before have led to, is the same. -/
namespace RowMapping

open MappingM ReflectiveMapper

theorem RawType.same_class {r t : RawType} (same : r.same t = true) :
    r = t ∧ r.class?.isSome ∨ r.class? = none ∧ t.class? = none := by
  cases r <;> cases t <;> simp_all [RawType.same, RawType.class?]

theorem property_class {p q : Property} (same : q = p ∨ q.same p = true) :
    q.type.raw = p.type.raw ∨ q.type.raw.class? = none ∧ p.type.raw.class? = none := by
  rcases same with rfl | same
  · exact .inl rfl
  · simp only [Property.same, Bool.and_eq_true] at same
    rcases RawType.same_class (Descriptor.same_iff.mp same.1.1.1.1.2).1 with ⟨equal, _⟩ | unknown
    · exact .inl equal
    · exact .inr unknown

theorem run_child (m : ReflectiveMapper) (p : Property) (w : World) :
    ∃ serial q v, (child m p).run w =
        (.ok ⟨serial, q.type.raw, Text.lower (m.lead ++ p.nested.getD "")⟩, v) ∧
      (q = p ∨ q.same p = true) ∧ v = { w with children := v.children, next := v.next } ∧
        w.next ≤ v.next := by
  unfold child
  rw [run_bind_ok (run_get w)]
  cases known : w.children.find? (fun e => e.parent.same m && e.property.same p) with
  | none => exact ⟨w.next, p, _, rfl, .inl rfl, rfl, Nat.le_succ _⟩
  | some e =>
    have found := List.find?_some known
    simp only [ReflectiveMapper.same, Property.same, Bool.and_eq_true, decide_eq_true_eq] at found
    refine ⟨e.serial, e.property, w, ?_, .inr ?_, rfl, le_rfl⟩
    · rw [← found.1.2, ← found.2.1.1.2]
      rfl
    · simp [Property.same, found]

/-- The second world is as good as the first for mapping in a context of built-in column factories: the
rows kept, the settings and the tables are the same, and the kept columns are what they should be. -/
structure World.Level (c : Context) (fs : List ColumnFactory) (w v : World) : Prop where
  stocked : v.Stocked w.schema fs c.registry
  settings : v.settings = w.settings
  rows : v.registries.map (·.rows) = w.registries.map (·.rows)
  tabled : w.Tabled 0 c c v

namespace World.Level

variable {c : Context} {fs : List ColumnFactory} {w v u : World}

theorem schema (level : w.Level c fs v) : v.schema = w.schema := level.stocked.schema

theorem searched (level : w.Level c fs v) (searched : v.Searched u)
    (stocked : u.Stocked w.schema fs c.registry) : w.Level c fs u := by
  have schema : u.schema = v.schema := by rw [searched.rest]
  have tables : u.tables = v.tables := by rw [searched.rest]
  have settings : u.settings = v.settings := by rw [searched.rest]
  refine ⟨stocked, settings.trans level.settings, searched.rows.trans level.rows, fun cls => ?_⟩
  exact (level.tabled cls).trans (tabled_of_tables schema tables (Nat.zero_le _) (Nat.zero_le _) c cls)

theorem consulted (level : w.Level c fs v) (consulted : v.Consulted u) : w.Level c fs u := by
  have schema : u.schema = v.schema := by rw [consulted.rest]
  have registries : u.registries = v.registries := by rw [consulted.rest]
  have settings : u.settings = v.settings := by rw [consulted.rest]
  refine ⟨level.stocked.of_registries schema registries, settings.trans level.settings, ?_, fun cls => ?_⟩
  · rw [registries, level.rows]
  · exact (level.tabled cls).trans (consulted.tabled 0 (Nat.zero_le _) c cls)

theorem aside (level : w.Level c fs v) (schema : u.schema = v.schema)
    (registries : u.registries = v.registries) (tables : u.tables = v.tables)
    (settings : u.settings = v.settings) : w.Level c fs u := by
  refine ⟨level.stocked.of_registries schema registries, settings.trans level.settings, ?_, fun cls => ?_⟩
  · rw [registries, level.rows]
  · exact (level.tabled cls).trans (tabled_of_tables schema tables (Nat.zero_le _) (Nat.zero_le _) c cls)

theorem log (level : w.Level c fs v) (severity : LogLevel) (logger : Logger) (text : String) :
    w.Level c fs ((MappingM.log severity logger text).run v).2 := by
  show w.Level c fs (if _ then _ else _)
  split
  · exact level.aside rfl rfl rfl rfl
  · exact level

end World.Level

theorem World.level_of_reached {s : Schema} {w : World} (reached : Reached s w) {c : Context} {r : Registry}
    (owned : w.registries[c.registry]? = some r) (library : ∀ f ∈ r.columns.factories, f.Library) :
    w.Level c r.columns.factories w :=
  ⟨World.stocked_of_coherent (World.coherent_of_reached reached) owned library, rfl, rfl, fun _ => .refl _⟩

def Leniency.ofFirst : Leniency := ⟨fun _ => True, fun _ => False⟩

/-- Library mappers correspond but for their numbers, and reflective mappers of one type under one lead. -/
def libraryKinship : Kinship where
  bound := 0
  kin m n := m.lead = n.lead ∧ (m.target = n.target ∨ m.target.class? = none)
  listed _ _ := True
  good := ColumnMapper.Library

section Level

variable {c : Context} {fs : List ColumnFactory} {w : World}

theorem Alike.twins {m n : ColumnMapper} (alike : Alike m n) : Twins 0 m n := by
  cases m <;> cases n <;> simp_all [Alike, Numbered.anonymous, Twins, Serial.upTo]

theorem FoundAlike.twins {o p : Option ColumnMapper} (alike : FoundAlike o p) : FoundTwins 0 o p := by
  cases p with
  | none => rw [foundAlike_none alike]; rfl
  | some n =>
    obtain ⟨m, rfl, same⟩ := foundAlike_some alike
    exact foundTwins_some same.twins

abbrev World.BothLevel (c : Context) (fs : List ColumnFactory) (w u v : World) : Prop :=
  w.Level c fs u ∧ w.Level c fs v

section Levels

variable {l : Leniency}

theorem levels_log (level : LogLevel) (logger : Logger) (text : String) :
    Together l (w.BothLevel c fs) (fun _ _ => True) (log level logger text) (log level logger text) :=
  fun _ _ levels => .inr ⟨trivial, levels.1.log _ _ _, levels.2.log _ _ _⟩

theorem levels_settings : Together l (w.BothLevel c fs) (· = ·) (settings c) (settings c) := by
  intro u v levels
  refine .inr ⟨?_, levels⟩
  show (u.settings[c.settings]?).getD default = (v.settings[c.settings]?).getD default
  rw [levels.1.settings, levels.2.settings]

theorem levels_table (raw : RawType) :
    Together l (w.BothLevel c fs)
      (fun o p => FoundTwins 0 o p ∧
        ∀ t ∈ o, ∃ cls, raw.class? = some cls ∧ FoundTwins 0 (w.tableFor c cls) (some t))
      (table? c raw) (table? c raw) := by
  intro u v levels
  obtain ⟨u', ranU, consultedU⟩ := run_table_for c raw u
  obtain ⟨v', ranV, consultedV⟩ := run_table_for c raw v
  rw [ranU, ranV]
  have twins : FoundTwins 0 (raw.class?.bind (u.tableFor c)) (raw.class?.bind (v.tableFor c)) := by
    cases raw.class? with
    | none => rfl
    | some cls => exact ((levels.1.tabled cls).symm).trans (levels.2.tabled cls)
  have schema : u.schema = v.schema := levels.1.schema.trans levels.2.schema.symm
  refine .inr ⟨(World.consult_outcomes schema twins).mono fun o p found => ⟨found.1, fun t known => ?_⟩,
    levels.1.consulted consultedU, levels.2.consulted consultedV⟩
  obtain ⟨cls, named, own⟩ := Option.bind_eq_some_iff.mp (found.2.trans known)
  exact ⟨cls, named, own ▸ levels.1.tabled cls⟩

theorem levels_findColumn (library : ∀ f ∈ fs, f.Library) (h : Hooks) (key : Descriptor) :
    Together l (w.BothLevel c fs) libraryKinship.columns (Registry.findColumn h c key)
      (Registry.findColumn h c key) := by
  intro u v levels
  have supplies := supplies_findColumnAs (s := w.schema) library h c key key.nullable
  obtain ⟨o, y, u', ranU, found, alike, stocked, searched⟩ := supplies u levels.1.stocked
  obtain ⟨p, z, v', ranV, found', alike', stocked', searched'⟩ := supplies v levels.2.stocked
  cases found.symm.trans found'
  unfold Registry.findColumn
  rw [ranU, ranV]
  refine .inr ⟨⟨FoundAlike.twins (alike.trans alike'.symm), ?_⟩, levels.1.searched searched stocked,
    levels.2.searched searched' stocked'⟩
  rintro m rfl
  obtain ⟨n, rfl, same⟩ := foundAlike_some alike.symm
  exact (findingAs_library library found n rfl).alike same.symm

end Levels

theorem parallel_level (library : ∀ f ∈ fs, f.Library) (h : Hooks) :
    Parallel .ofFirst (fun u v => w.Level c fs u ∧ w.Level c fs v) libraryKinship h h c c where
  schema u v level := level.1.schema.trans level.2.schema.symm
  log := levels_log
  settings := levels_settings
  table raw := (levels_table raw).mono fun _ _ found => ⟨found.1, fun _ _ _ _ => trivial⟩
  column := levels_findColumn library h
  child m n p kin _ _ _ u v levels := by
    obtain ⟨s, q, u', ranU, same, restU, nextU⟩ := run_child m p u
    obtain ⟨t, r, v', ranV, same', restV, nextV⟩ := run_child n p v
    rw [ranU, ranV]
    refine .inr ⟨⟨by rw [kin.1], ?_⟩, ?_, ?_⟩
    · have mine := property_class same
      have other := property_class same'
      rcases mine with mine | ⟨unknown, _⟩
      · rcases other with other | ⟨_, unknown⟩
        · exact .inl (mine.trans other.symm)
        · exact .inr (by rw [mine, unknown])
      · exact .inr unknown
    · exact levels.1.aside (by rw [restU]) (by rw [restU]) (by rw [restU]) (by rw [restU])
    · exact levels.2.aside (by rw [restV]) (by rw [restV]) (by rw [restV]) (by rw [restV])
  kin m n kin := by
    rcases kin with ⟨lead, target | unknown⟩
    · exact .inl ⟨target, lead⟩
    · exact .inr ⟨unknown, fun _ => trivial⟩
  raw := trivial

end Level
/-! ### Mappers that depend on the row alone -/

/-- What the computation makes of a row depends on the classes only, and the world stays as it is. -/
def Steady {α : Type} (x : Reading α) : Prop :=
  ∀ row (u v : World), u.schema = v.schema →
    ∃ r, (x.run row).run u = (r, u) ∧ (x.run row).run v = (r, v)

theorem steady_of_together {α : Type} {x : Reading α}
    (together : ∀ R : World → World → Prop, (∀ u v, R u v → u.schema = v.schema) →
      TogetherOver .strict R (· = ·) x x) : Steady x := by
  intro row u v schema
  have here : ∀ a b : World, a = u ∧ b = v → a.schema = b.schema := by
    rintro _ _ ⟨rfl, rfl⟩
    exact schema
  obtain ⟨outcomes, one, other⟩ := (together (fun a b => a = u ∧ b = v) here row).related ⟨rfl, rfl⟩
  have same := Outcomes.eq (outcomes.mono fun _ _ both => Prod.ext both.1 both.2)
  exact ⟨_, Prod.ext rfl one, Prod.ext same.symm other⟩

theorem steady_column (h : Hooks) (c : Context) {m : ColumnMapper} (library : m.Library) (index : Int) :
    Steady (m.apply h c index) :=
  steady_of_together fun _ schema => together_library schema h h c c library index

theorem steady_plan (h : Hooks) (c : Context) {p : Plan} (reads : p.Reads ColumnMapper.Library) :
    Steady (p.apply h c) :=
  steady_of_together fun R schema =>
    Applies.plan (R := R) ⟨schema, fun _ own index => together_library schema h h c c own index⟩ reads

/-! ### Rows in a batch -/

section Batch

variable {h : Hooks} {c : Context}

def outcome (x : Reading Value) (w : World) (row : Row) : Except Failure Value :=
  ((x.run row).run w).1.map (·.1)

theorem run'_run (x : Reading Value) (w : World) (row : Row) :
    (x.run' row).run w = (outcome x w row, ((x.run row).run w).2) := by
  rw [StateT.run'_eq, map_eq_pure_bind, run_bind, outcome]
  rcases (x.run row).run w with ⟨_ | _, v⟩ <;> rfl

theorem Steady.outcome_eq {x : Reading Value} (steady : Steady x) {u v : World}
    (schema : u.schema = v.schema) (row : Row) : outcome x u row = outcome x v row := by
  obtain ⟨r, ranU, ranV⟩ := steady row u v schema
  rw [outcome, outcome, ranU, ranV]

theorem mapRows_ready {ready : RowMapper} (steady : Steady (ready.apply h c)) (m : RowMapper)
    {u v : World} (schema : u.schema = v.schema) (rows : List Row) :
    (mapRows h c (some ready) m rows).run u =
      (rows.mapM (outcome (ready.apply h c) v), u) := by
  induction rows with
  | nil => rfl
  | cons row rows ih =>
    obtain ⟨r, ranU, ranV⟩ := steady row u v schema
    have first : outcome (ready.apply h c) v row = r.map (·.1) := by rw [outcome, ranV]
    unfold mapRows
    rw [run_bind_ok (x := pure ready) (a := ready) rfl, List.mapM_cons, first]
    cases r with
    | error e => exact run_bind_error ranU
    | ok a =>
      rw [run_bind_ok ranU]
      show ((mapRows h c (some ready) m rows >>= fun vs => pure (a.1 :: vs)).run u) = _
      rw [run_bind, ih]
      cases rows.mapM (outcome (ready.apply h c) v) <;> rfl

theorem mapRows_first {m ready : RowMapper} {row : Row} {w u : World}
    (specialized : (m.specialize h c row.columns).run w = (.ok ready, u)) (rows : List Row) :
    (mapRows h c none m (row :: rows)).run w = (mapRows h c (some ready) m (row :: rows)).run u := by
  unfold mapRows
  exact run_bind_ok specialized

theorem mapRows_unspecialized {m : RowMapper} {row : Row} {w u : World} {e : Failure}
    (failed : (m.specialize h c row.columns).run w = (.error e, u)) (rows : List Row) :
    (mapRows h c none m (row :: rows)).run w = (.error e, u) := by
  unfold mapRows
  exact run_bind_error failed

end Batch
/-! ### Plans made again -/

section Again

variable {c : Context} {fs : List ColumnFactory} {w : World} {h : Hooks}

theorem ColumnMapper.Library.stateless {m : ColumnMapper} (library : m.Library) : m.Stateless := by
  cases m with
  | value | array | raw => trivial
  | custom | misplaced => contradiction

/-- A mapper specialized once is specialized to the same plan later. -/
theorem specialize_again (library : ∀ f ∈ fs, f.Library) {m : ReflectiveMapper} {columns : List String}
    {p : Plan} {v : World} (here : w.Level c fs w)
    (specialized : (m.specialize h c columns).run w = (.ok p, v)) {u : World} (level : w.Level c fs u) :
    ∃ p' u', (m.specialize h c columns).run u = (.ok p', u') ∧ w.Level c fs u' ∧
      p.Reads ColumnMapper.Library ∧ p'.apply h c = p.apply h c := by
  have kin : libraryKinship.kin m m := ⟨rfl, .inl rfl⟩
  have together := (parallel_level library h).specialize kin columns w u ⟨here, level⟩
  rw [specialized] at together
  rcases ran : (m.specialize h c columns).run u with ⟨e | p', u'⟩ <;> rw [ran] at together
  · rcases together with (⟨_, never, _⟩ | ⟨_, _, never⟩) | ⟨never, _⟩ <;> contradiction
  · rcases together with (⟨_, never, _⟩ | ⟨_, never, _⟩) | ⟨⟨twins, reads⟩, _, after⟩
    · contradiction
    · contradiction
    · have stateless := reads.mono fun _ own => own.stateless
      exact ⟨p', u', rfl, after, reads, (Plan.apply_twin h c stateless twins).symm⟩

end Again

theorem run_requireRow {h : Hooks} {c : Context} {key : Descriptor} {m : RowMapper} {w v : World}
    (resolved : (Registry.requireRow h c key).run w = (.ok m, v)) :
    (Registry.findRow h c key).run w = (.ok (some m), v) := by
  unfold Registry.requireRow at resolved
  rw [run_bind] at resolved
  rcases ran : (Registry.findRow h c key).run w with ⟨e | _ | n, u⟩ <;> rw [ran] at resolved
  · cases resolved
  · cases resolved
  · cases resolved
    rfl

theorem findRow_kept {depth : Nat} {c : Context} {key : Descriptor} {m : RowMapper} {w v : World}
    (found : (Registry.findRow (Session.hooks depth) c key).run w = (.ok (some m), v))
    (one : key.same key = true) :
    ∃ t, v.registries[c.registry]? = some t ∧ t.rows.cached? key = some m := by
  cases known : w.registries[c.registry]? with
  | none =>
    rw [findRow_unknown known] at found
    cases found
  | some r =>
    cases hit : r.rows.cached? key with
    | some n =>
      rw [findRow_hit known hit] at found
      cases found
      exact ⟨r, known, hit⟩
    | none =>
      have led := World.course_grown.buildRow (World.grown_hooks depth).1
        ((World.grown_hooks depth).2.column c) key r.rows.factories w
      rcases built : (Registry.buildRow (Session.hooks depth) c key r.rows.factories).run w with
        ⟨e | o, u⟩ <;> rw [built] at led
      · rw [findRow_failed known hit built] at found
        cases found
      · rw [findRow_miss known hit built] at found
        cases found
        obtain ⟨t, present, _, _⟩ := led.registries known
        exact ⟨_, recordRow_keeps present m, t.rows.cached_store m one⟩

/-- A type that was resolved is found again wherever the same row mappers are kept. -/
theorem requireRow_again {depth : Nat} {c : Context} {key : Descriptor} {m : RowMapper} {w v : World}
    (resolved : (Registry.requireRow (Session.hooks depth) c key).run w = (.ok m, v))
    (one : key.same key = true) {u : World}
    (rows : u.registries.map (·.rows) = v.registries.map (·.rows)) :
    (Registry.requireRow (Session.hooks depth) c key).run u = (.ok m, u) := by
  obtain ⟨t, present, kept⟩ : ∃ t, v.registries[c.registry]? = some t ∧ t.rows.cached? key = some m :=
    findRow_kept (run_requireRow resolved) one
  have chain : (u.registries.map (·.rows))[c.registry]? = some t.rows := by
    rw [rows, List.getElem?_map, present]
    rfl
  rw [List.getElem?_map, Option.map_eq_some_iff] at chain
  obtain ⟨r, known, same⟩ := chain
  have hit := findRow_hit (h := Session.hooks depth) known (same ▸ kept)
  exact run_bind_ok hit

/-! ### Batches and single rows -/

section Single

variable {h : Hooks} {c : Context} {key : Descriptor}

theorem run_mapOne {m : RowMapper} {w v : World} (resolved : (Registry.requireRow h c key).run w = (.ok m, v))
    (row : Row) : (Session.mapOne h c key row).run w =
      (outcome (m.apply h c) v row, (((m.apply h c).run row).run v).2) := by
  unfold Session.mapOne
  rw [run_bind_ok resolved, run'_run]

theorem run_mapMany {m : RowMapper} {w v : World}
    (resolved : (Registry.requireRow h c key).run w = (.ok m, v)) (rows : List Row) :
    (Session.mapMany h c key rows).run w = (mapRows h c none m rows).run v :=
  run_bind_ok resolved

theorem apply_reflective {m : ReflectiveMapper} {row : Row} {w v : World} {p : Plan}
    (specialized : (m.specialize h c row.columns).run w = (.ok p, v)) :
    ((RowMapper.apply h c (.reflective m)).run row).run w = ((p.apply h c).run row).run v := by
  have ran : ((liftM (m.specialize h c row.columns) : Reading Plan).run row).run w =
      (.ok (p, row), v) := run_bind_ok specialized
  exact run_bind_ok ran

theorem apply_unspecialized {m : ReflectiveMapper} {row : Row} {w v : World} {e : Failure}
    (failed : (m.specialize h c row.columns).run w = (.error e, v)) :
    ((RowMapper.apply h c (.reflective m)).run row).run w = (.error e, v) := by
  have ran : ((liftM (m.specialize h c row.columns) : Reading Plan).run row).run w = (.error e, v) :=
    run_bind_error failed
  exact run_bind_error ran

/-- A batch comes to what its rows come to, by a mapper that depends on the row alone. -/
theorem mapRows_steady {m ready : RowMapper} {columns : List String} {w u : World}
    (specialized : (m.specialize h c columns).run w = (.ok ready, u)) (steady : Steady (ready.apply h c))
    {rows : List Row} (alike : ∀ row ∈ rows, row.columns = columns) :
    ((mapRows h c none m rows).run w).1 = rows.mapM (outcome (ready.apply h c) u) := by
  cases rows with
  | nil => rfl
  | cons row rows =>
    rw [← alike row List.mem_cons_self] at specialized
    rw [mapRows_first specialized, mapRows_ready steady m rfl]

end Single

end RowMapping
