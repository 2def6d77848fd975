import RowMapping.Proofs.Registry.Coherence
import RowMapping.Proofs.Registry.UncachedRows
import RowMapping.Proofs.Schema.Described
import RowMapping.Proofs.Session.Yields

/-! Look-ups in a context whose factories are pure. They leave alone what types are resolved from, keep
row mappers only for types that come to them, and find what the factories come to. -/
namespace RowMapping

open MappingM

def World.sources (w : World) (c : Context) : Sources :=
  let r := (w.registries[c.registry]?).getD default
  ⟨w.schema, r.rows.factories, r.columns.factories, w.described c⟩

def Sources.Resolves (o : Sources) (key : Descriptor) (m : RowMapper) : Prop :=
  ∃ n m', o.row n key = some (some m') ∧ Alike m m'

/-- The registry has these factories, and what it keeps for a type is what the type comes to. -/
structure Registry.Serves (o : Sources) (r : Registry) : Prop where
  rows : r.rows.factories = o.rows
  columns : r.columns.factories = o.columns
  kept : ∀ key m, r.rows.cached? key = some m → o.Resolves key m

structure World.Serves (o : Sources) (c : Context) (w : World) : Prop where
  schema : w.schema = o.schema
  described : w.described c = o.described
  registry : ∃ r, w.registries[c.registry]? = some r ∧ r.Serves o

variable {o : Sources} {c : Context} {h : Hooks} {depth : Nat}

theorem World.Serves.settled {w : World} (serves : w.Serves o c) :
    Settled o.schema o.columns c.registry w := by
  obtain ⟨r, known, same⟩ := serves.registry
  exact ⟨serves.schema, r, known, same.columns⟩

theorem World.Serves.along {w v : World} (serves : w.Serves o c) (along : w.Alongside c v) :
    v.Serves o c := by
  obtain ⟨r, known, same⟩ := serves.registry
  refine ⟨along.schema.trans serves.schema, along.described.trans serves.described, r, ?_, same⟩
  rw [along.registries]
  exact known

/-! ### Columns -/

section Columns

theorem Leads.serves {α : Type} {x : MappingM α} (along : Leads (World.Alongside c) x) :
    Yields (World.Serves o c) (fun _ => True) x :=
  Leads.yields fun w serves => serves.along (along w)

theorem serves_fresh : Yields (World.Serves o c) (fun _ => True) fresh :=
  Leads.serves fun _ => ⟨rfl, rfl, rfl⟩

theorem serves_note (s : String) : Yields (World.Serves o c) (fun _ => True) (note s) :=
  Leads.serves fun _ => ⟨rfl, rfl, rfl⟩

theorem serves_log (level : LogLevel) (logger : Logger) (text : String) :
    Yields (World.Serves o c) (fun _ => True) (log level logger text) := by
  refine Leads.serves fun w => ?_
  show World.Alongside c w (if _ then _ else _)
  split
  · exact ⟨rfl, rfl, rfl⟩
  · exact .refl c w

theorem serves_registry : Yields (World.Serves o c) (Registry.Serves o) (registry c) := by
  intro w serves
  obtain ⟨r, known, same⟩ := serves.registry
  rw [run_registry known]
  refine ⟨serves, ?_⟩
  rintro _ ⟨⟩
  exact same

theorem serves_change {f : Registry → Registry} (keeps : ∀ r, r.Serves o → (f r).Serves o) :
    Yields (World.Serves o c) (fun _ => True) (changeRegistry c f) := by
  refine Leads.yields fun w serves => ?_
  obtain ⟨r, known, same⟩ := serves.registry
  refine ⟨serves.schema, serves.described, f r, ?_, keeps r same⟩
  show (w.registries.modify c.registry f)[c.registry]? = _
  rw [List.getElem?_modify_eq, known]
  rfl

theorem serves_keepColumn (generation : Nat) (key : Descriptor) (m : ColumnMapper) :
    Yields (World.Serves o c) (fun _ => True) (Registry.keepColumn c generation key m) := by
  refine serves_change fun r same => ?_
  split <;> exact ⟨same.rows, same.columns, same.kept⟩

theorem serves_scalarOf (origin : Nat) (key : Descriptor) :
    Yields (World.Serves o c) (fun _ => True) (Registry.scalarOf origin key) := by
  unfold Registry.scalarOf
  split
  · refine Yields.get.bind fun w _ => ?_
    split <;> exact Yields.pure trivial
  · exact Yields.pure trivial

theorem serves_arrayOf {key : Descriptor} {element : Option (MappingM (Option ColumnMapper))}
    (items : ∀ x, element = some x → Yields (World.Serves o c) (fun _ => True) x) :
    Yields (World.Serves o c) (fun _ => True) (Registry.arrayOf key element) := by
  unfold Registry.arrayOf
  split
  · refine (items _ rfl).bind fun found _ => ?_
    unfold Registry.arrayFrom
    split
    · exact serves_fresh.bind fun _ _ => Yields.pure trivial
    · exact Yields.pure trivial
  · exact Yields.pure trivial

/-- Hooks that do nothing when there is nothing to do, and whose column look-ups keep serving. -/
structure Hooks.Idle (o : Sources) (c : Context) (h : Hooks) : Prop where
  perform : ∀ w, ((h.perform []).run w).2 = w
  column : ∀ key, Yields (World.Serves o c) (fun _ => True) (h.findColumn c key)

theorem serves_askCustom (idle : h.Idle o c) {f : CustomFactory} (silent : f.onBuild = [])
    (key : Descriptor) : Yields (World.Serves o c) (fun _ => True) (Registry.askCustom h f key) := by
  have perform : Leads (World.Alongside c) (h.perform f.onBuild) := by
    intro w
    rw [silent, idle.perform w]
    exact .refl c w
  unfold Registry.askCustom
  refine (serves_note _).bind fun _ _ => ?_
  split
  · refine Yields.get.bind fun w _ => ?_
    dsimp only
    split
    · refine Yields.bind (Leads.serves fun _ => ?_) fun _ _ => ?_
      · exact ⟨rfl, rfl, rfl⟩
      exact perform.serves.bind fun _ _ => Yields.pure trivial
    · exact Yields.pure trivial
  · exact Yields.pure trivial

theorem serves_follow (idle : h.Idle o c) {p q : Procedure Command ColumnMapper} (like : p.Like q)
    (silent : p.Silent) : Yields (World.Serves o c) (fun _ => True) (Registry.follow h c p) := by
  induction like with
  | answer => exact Yields.pure trivial
  | raise r t => exact Yields.throw _
  | @column d e next next' _ _ ih =>
    exact (idle.column d).bind fun x _ => ih x x rfl (silent x)
  | performLeft commands _ ih => contradiction
  | performRight commands _ ih => exact ih silent

theorem serves_askColumn (idle : h.Idle o c) {key : Descriptor}
    {element : Option (MappingM (Option ColumnMapper))}
    (items : ∀ x, element = some x → Yields (World.Serves o c) (fun _ => True) x) {f : ColumnFactory}
    (pure : f.Pure) :
    Yields (World.Serves o c) (fun _ => True) (Registry.askColumn h c key element f) := by
  obtain ⟨dependable, silent⟩ := pure
  cases f with
  | scalars origin => exact serves_scalarOf origin key
  | arrays => exact serves_arrayOf items
  | fixed target mapper => exact Yields.pure trivial
  | custom f => exact (serves_askCustom idle silent key).bind fun _ _ => Yields.pure trivial
  | written name ask => exact serves_follow idle (dependable key key (.refl key)) (silent key)
  | reflective targets lead => contradiction

theorem serves_lookup (pure : o.Pure) (idle : h.Idle o c) :
    Lookup (World.Serves o c) (Registry.Serves o) (fun _ => True) h c where
  registry := serves_registry
  log := serves_log
  hit _ _ _ _ _ := trivial
  ask _ same f hf _ _ items := serves_askColumn idle items (pure.columns f (same.columns ▸ hf))
  missing := trivial
  keep generation key m _ := serves_keepColumn generation key m

end Columns

/-! ### Rows -/

structure World.Ready (o : Sources) (c : Context) (w : World) : Prop where
  coherent : w.Coherent
  serves : w.Serves o c

/-- Run in a context that resolves types from these sources, the computation leaves it so and finds what
`spec` finds. -/
def Finds {Mapper : Type} [Numbered Mapper] (o : Sources) (c : Context) (depth : Nat)
    (spec : Nat → Option (Option Mapper)) (x : MappingM (Option Mapper)) : Prop :=
  ∀ w, w.Ready o c → (x.run w).2.Ready o c ∧ Matches depth spec (x.run w).1

section Rules

variable {Mapper Other : Type} [Numbered Mapper] [Numbered Other] {spec : Nat → Option (Option Mapper)}

theorem finds_pure {x y : Option Mapper} (alike : FoundAlike x y) :
    Finds o c depth (fun _ => some y) (pure x) := fun _ ready => ⟨ready, matches_ok alike⟩

theorem finds_bind {next : Option Mapper → Nat → Option (Option Other)}
    {x : MappingM (Option Mapper)} {f : Option Mapper → MappingM (Option Other)}
    (rising : Rising spec) (rises : ∀ y, Rising (next y)) (hx : Finds o c depth spec x)
    (hf : ∀ a y, FoundAlike a y → Finds o c depth (next y) (f a)) :
    Finds o c depth (fun n => (spec n).bind fun y => next y n) (x >>= f) := by
  intro w ready
  have first := hx w ready
  rcases e : x.run w with ⟨r | a, v⟩ <;> rw [e] at first
  · rw [run_bind_error e]
    exact ⟨first.1, first.2.bind_error⟩
  · rw [run_bind_ok e]
    obtain ⟨n, y, _, alike⟩ := first.2.1 a rfl
    refine ⟨(hf a y alike v first.1).1, ?_⟩
    exact first.2.bind_ok rising rises fun y alike => (hf a y alike v first.1).2

theorem finds_after {α : Type} {x : MappingM α} {f : α → MappingM (Option Mapper)}
    (kept : Leads World.Kept x) (serves : Yields (World.Serves o c) (fun _ => True) x)
    (safe : ∀ w, ∃ a v, x.run w = (.ok a, v)) (hf : ∀ a, Finds o c depth spec (f a)) :
    Finds o c depth spec (x >>= f) := by
  intro w ready
  obtain ⟨a, v, ran⟩ := safe w
  have coherent := (kept w).2 ready.coherent
  have still := (serves w ready.serves).1
  rw [ran] at coherent still
  rw [run_bind_ok ran]
  exact hf a v ⟨coherent, still⟩

theorem finds_of {x : MappingM (Option Mapper)} (kept : Leads World.Kept x)
    (serves : Yields (World.Serves o c) (fun _ => True) x)
    (matched : ∀ w, w.Ready o c → Matches depth spec (x.run w).1) : Finds o c depth spec x :=
  fun w ready => ⟨⟨(kept w).2 ready.coherent, (serves w ready.serves).1⟩, matched w ready⟩

/-- What a quiet column look-up finds is found where nothing is ever registered. -/
theorem finds_of_quietly {spec : Nat → Finding} {x : MappingM (Option ColumnMapper)}
    (kept : Leads World.Kept x) (serves : Yields (World.Serves o c) (fun _ => True) x)
    (quiet : Quietly o.schema o.columns c.registry x (Matches depth spec)) :
    Finds o c depth spec x :=
  finds_of kept serves fun w ready => quiet w ready.coherent ready.serves.settled
    (serves w ready.serves).1.settled

theorem finds_scan {Factory : Type} {ask : Factory → MappingM (Option Mapper)}
    {answer : Factory → Nat → Option (Option Mapper)} {fs : List Factory}
    (rising : ∀ f, Rising (answer f)) (asked : ∀ f ∈ fs, Finds o c depth (answer f) (ask f)) :
    Finds o c depth (fun n => Chain.scan (fun f => answer f n) fs) (Chain.scan ask fs) := by
  induction fs with
  | nil => exact finds_pure rfl
  | cons f fs ih =>
    have rest := ih fun g hg => asked g (List.mem_cons_of_mem _ hg)
    refine finds_bind (rising f) (fun o => ?_) (asked f List.mem_cons_self) fun o p alike => ?_
    · cases o with
      | none => exact rising_scan rising fs
      | some m => exact fun _ found => found
    · cases p with
      | none =>
        rw [foundAlike_none alike]
        exact rest
      | some n =>
        obtain ⟨m, rfl, _⟩ := foundAlike_some alike
        exact finds_pure alike

end Rules

structure Hooks.Serve (o : Sources) (c : Context) (depth : Nat) (h : Hooks) : Prop where
  resolve : h.Resolve depth
  idle : h.Idle o c
  row : ∀ key, Finds o c depth (fun n => o.row n key) (h.findRow c key)

section Rows

variable (pure : o.Pure) (serve : h.Serve o c depth)
include pure serve

theorem finds_hookColumn (key : Descriptor) :
    Finds o c depth (fun n => o.column n key) (h.findColumn c key) :=
  finds_of_quietly (serve.resolve.lead.findColumn c key) (serve.idle.column key)
    (serve.resolve.finds c key pure.dependable)

theorem finds_column (key : Descriptor) :
    Finds o c (depth + 1) (fun n => o.column n key) (Registry.findColumn h c key) :=
  finds_of_quietly (findColumnAs_resolves serve.resolve key key.nullable).1
    ((serves_lookup pure serve.idle).findColumnAs key key.nullable)
    (findColumn_matches serve.resolve pure.dependable c key)

theorem finds_follow {p q : Procedure Command RowMapper} (like : p.RowLike q) :
    Finds o c depth (fun n => q.replyRow (o.column n) (o.row n)) (Registry.follow h c p) := by
  have rising : ∀ q : Procedure Command RowMapper,
      Rising fun n => q.replyRow (o.column n) (o.row n) := fun q _ _ _ le found =>
    Sources.replyRow_below (uncached_mono le) (fun d x => Sources.rising_row d le) found
  -- The two may ask for one type in different spellings, for which the sources find the same.
  induction like with
  | answer alike => exact finds_pure alike
  | raise r t => exact fun w ready => ⟨ready, matches_error fun _ _ => rfl⟩
  | @column d e next next' alike _ ih =>
    refine finds_bind (rising_uncached e) (fun y => rising (next' y)) ?_ ih
    intro w ready
    have found := finds_hookColumn pure serve d w ready
    exact ⟨found.1, found.2.agree fun n => Sources.column_uniform pure n d e alike⟩
  | @row d e next next' alike _ ih =>
    refine finds_bind (Sources.rising_row e) (fun y => rising (next' y)) ?_ ih
    intro w ready
    have found := serve.row d w ready
    exact ⟨found.1, found.2.agree fun n => Sources.row_uniform pure n d e alike⟩

omit pure serve in
theorem finds_reflective (targets : Option (List RawType)) (lead : String) (key : Descriptor) :
    Finds o c depth (fun _ => (o.reflectiveFor targets lead key).map (Option.map RowMapper.reflective))
      (do return (← Registry.reflectiveFor c targets lead key).map RowMapper.reflective) := by
  refine finds_of ?_ ?_ fun w ready => ?_
  · exact World.course_kept.bind (World.course_kept.reflectiveFor c targets lead key) fun _ =>
      World.course_kept.pure _
  · refine Yields.bind (Q := fun _ => True) ?_ fun _ _ => Yields.pure trivial
    unfold Registry.reflectiveFor
    split
    · refine Yields.bind (Leads.serves fun w => ?_) fun t _ => ?_
      · rcases run_table c w key.raw with ⟨t, v, ran, _, _, along⟩ | ⟨ran, _⟩
        · rw [ran]
          exact along
        · rw [ran]
          exact .refl c w
      · split
        · exact serves_fresh.bind fun _ _ => Yields.pure trivial
        · exact Yields.pure trivial
    · exact Yields.pure trivial
  · unfold Registry.reflectiveFor Sources.reflectiveFor
    split
    · rcases run_table c w key.raw with ⟨t, v, ran, described, told, along⟩ | ⟨ran, undescribed, obscure⟩
      · rw [ready.serves.described] at described
        rw [ready.serves.schema] at told
        rw [bind_assoc, run_bind_ok ran, ← described]
        cases t with
        | none =>
          simp only [Option.isSome_none, Bool.false_eq_true, if_false, told rfl]
          exact matches_ok rfl
        | some t => exact matches_ok rfl
      · rw [ready.serves.described] at undescribed
        rw [ready.serves.schema] at obscure
        rw [bind_assoc, run_bind_error ran]
        refine matches_error fun _ _ => ?_
        simp [undescribed, obscure]
    · exact matches_ok rfl

omit pure in
theorem finds_custom {f : CustomFactory} (silent : f.onBuild = []) (key : Descriptor) :
    Finds o c depth (fun _ => some (if f.claims key then some (.custom f.mapper) else none))
      (do return (← Registry.askCustom h f key).map RowMapper.custom) := by
  refine finds_of ?_ ?_ fun w _ => ?_
  · exact World.course_kept.bind (World.course_kept.askCustom serve.resolve.lead f key) fun _ =>
      World.course_kept.pure _
  · exact (serves_askCustom serve.idle silent key).bind fun _ _ => Yields.pure trivial
  · rcases askCustom_answers serve.resolve f key w with ⟨v, ok⟩ | ⟨zero, e, v, failed⟩
    · rw [run_bind_ok ok]
      refine matches_ok ?_
      split <;> rfl
    · rw [run_bind_error failed]
      exact matches_exhausted zero e

omit pure serve in
theorem finds_misplaced {spec : Nat → Finding} (rising : Rising spec)
    {x : MappingM (Option ColumnMapper)} (hx : Finds o c depth spec x) :
    Finds o c depth (fun n => (spec n).map (Option.map .misplaced))
      (do return (← x).map RowMapper.misplaced) := by
  simp only [Option.map_eq_bind (x := spec _)]
  exact finds_bind rising (fun _ _ _ _ _ found => found) hx fun a y alike =>
    finds_pure (foundAlike_misplaced alike)

theorem finds_askRow (key : Descriptor) {f : RowFactory} (pureRow : f.Pure) :
    Finds o c depth (fun n => o.answer (o.column n) (o.row n) key
      (findingElement o.schema o.columns (o.column n) key.args) f) (Registry.askRow h c key f) := by
  cases f with
  | reflective targets lead => exact finds_reflective targets lead key
  | fixed target mapper => exact finds_pure rfl
  | custom f => exact finds_custom serve pureRow.2 key
  | written name ask => exact finds_follow pure serve (pureRow key key (.refl key))
  | scalars origin =>
    have found : Finds o c depth (fun _ => some (scalarFor o.schema origin key))
        (Registry.scalarOf origin key) :=
      finds_of_quietly (World.course_kept.scalarOf origin key) (serves_scalarOf origin key)
        (quietly_scalarOf origin key)
    refine finds_misplaced ?_ found
    exact fun _ same => same
  | arrays =>
    have columns := fun d => findColumnAs_resolves (c := c) serve.resolve d true
    have elements : ∀ x, Registry.findElement h c key.args = some x →
        Leads World.Kept x ∧ Yields (World.Serves o c) (fun _ => True) x := by
      cases key.args with
      | nil => rintro x ⟨⟩
      | cons d ds =>
        rintro x ⟨⟩
        exact ⟨(columns d).1, (serves_lookup pure serve.idle).findColumnAs d true⟩
    refine finds_misplaced (fun le found => ?_) (finds_of_quietly ?_ ?_ ?_)
    · exact arrayFor_below (Sources.element_below le key.args) found
    · exact World.course_kept.arrayOf key fun x hx => (elements x hx).1
    · exact serves_arrayOf fun x hx => (elements x hx).2
    · exact quietly_arrayOf fun d _ =>
        ⟨(columns d).1, (columns d).2 o.schema o.columns pure.dependable⟩

theorem finds_single (key : Descriptor) :
    Finds o c depth (fun n => (o.column (n + 1) key).map Sources.single)
      (Registry.singleFor h c key) := by
  have found : Finds o c depth (fun n => o.column (n + 1) key) (Registry.findColumn h c key) := by
    intro w ready
    have matched := finds_column pure serve key w ready
    exact ⟨matched.1, matched.2.pred (rising_uncached key)⟩
  have rising : Rising fun n => o.column (n + 1) key := fun le found =>
    rising_uncached key (Nat.succ_le_succ le) found
  simp only [Option.map_eq_bind (x := o.column _ key)]
  refine finds_bind rising (fun _ _ _ _ _ found => found) found fun a y alike => ?_
  cases a with
  | none =>
    rw [foundAlike_none alike.symm]
    exact finds_pure rfl
  | some m =>
    refine finds_after World.course_kept.fresh serves_fresh (fun w => ⟨_, _, rfl⟩) fun serial => ?_
    exact finds_pure (foundAlike_single alike)

theorem finds_buildRow (key : Descriptor) :
    Finds o c depth (fun n => o.row (n + 1) key) (Registry.buildRow h c key o.rows) := by
  have answers : ∀ f, Rising fun n => o.answer (o.column n) (o.row n) key
      (findingElement o.schema o.columns (o.column n) key.args) f := fun f _ _ _ le found =>
    Sources.answer_below (uncached_mono le) (fun d x => Sources.rising_row d le)
      (Sources.element_below le key.args) f _ found
  refine finds_bind (rising_scan answers o.rows) (fun y => ?_)
    (finds_scan answers fun f hf => finds_askRow pure serve key (pure.rows f hf))
    fun a y alike => ?_
  · cases y with
    | some m => exact fun _ found => found
    | none =>
      intro m n x le found
      obtain ⟨z, hz, rfl⟩ := Option.map_eq_some_iff.mp found
      exact Option.map_eq_some_iff.mpr ⟨z, uncached_mono (Nat.succ_le_succ le) key z hz, rfl⟩
  · cases y with
    | none =>
      rw [foundAlike_none alike]
      exact finds_single pure serve key
    | some n =>
      obtain ⟨m, rfl, _⟩ := foundAlike_some alike
      exact finds_pure alike

omit serve in
theorem ready_recordRow {key : Descriptor} {found : Option RowMapper} {w : World}
    (ready : w.Ready o c) (matched : Matches depth (fun n => o.row (n + 1) key) (.ok found)) :
    ((Registry.recordRow c key found).run w).2.Ready o c := by
  have coherent := World.course_kept.recordRow (World.kept_keepRow c key) found w
  refine ⟨coherent.2 ready.coherent, ?_⟩
  cases found with
  | none => exact (serves_log _ _ _ w ready.serves).1
  | some m =>
    obtain ⟨n, y, hy, alike⟩ := matched.1 (some m) rfl
    obtain ⟨m', rfl, one⟩ := foundAlike_some alike.symm
    have kept : Yields (World.Serves o c) (fun _ => True) (Registry.keepRow c key m) := by
      refine serves_change fun r same => ⟨same.rows, same.columns, fun other k hit => ?_⟩
      -- Kept under one spelling, the mapper is found under all others.
      cases one' : key.same other with
      | false =>
        rw [r.rows.cached_store_other m one'] at hit
        exact same.kept other k hit
      | true =>
        rw [r.rows.cached_store m one'] at hit
        cases hit
        obtain ⟨y, hy', alike'⟩ := (Sources.row_uniform pure (n + 1) key other (.inr one')).of_some hy
        obtain ⟨m'', rfl, two⟩ := foundAlike_some alike'.symm
        exact ⟨n + 1, m'', hy', one.symm.trans two.symm⟩
    exact ((kept.bind fun _ _ => serves_log _ _ _) w ready.serves).1

theorem finds_row (key : Descriptor) :
    Finds o c (depth + 1) (fun n => o.row n key) (Registry.findRow h c key) := by
  intro w ready
  obtain ⟨r, known, same⟩ := ready.serves.registry
  cases hit : r.rows.cached? key with
  | some m =>
    rw [findRow_hit known hit]
    obtain ⟨n, m', found, alike⟩ := same.kept key m hit
    exact ⟨ready, matches_found (Sources.rising_row key) found (congrArg some alike)⟩
  | none =>
    have built := finds_buildRow pure serve key w ready
    rw [← same.rows] at built
    rcases e : (Registry.buildRow h c key r.rows.factories).run w with ⟨e' | found, v⟩ <;>
      rw [e] at built
    · rw [findRow_failed known hit e]
      exact ⟨built.1, built.2.succ rfl⟩
    · rw [findRow_miss known hit e]
      exact ⟨ready_recordRow pure built.1 built.2, built.2.succ rfl⟩

end Rows

theorem hooks_serve (pure : o.Pure) (depth : Nat) : (Session.hooks depth).Serve o c depth := by
  induction depth with
  | zero =>
    refine ⟨hooks_resolve 0, ⟨fun _ => rfl, fun _ => Yields.throw _⟩, fun key w ready => ?_⟩
    exact ⟨ready, matches_exhausted rfl _⟩
  | succ depth ih =>
    refine ⟨hooks_resolve (depth + 1), ⟨fun _ => rfl, fun key => ?_⟩, finds_row pure ih⟩
    exact (serves_lookup pure ih.idle).findColumnAs key key.nullable

/-- A row look-up of a session finds what the types come to, and leaves the context ready for more. -/
theorem finds_findRow (pure : o.Pure) (depth : Nat) (key : Descriptor) :
    Finds o c (depth + 1) (fun n => o.row n key) (Registry.findRow (Session.hooks depth) c key) :=
  finds_row pure (hooks_serve pure depth) key

theorem finds_findColumn (pure : o.Pure) (depth : Nat) (key : Descriptor) :
    Finds o c (depth + 1) (fun n => o.column n key)
      (Registry.findColumn (Session.hooks depth) c key) :=
  finds_column pure (hooks_serve pure depth) key

end RowMapping
