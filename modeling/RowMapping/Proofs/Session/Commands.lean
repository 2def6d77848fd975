import RowMapping.Proofs.Session.Course

/-! The course of commands. What every look-up keeps to, every command, every hook and every session
keeps to as well. -/
namespace RowMapping.Course

open MappingM Session

variable {R : World → World → Prop} (course : Course R) {h : Hooks}
include course

/-! ### Contexts and registrations -/

theorem assign (c : Context) (a : Assignment) : Leads R (assign c a) := by
  refine course.bind (course.settings c) fun s => ?_
  split
  · exact course.changeSettings c _
  · exact course.throw _

theorem copyRegistry (c : Context) : Leads R (copyRegistry c) := by
  intro w
  unfold Session.copyRegistry
  rw [run_bind_ok (run_get w)]
  split
  · next r hr => exact course.change (.copied hr)
  · exact course.refl w

theorem addStandard (serial : Nat) : Leads R (addRegistry (.standard serial)) :=
  fun w => course.change (.founded w serial)

theorem addReflective (serial : Nat) : Leads R (addRegistry (reflectiveRegistry serial)) := by
  intro w
  have registered := course.change (.rowRegistered
    { w with registries := w.registries ++ [.standard serial] } w.registries.length
    (.reflective none ""))
  have last : ∀ rs : List Registry, (rs ++ [Registry.standard serial]).modify rs.length
      (·.registerRow (.reflective none "")) = rs ++ [reflectiveRegistry serial] := by
    intro rs
    induction rs with
    | nil => rfl
    | cons r rs ih => simpa using ih
  rw [last] at registered
  exact course.trans (course.change (.founded w serial)) registered

theorem copyTables (c : Context) : Leads R (copyTables c) := by
  intro w
  show R w { w with tables := w.tables ++ [(w.tables[c.tables]?).getD default] }
  refine course.change (.tablesAdded ?_)
  cases known : w.tables[c.tables]? with
  | none => exact .inl rfl
  | some t => exact .inr (List.mem_of_getElem? known)

theorem newRegistry (source : RegistrySource) : Leads R (newRegistry source) := by
  cases source with
  | fresh reflective =>
    refine course.bind course.fresh fun serial => ?_
    split
    · refine course.bind (course.addReflective serial) fun id => ?_
      exact course.bind (course.log _ _ _) fun _ => course.pure _
    · exact course.addStandard serial
  | bare => exact course.bind course.fresh fun serial => course.addStandard serial
  | sharedWith name => exact course.bind (course.context name) fun _ => course.pure _
  | copiedFrom name => exact course.bind (course.context name) fun c => course.copyRegistry c

theorem newTables (source : Option String) : Leads R (newTables source) := by
  cases source with
  | none => exact fun _ => course.change (.tablesAdded (.inl rfl))
  | some name => exact course.bind (course.context name) fun _ => course.pure _

theorem newContext (spec : ContextSpec) : Leads R (newContext spec) := by
  refine course.bind (course.lift _) fun checked => ?_
  refine course.bind (course.newRegistry _) fun registry => ?_
  refine course.bind (course.newTables _) fun tables => ?_
  exact course.bind (course.addSettings _) fun _ => course.pure _

theorem copyContext (c : Context) : Leads R (copyContext c) := by
  refine course.bind (course.copyRegistry c) fun registry => ?_
  refine course.bind (course.settings c) fun s => ?_
  refine course.bind (course.addSettings s) fun settings => ?_
  exact course.bind (course.copyTables c) fun _ => course.pure _

theorem newMapper (wrapped : Bool) (spec : MapperSpec) : Leads R (newMapper wrapped spec) :=
  course.bind course.fresh fun _ => course.pure _

theorem customFactory (name : String) (claim : Claim) (mapper : MapperSpec)
    (onBuild : List Command) : Leads R (customFactory name claim mapper onBuild) := by
  refine course.bind (course.newMapper _ _) fun made => ?_
  exact course.bind course.fresh fun _ => course.pure _

theorem rowFactory (spec : FactorySpec) : Leads R (rowFactory spec) := by
  cases spec with
  | reflective targets lead => exact course.pure _
  | scalars => exact course.bind course.fresh fun _ => course.pure _
  | arrays => exact course.pure _
  | custom name claim mapper onBuild =>
    exact course.bind (course.customFactory _ _ _ _) fun _ => course.pure _
  | written name columns rows => exact course.pure _

theorem columnFactory (spec : FactorySpec) : Leads R (columnFactory spec) := by
  cases spec with
  | reflective targets lead => exact course.pure _
  | scalars => exact course.bind course.fresh fun _ => course.pure _
  | arrays => exact course.pure _
  | custom name claim mapper onBuild =>
    exact course.bind (course.customFactory _ _ _ _) fun _ => course.pure _
  | written name columns rows => exact course.pure _

theorem registeredRow (what : Registered) (target : Option TypeExpr) :
    Leads R (registeredRow what target) := by
  cases what with
  | mapper spec =>
    refine course.bind (course.newMapper _ _) fun m => ?_
    exact course.bind (course.lift _) fun _ => course.pure _
  | factory spec => exact course.rowFactory spec

theorem registeredColumn (what : Registered) (target : Option TypeExpr) :
    Leads R (registeredColumn what target) := by
  cases what with
  | mapper spec =>
    refine course.bind (course.newMapper _ _) fun m => ?_
    exact course.bind (course.lift _) fun _ => course.pure _
  | factory spec => exact course.columnFactory spec

theorem registerRow (c : Context) (what : Registered) (target : Option TypeExpr) :
    Leads R (registerRow c what target) := by
  refine course.bind (course.registeredRow _ _) fun f => ?_
  refine course.bind (fun w => course.change (.rowRegistered w c.registry f)) fun _ => ?_
  exact course.log _ _ _

theorem registerColumn (c : Context) (what : Registered) (target : Option TypeExpr) :
    Leads R (registerColumn c what target) := by
  refine course.bind (course.registeredColumn _ _) fun f => ?_
  refine course.bind (fun w => course.change (.columnRegistered w c.registry f)) fun _ => ?_
  exact course.log _ _ _

theorem registerProperties (c : Context) (type : TypeExpr) (ps : List PropertySpec)
    (builder : Option Builder) (nullMarker : Option String) :
    Leads R (registerProperties c type ps builder nullMarker) := by
  unfold Session.registerProperties
  split
  · refine course.bind course.get fun w => course.bind course.fresh fun serial => ?_
    exact fun w => course.change (.declared c.tables rfl)
  · exact course.pure _

/-! ### Commands -/

theorem shownOrNull (m : Option RowMapper) : Leads R (shownOrNull m) := by
  cases m with
  | none => exact course.pure _
  | some m => exact course.bind (course.lift _) fun _ => course.pure _

section Lookups

variable (lead : h.Lead R) (lookup : Registry.Lead R h)
include lookup

theorem specialized (c : Context) (m : RowMapper) (row : RowSpec) (name : Option String) :
    Leads R (specialized h c m row name) := by
  refine course.bind (course.lift _) fun row => ?_
  refine course.bind (course.specializeRow lookup c _ m) fun ready => ?_
  cases name with
  | none => exact course.pure _
  | some n => exact course.bind (course.save n ready) fun _ => course.pure _

theorem sameRow (c : Context) (a b : TypeExpr) : Leads R (sameRow h c a b) := by
  refine course.bind (lookup.row c _) fun x => ?_
  exact course.bind (lookup.row c _) fun y => course.pure _

theorem sameColumn (c : Context) (a b : TypeExpr) : Leads R (sameColumn h c a b) := by
  refine course.bind (lookup.findColumn c _) fun x => ?_
  exact course.bind (lookup.findColumn c _) fun y => course.pure _

include lead

theorem mapColumn (c : Context) (type : TypeExpr) (row : RowSpec) (index : Int) :
    Leads R (mapColumn h c type row index) := by
  refine course.bind (course.lift _) fun row => ?_
  refine course.bind (lookup.findColumn c _) fun found => ?_
  split
  · exact course.pure _
  · exact course.bind (course.applyColumn lead c _ _ row) fun _ => course.pure _

theorem mapOne (c : Context) (type : Descriptor) (row : Row) : Leads R (mapOne h c type row) := by
  refine course.bind (course.requireRow lookup c _) fun m => ?_
  exact course.bind (course.applyRow lead lookup c m row) fun _ => course.pure _

theorem mapMany (c : Context) (type : Descriptor) (rows : List Row) :
    Leads R (mapMany h c type rows) := by
  refine course.bind (course.requireRow lookup c _) fun m => ?_
  exact course.mapRows lead lookup c _ _ _

theorem mapCursor (c : Context) (type : TypeExpr) (cursor : Cursor) :
    Leads R (mapCursor h c type cursor) := by
  refine course.bind (course.requireRow lookup c _) fun mapper => ?_
  dsimp only
  refine course.bind (course.mapRows lead lookup c _ _ _) fun vs => ?_
  split
  · exact course.throw _
  · exact course.pure _

end Lookups

theorem children (name : String) : Leads R (children name) := by
  refine course.bind (course.saved name) fun m => ?_
  split
  · refine course.bind course.get fun w => ?_
    dsimp only
    refine course.bind (course.mapM (fun e => ?_) _) fun _ => course.pure _
    exact course.bind (course.lift _) fun _ => course.pure _
  · exact course.throw _

theorem build (c : Context) (type : TypeExpr) (values : List (String × Value)) :
    Leads R (build c type values) := by
  refine course.bind (course.table? c _) fun table => ?_
  split
  · exact course.throw _
  · refine course.bind (course.lift _) fun keywords => course.bind course.get fun w => ?_
    exact course.bind (course.lift _) fun _ => course.pure _

theorem configure (c : Context) (assignments : List Assignment)
    (appended : List (Option Matcher)) : Leads R (configure c assignments appended) := by
  refine course.bind (course.forM (course.assign c) _) fun _ => ?_
  refine course.bind (course.changeSettings c _) fun _ => ?_
  exact course.bind (course.settings c) fun _ => course.pure _

theorem run (lead : h.Lead R) (lookup : Registry.Lead R h) (command : Command) :
    Leads R (run h command) := by
  cases command with
  | newContext name spec =>
    refine course.bind (course.newContext spec) fun c => ?_
    exact course.bind (course.nameContext name c) fun _ => course.pure _
  | copyContext source name =>
    refine course.bind (course.context source) fun c => ?_
    refine course.bind (course.copyContext c) fun c => ?_
    exact course.bind (course.nameContext name c) fun _ => course.pure _
  | registerRow c what target =>
    refine course.bind (course.context c) fun c => ?_
    exact course.bind (course.registerRow c what target) fun _ => course.pure _
  | registerColumn c what target =>
    refine course.bind (course.context c) fun c => ?_
    exact course.bind (course.registerColumn c what target) fun _ => course.pure _
  | registerProperties c type ps builder nullMarker =>
    refine course.bind (course.context c) fun c => ?_
    exact course.bind (course.registerProperties c type ps _ _) fun _ => course.pure _
  | findRow c type =>
    refine course.bind (course.context c) fun c => ?_
    exact course.bind (lookup.row c _) fun found => course.shownOrNull found
  | findColumn c type =>
    refine course.bind (course.context c) fun c => ?_
    exact course.bind (lookup.findColumn c _) fun _ => course.pure _
  | requireRow c type =>
    refine course.bind (course.context c) fun c => ?_
    refine course.bind (course.requireRow lookup c _) fun m => ?_
    exact course.bind (course.lift _) fun _ => course.pure _
  | sameRow c a b => exact course.bind (course.context c) fun c => course.sameRow lookup c a b
  | sameColumn c a b =>
    exact course.bind (course.context c) fun c => course.sameColumn lookup c a b
  | mapOne c type row =>
    refine course.bind (course.context c) fun c => course.bind (course.lift _) fun row => ?_
    exact course.bind (course.mapOne lead lookup c _ row) fun _ => course.pure _
  | mapMany c type rows =>
    refine course.bind (course.context c) fun c => ?_
    refine course.bind (course.mapM (fun r => course.lift _) _) fun rows => ?_
    exact course.bind (course.mapMany lead lookup c _ rows) fun _ => course.pure _
  | mapCursor c type cursor =>
    exact course.bind (course.context c) fun c => course.mapCursor lead lookup c type cursor
  | mapColumn c type row index =>
    exact course.bind (course.context c) fun c => course.mapColumn lead lookup c type row index
  | factories c =>
    refine course.bind (course.context c) fun c => ?_
    exact course.bind (course.registry c) fun _ => course.pure _
  | configure c assignments appended =>
    exact course.bind (course.context c) fun c => course.configure c assignments appended
  | reflectiveMapper name type lead =>
    refine course.bind (course.bind course.fresh fun _ => course.pure _) fun m => ?_
    cases name with
    | none => exact course.bind (course.lift _) fun _ => course.pure _
    | some n =>
      refine course.bind (course.save n _) fun _ => ?_
      exact course.bind (course.lift _) fun _ => course.pure _
  | specializeSaved c name row keep =>
    refine course.bind (course.context c) fun c => course.bind (course.saved name) fun m => ?_
    exact course.specialized lookup c m row keep
  | specializeType c type row keep =>
    refine course.bind (course.context c) fun c => ?_
    refine course.bind (course.requireRow lookup c _) fun m => ?_
    exact course.specialized lookup c m row keep
  | mapSaved c name row =>
    refine course.bind (course.saved name) fun m => course.bind (course.lift _) fun row => ?_
    refine course.bind (course.context c) fun c => ?_
    refine course.bind ?_ fun _ => course.pure _
    exact course.bind (course.applyRow lead lookup c m row) fun _ => course.pure _
  | children name => exact course.children name
  | properties c type =>
    refine course.bind (course.context c) fun c => ?_
    exact course.bind (course.table? c _) fun _ => course.pure _
  | sameProperties c a b =>
    refine course.bind (course.context c) fun c => ?_
    refine course.bind (course.table? c _) fun x => ?_
    exact course.bind (course.table? c _) fun y => course.pure _
  | build c type values =>
    exact course.bind (course.context c) fun c => course.build c type values

/-- A command with its reports taken out leads where the command leads. -/
theorem step (lead : h.Lead R) (lookup : Registry.Lead R h) (command : Command) (w : World) :
    R w (step h command w).2 := by
  have cleared : R w { w with reports := [], log := [] } := course.aside rfl rfl rfl
  have ran := course.run lead lookup command { w with reports := [], log := [] }
  have restored : ∀ v : World, R v { v with reports := w.reports, log := w.log } :=
    fun _ => course.aside rfl rfl rfl
  exact course.trans cleared (course.trans ran (restored _))

theorem performOne (lead : h.Lead R) (lookup : Registry.Lead R h) (command : Command) :
    Leads R (performOne h command) := by
  intro w
  have stepped := course.step lead lookup command w
  exact course.trans stepped (course.aside rfl rfl rfl)

theorem hooks_zero : (hooks 0).Lead R where
  perform commands := course.forM (fun _ => course.throw _) commands
  findColumn _ _ := course.throw _
  findRow _ _ := course.throw _
  column _ _ _ _ := course.throw _
  row _ _ _ := course.throw _

theorem hooks_succ {depth : Nat} (lead : (hooks depth).Lead R)
    (lookup : Registry.Lead R (hooks depth)) : (hooks (depth + 1)).Lead R where
  perform commands := course.forM (course.performOne lead lookup) commands
  findColumn c key := lookup.findColumn c key
  findRow c key := lookup.row c key
  column c type index row := by
    refine course.bind (lookup.findColumn c _) fun found => ?_
    split
    · exact course.applyColumn lead c _ index row
    · exact course.pure _
  row c type row := by
    refine course.bind (lookup.row c _) fun found => ?_
    split
    · exact course.applyRow lead lookup c _ row
    · exact course.pure _

/-- Where look-ups keep to a course if hooks do, all hooks and look-ups of a session do. -/
theorem hooks (lookup : ∀ depth, (Session.hooks depth).Lead R → Registry.Lead R (Session.hooks depth))
    (depth : Nat) :
    (Session.hooks depth).Lead R ∧ Registry.Lead R (Session.hooks depth) := by
  induction depth with
  | zero => exact ⟨course.hooks_zero, lookup 0 course.hooks_zero⟩
  | succ depth ih =>
    have lead := course.hooks_succ ih.1 ih.2
    exact ⟨lead, lookup (depth + 1) lead⟩

/-- What a look-up keeps is all that it does to the caches, whatever its factories do. -/
theorem hooks_of_keep
    (keepColumn : ∀ c generation key m, Leads R (Registry.keepColumn c generation key m))
    (keepRow : ∀ c key m, Leads R (Registry.keepRow c key m)) (depth : Nat) :
    (Session.hooks depth).Lead R ∧ Registry.Lead R (Session.hooks depth) := by
  refine course.hooks (fun depth lead => ?_) depth
  have column := fun c => course.findColumnAs lead (keepColumn c)
  exact ⟨column, fun c => course.findRow lead (column c) (keepRow c)⟩

theorem start {schema : Schema} {loggers : List Logger} {spec : ContextSpec} {w : World}
    (started : Session.start schema loggers spec = .ok w) : R (emptyWorld schema []) w := by
  have led := course.bind (course.newContext spec) fun c => course.nameContext "main" c
  have named := led (emptyWorld schema [])
  unfold Session.start at started
  split at started
  · next v hv =>
    rw [hv] at named
    cases started
    exact course.trans named (course.aside rfl rfl rfl)
  · contradiction

end RowMapping.Course
