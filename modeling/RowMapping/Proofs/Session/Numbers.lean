import RowMapping.Proofs.Mapper.Numbered
import RowMapping.Proofs.Session.Isolation

/-! Sessions give out numbers once. Whatever commands are run, and whatever commands the factories that they
register run, all numbers in a session were given out before, if such factories make up no reflective
mappers. -/
namespace RowMapping

open MappingM

section Within

variable (allowed : Nat → Command → Prop) (n : Nat)

/-- The factory runs allowed commands only, and answers with no reflective mappers but those that it is told
of and such as bear numbers given out by then. -/
def FactorySpec.Within : FactorySpec → Prop
  | .reflective .. | .scalars | .arrays => True
  | .custom _ _ _ onBuild => AllowedFrom allowed n onBuild
  | .written _ columns rows =>
    (∀ key, (columns key).Below allowed ColumnMapper.Below n) ∧ ∀ key, (rows key).Below allowed RowMapper.Below n

def Registered.Within : Registered → Prop
  | .mapper _ => True
  | .factory spec => spec.Within allowed n

def Command.Within : Command → Prop
  | .registerRow _ what _ | .registerColumn _ what _ => what.Within allowed n
  | _ => True

def AllowedAlong : World → List Command → Prop
  | _, [] => True
  | w, command :: commands => allowed w.next command ∧ AllowedAlong (Session.after [command] w) commands

end Within

/-- The commands register no factories that make up reflective mappers, nor do commands that such factories
run. -/
def Honest (w : World) (commands : List Command) : Prop :=
  ∃ allowed : Nat → Command → Prop, (∀ n command, allowed n command → command.Within allowed n) ∧
    AllowedAlong allowed w commands

variable {allowed : Nat → Command → Prop}

theorem FactorySpec.Within.mono {n k : Nat} (le : n ≤ k) {spec : FactorySpec} (within : spec.Within allowed n) :
    spec.Within allowed k := by
  cases spec with
  | reflective | scalars | arrays => trivial
  | custom => exact AllowedFrom.mono le within
  | written =>
    exact ⟨fun key => (within.1 key).mono le fun _ => ColumnMapper.Below.mono le,
      fun key => (within.2 key).mono le fun _ => RowMapper.Below.mono le⟩

theorem Registered.Within.mono {n k : Nat} (le : n ≤ k) {what : Registered} (within : what.Within allowed n) :
    what.Within allowed k := by
  cases what with
  | mapper => trivial
  | factory spec => exact FactorySpec.Within.mono le within

/-! ### The state -/

theorem numbers_nameContext (name : String) (c : Context) : Numbers allowed Anything (nameContext name c) :=
  fun _ numbered => ⟨numbered.aside rfl rfl rfl le_rfl, fun _ _ => trivial⟩

theorem numbers_changeSettings (c : Context) (f : Settings → Settings) :
    Numbers allowed Anything (changeSettings c f) := fun _ numbered =>
  ⟨numbered.aside rfl rfl rfl le_rfl, fun _ _ => trivial⟩

theorem numbers_context (name : String) : Numbers allowed Anything (context name) := by
  intro u numbered
  refine (Brings.get numbered.here).bind passage_counts fun v w on _ => ?_
  split
  · exact .pure on.second.here trivial
  · exact .throw on.second.here _

theorem numbers_saved (name : String) : Numbers allowed (fun v m => m.Below v.next) (saved name) := by
  intro u numbered
  refine (Brings.get numbered.here).bind passage_counts fun v w on same => ?_
  subst same
  split
  · next m known => exact .pure on.second.here (on.second.saved m (List.mem_of_find?_eq_some known))
  · exact .throw on.second.here _

theorem numbers_save (name : String) {m : RowMapper} {u : World} (numbered : u.Numbered allowed)
    (own : m.Below u.next) : Brings (World.Counts allowed) Anything (save name m) u := by
  refine ⟨⟨numbered, ⟨numbered.registries, fun e member => ?_, numbered.children⟩, le_rfl⟩, fun _ _ => trivial⟩
  rcases List.mem_cons.mp member with rfl | kept
  · exact own
  · exact numbered.saved e (List.mem_of_mem_filter kept)

theorem numbers_addRegistry {r : Registry} {u : World} (numbered : u.Numbered allowed) (own : r.Below allowed u.next) :
    Brings (World.Counts allowed) Anything (addRegistry r) u := by
  refine ⟨⟨numbered, ⟨fun t member => ?_, numbered.saved, numbered.children⟩, le_rfl⟩, fun _ _ => trivial⟩
  rcases List.mem_append.mp member with old | new
  · exact numbered.registries t old
  · exact List.mem_singleton.mp new ▸ own

theorem numbers_returned {α : Type} {x : MappingM α} (unmoved : ∀ u, ∃ a, x.run u = (.ok a, u)) :
    Numbers allowed Anything x :=
  numbers_idle fun u => have ⟨a, ran⟩ := unmoved u; ⟨a, u, ran, .refl u, trivial⟩

/-! ### Contexts -/

theorem below_standard (n serial : Nat) : (Registry.standard serial).Below allowed n := by
  refine ⟨List.forall_mem_nil _, fun f member => ?_, List.forall_mem_nil _, List.forall_mem_nil _⟩
  rcases List.mem_pair.mp member with rfl | rfl <;> trivial

theorem below_reflective (n serial : Nat) : (Session.reflectiveRegistry serial).Below allowed n := by
  refine ⟨fun f member => ?_, (below_standard n serial).columns, List.forall_mem_nil _, List.forall_mem_nil _⟩
  rw [List.mem_singleton.mp member]
  trivial

theorem numbers_copyRegistry (c : Context) : Numbers allowed Anything (Session.copyRegistry c) := by
  intro u numbered
  refine (Brings.get numbered.here).bind passage_counts fun v w on same => ?_
  subst same
  split
  · next r known =>
    have own := on.second.registries r (List.mem_of_getElem? known)
    exact numbers_addRegistry on.second ⟨own.rows, own.columns, own.keptRows, own.keptColumns⟩
  · exact .throw on.second.here _

theorem numbers_newRegistry (source : RegistrySource) : Numbers allowed Anything (Session.newRegistry source) := by
  intro u numbered
  cases source with
  | fresh reflective =>
    refine (numbers_fresh u numbered).bind passage_counts fun v serial on _ => ?_
    split
    · refine (numbers_addRegistry on.second (below_reflective _ serial)).bind passage_counts fun v id on _ => ?_
      exact (numbers_log _ _ _ v on.second).bind passage_counts fun _ _ on _ => .pure on.second.here trivial
    · exact numbers_addRegistry on.second (below_standard _ serial)
  | bare =>
    exact (numbers_fresh u numbered).bind passage_counts fun v serial on _ =>
      numbers_addRegistry on.second (below_standard _ serial)
  | sharedWith name =>
    exact (numbers_context name u numbered).bind passage_counts fun _ _ on _ => .pure on.second.here trivial
  | copiedFrom name =>
    exact (numbers_context name u numbered).bind passage_counts fun v c on _ => numbers_copyRegistry c v on.second

theorem numbers_addTables (t : TableStore) : Numbers allowed Anything (addTables t) := fun _ numbered =>
  ⟨numbered.aside rfl rfl rfl le_rfl, fun _ _ => trivial⟩

theorem numbers_addSettings (s : Settings) : Numbers allowed Anything (addSettings s) := fun _ numbered =>
  ⟨numbered.aside rfl rfl rfl le_rfl, fun _ _ => trivial⟩

theorem numbers_newContext (spec : ContextSpec) : Numbers allowed Anything (Session.newContext spec) := by
  intro u numbered
  have tables : Numbers allowed Anything (Session.newTables spec.tablesOf) := by
    intro u numbered
    cases spec.tablesOf with
    | none => exact numbers_addTables _ u numbered
    | some name =>
      exact (numbers_context name u numbered).bind passage_counts fun _ _ on _ => .pure on.second.here trivial
  refine (Brings.lift numbered.here _).bind passage_counts fun v checked on _ => ?_
  refine (numbers_newRegistry _ v on.second).bind passage_counts fun v registry on _ => ?_
  refine (tables v on.second).bind passage_counts fun v tables on _ => ?_
  exact (numbers_addSettings _ v on.second).bind passage_counts fun _ _ on _ => .pure on.second.here trivial

theorem numbers_copyContext (c : Context) : Numbers allowed Anything (Session.copyContext c) := by
  intro u numbered
  refine (numbers_copyRegistry c u numbered).bind passage_counts fun v registry on _ => ?_
  refine (numbers_returned (fun _ => ⟨_, rfl⟩) v on.second).bind passage_counts fun v s on _ => ?_
  refine (numbers_addSettings s v on.second).bind passage_counts fun v settings on _ => ?_
  have copied : Numbers allowed Anything (Session.copyTables c) := fun v numbered =>
    (numbers_returned (fun _ => ⟨_, rfl⟩) v numbered).bind passage_counts fun v t on _ =>
      numbers_addTables t v on.second
  exact (copied v on.second).bind passage_counts fun _ _ on _ => .pure on.second.here trivial

/-! ### Registrations -/

theorem numbers_newMapper (wrapped : Bool) (spec : MapperSpec) :
    Numbers allowed Anything (Session.newMapper wrapped spec) :=
  fun u numbered => (numbers_fresh u numbered).bind passage_counts fun _ _ on _ => .pure on.second.here trivial

theorem numbers_customFactory (name : String) (claim : Claim) (mapper : MapperSpec) {onBuild : List Command}
    {u : World} (numbered : u.Numbered allowed) (own : AllowedFrom allowed u.next onBuild) :
    Brings (World.Counts allowed) (fun v f => AllowedFrom allowed v.next f.onBuild)
      (Session.customFactory name claim mapper onBuild) u := by
  refine (numbers_newMapper false mapper u numbered).bind passage_counts fun v made on _ => ?_
  exact (numbers_fresh v on.second).bind passage_counts fun _ _ on' _ =>
    .pure on'.second.here (own.mono (on.next.trans on'.next))

theorem numbers_rowFactory {spec : FactorySpec} {u : World} (numbered : u.Numbered allowed)
    (within : spec.Within allowed u.next) :
    Brings (World.Counts allowed) (fun v f => f.Below allowed v.next) (Session.rowFactory spec) u := by
  cases spec with
  | reflective | arrays => exact .pure numbered.here trivial
  | scalars => exact (numbers_fresh u numbered).bind passage_counts fun _ _ on _ => .pure on.second.here trivial
  | custom name claim mapper onBuild =>
    exact (numbers_customFactory name claim mapper numbered within).bind passage_counts fun _ _ on own =>
      .pure on.second.here own
  | written name columns rows =>
    exact .pure numbered.here within.2

theorem numbers_columnFactory {spec : FactorySpec} {u : World} (numbered : u.Numbered allowed)
    (within : spec.Within allowed u.next) :
    Brings (World.Counts allowed) (fun v f => f.Below allowed v.next) (Session.columnFactory spec) u := by
  cases spec with
  | reflective | arrays => exact .pure numbered.here trivial
  | scalars => exact (numbers_fresh u numbered).bind passage_counts fun _ _ on _ => .pure on.second.here trivial
  | custom name claim mapper onBuild =>
    exact (numbers_customFactory name claim mapper numbered within).bind passage_counts fun _ _ on own =>
      .pure on.second.here own
  | written name columns rows =>
    exact .pure numbered.here within.1

theorem numbers_registerRow (c : Context) {what : Registered} {u : World} (numbered : u.Numbered allowed)
    (within : what.Within allowed u.next) (target : Option TypeExpr) :
    Brings (World.Counts allowed) Anything (Session.registerRow c what target) u := by
  have made : Brings (World.Counts allowed) (fun v f => f.Below allowed v.next)
      (Session.registeredRow what target) u := by
    cases what with
    | mapper spec =>
      refine (numbers_newMapper true spec u numbered).bind passage_counts fun v m on _ => ?_
      refine (Brings.lift on.second.here _).bind passage_counts fun v type on _ => .pure on.second.here ?_
      exact fun _ none => absurd none List.not_mem_nil
    | factory spec => exact numbers_rowFactory numbered within
  refine made.bind passage_counts fun v f on own => ?_
  have changed : Brings (World.Counts allowed) Anything (changeRegistry c (·.registerRow f)) v := by
    refine ⟨on.second.changeRegistry fun r old => ?_, fun _ _ => trivial⟩
    refine ⟨fun g member => ?_, old.columns, List.forall_mem_nil _, old.keptColumns⟩
    rcases List.mem_cons.mp member with rfl | before
    · exact own
    · exact old.rows g before
  exact changed.bind passage_counts fun v _ on _ => numbers_log _ _ _ v on.second

theorem numbers_registerColumn (c : Context) {what : Registered} {u : World} (numbered : u.Numbered allowed)
    (within : what.Within allowed u.next) (target : Option TypeExpr) :
    Brings (World.Counts allowed) Anything (Session.registerColumn c what target) u := by
  have made : Brings (World.Counts allowed) (fun v f => f.Below allowed v.next)
      (Session.registeredColumn what target) u := by
    cases what with
    | mapper spec =>
      refine (numbers_newMapper true spec u numbered).bind passage_counts fun v m on _ => ?_
      refine (Brings.lift on.second.here _).bind passage_counts fun v type on _ => .pure on.second.here ?_
      exact fun _ none => absurd none List.not_mem_nil
    | factory spec => exact numbers_columnFactory numbered within
  refine made.bind passage_counts fun v f on own => ?_
  have changed : Brings (World.Counts allowed) Anything (changeRegistry c (·.registerColumn f)) v := by
    refine ⟨on.second.changeRegistry fun r old => ?_, fun _ _ => trivial⟩
    refine ⟨old.rows, fun g member => ?_, old.keptRows, List.forall_mem_nil _⟩
    rcases List.mem_cons.mp member with rfl | before
    · exact own
    · exact old.columns g before
  exact changed.bind passage_counts fun v _ on _ => numbers_log _ _ _ v on.second

theorem numbers_registerProperties (c : Context) (type : TypeExpr) (properties : List PropertySpec)
    (builder : Option Builder) (nullMarker : Option String) :
    Numbers allowed Anything (Session.registerProperties c type properties builder nullMarker) := by
  intro u numbered
  cases type with
  | cls cls =>
    refine (Brings.get numbered.here).bind passage_counts fun v x on _ => ?_
    refine (numbers_fresh v on.second).bind passage_counts fun v n on _ => ?_
    exact ⟨on.second.aside rfl rfl rfl le_rfl, fun _ _ => trivial⟩
  | _ => exact .pure numbered.here trivial

/-! ### Commands -/

theorem numbers_configure (c : Context) (assignments : List Assignment) (appended : List (Option Matcher)) :
    Numbers allowed Anything (Session.configure c assignments appended) := by
  have assigned : ∀ a, Numbers allowed Anything (Session.assign c a) := by
    intro a u numbered
    refine (numbers_returned (fun _ => ⟨_, rfl⟩) u numbered).bind passage_counts fun v s on _ => ?_
    split
    · exact numbers_changeSettings c _ v on.second
    · exact .throw on.second.here _
  have all : Numbers allowed Anything (assignments.forM (Session.assign c)) := by
    induction assignments with
    | nil => exact fun u numbered => .pure numbered.here trivial
    | cons a as ih =>
      exact fun u numbered => (assigned a u numbered).bind passage_counts fun v _ on _ => ih v on.second
  intro u numbered
  refine (all u numbered).bind passage_counts fun v _ on _ => ?_
  refine (numbers_changeSettings c _ v on.second).bind passage_counts fun v _ on _ => ?_
  exact (numbers_returned (fun _ => ⟨_, rfl⟩) v on.second).bind passage_counts fun _ _ on _ =>
    .pure on.second.here trivial

theorem numbers_children (name : String) : Numbers allowed Anything (Session.children name) := by
  intro u numbered
  refine (numbers_saved name u numbered).bind passage_counts fun v m on _ => ?_
  split
  · refine (Brings.get on.second.here).bind passage_counts fun v x on _ => ?_
    refine Brings.bind (Q := Anything) passage_counts ?_ fun _ _ on _ => .pure on.second.here trivial
    refine .mapM passage_counts on.second.here (fun e v here => ?_) _
    exact (Brings.lift here _).bind passage_counts fun _ _ on _ => .pure on.second.here trivial
  · exact .throw on.second.here _

theorem numbers_build (c : Context) (type : TypeExpr) (values : List (String × Value)) :
    Numbers allowed Anything (Session.build c type values) := by
  intro u numbered
  refine (numbers_table c _ u numbered).bind passage_counts fun v o on _ => ?_
  cases o with
  | none => exact .throw on.second.here _
  | some t =>
    refine (Brings.lift on.second.here _).bind passage_counts fun v ks on _ => ?_
    refine (Brings.get on.second.here).bind passage_counts fun v x on _ => ?_
    exact (Brings.lift on.second.here _).bind passage_counts fun _ _ on _ => .pure on.second.here trivial

theorem numbers_reflectiveMapper (type : TypeExpr) (lead : String) :
    Numbers allowed (fun v m => m.serial < v.next) (Session.reflectiveMapper type lead) :=
  fun u numbered => (numbers_fresh u numbered).bind passage_counts fun _ _ on below => .pure on.second.here below

section Commands

variable {h : Hooks} (bearing : ∀ c, Bearing (World.Counts allowed) h c (fun _ _ => True) fun u m => m.serial < u.next)
include bearing

theorem numbers_specialized (c : Context) {m : RowMapper} {u : World} (numbered : u.Numbered allowed)
    (own : m.Below u.next) (row : RowSpec) (name : Option String) :
    Brings (World.Counts allowed) Anything (Session.specialized h c m row name) u := by
  refine (Brings.lift numbered.here _).bind passage_counts fun v row on _ => ?_
  refine ((bearing c).specializeRow (RowMapper.Below.mono on.next own) row.columns on.second.here).bind
    passage_counts fun v ready on below => ?_
  have kept : ∀ n, Brings (World.Counts allowed) Anything
      (do save n ready; return Answer.mapper ready : MappingM Answer) v := fun n =>
    (numbers_save n on.second below).bind passage_counts fun _ _ on _ => .pure on.second.here trivial
  cases name with
  | none => exact .pure on.second.here trivial
  | some n => exact kept n

/-- All numbers in the worlds that allowed commands lead to were given out before. -/
theorem numbers_run {command : Command} {u : World} (numbered : u.Numbered allowed)
    (within : command.Within allowed u.next) :
    Brings (World.Counts allowed) Anything (Session.run h command) u := by
  have named : ∀ (name : String) {α : Type} {f : Context → MappingM α},
      (∀ c v, v.Numbered allowed → Brings (World.Counts allowed) Anything (f c) v) →
        Brings (World.Counts allowed) Anything (context name >>= f) u := fun name _ _ rest =>
    (numbers_context name u numbered).bind passage_counts fun v c on _ => rest c v on.second
  have done : ∀ {α : Type} {Q : World → α → Prop} {x : MappingM α} {f : α → Answer} {v : World},
      Brings (World.Counts allowed) Q x v → Brings (World.Counts allowed) Anything (x >>= fun a => Pure.pure (f a)) v :=
    fun first => first.bind passage_counts fun _ _ on _ => .pure on.second.here trivial
  -- Look-ups and mappings are answered alike, whichever command asks for them.
  by_cases reads : ∃ name, command.reads? = some name
  · obtain ⟨name, reads⟩ := reads
    rw [Session.run_reads reads]
    exact named name fun c v numbered => (bearing c).answer numbered.here command
  cases command with
  | findRow | findColumn | requireRow | mapOne | mapMany | mapCursor | mapColumn => exact absurd ⟨_, rfl⟩ reads
  | newContext name spec =>
    refine (numbers_newContext spec u numbered).bind passage_counts fun v c on _ => ?_
    exact done (numbers_nameContext name c v on.second)
  | copyContext source name =>
    refine named source fun c v numbered => ?_
    refine (numbers_copyContext c v numbered).bind passage_counts fun v c on _ => ?_
    exact done (numbers_nameContext name c v on.second)
  | registerRow name what target =>
    refine (numbers_context name u numbered).bind passage_counts fun v c on _ => ?_
    exact done (numbers_registerRow c on.second (Registered.Within.mono on.next within) target)
  | registerColumn name what target =>
    refine (numbers_context name u numbered).bind passage_counts fun v c on _ => ?_
    exact done (numbers_registerColumn c on.second (Registered.Within.mono on.next within) target)
  | registerProperties name type properties builder nullMarker =>
    exact named name fun c v numbered => done (numbers_registerProperties c _ _ _ _ v numbered)
  | sameRow name a b =>
    refine named name fun c v numbered => ?_
    refine ((bearing c).findRow (.of a) numbered.here).bind passage_counts fun v _ on _ => ?_
    exact done ((bearing c).findRow (.of b) on.second.here)
  | sameColumn name a b =>
    refine named name fun c v numbered => ?_
    refine ((bearing c).findColumn (.of a) numbered.here).bind passage_counts fun v _ on _ => ?_
    exact done ((bearing c).findColumn (.of b) on.second.here)
  | factories name =>
    exact named name fun c v numbered => done (numbers_returned (fun _ => ⟨_, rfl⟩) v numbered)
  | configure name assignments appended =>
    exact named name fun c v numbered => numbers_configure c assignments appended v numbered
  | reflectiveMapper name type lead =>
    refine (numbers_reflectiveMapper type lead u numbered).bind passage_counts fun v m on below => ?_
    have shown : ∀ v, v.Numbered allowed → Brings (World.Counts allowed) Anything
        (do return .text (← (RowMapper.reflective m).shown) : MappingM Answer) v := fun v numbered =>
      done (Brings.lift numbered.here _)
    cases name with
    | none => exact shown v on.second
    | some n =>
      have own : (RowMapper.reflective m).Below v.next := fun k member => List.mem_singleton.mp member ▸ below
      exact (numbers_save n on.second own).bind passage_counts fun v _ on _ => shown v on.second
  | specializeSaved name mapper row keep =>
    refine named name fun c v numbered => ?_
    exact (numbers_saved mapper v numbered).bind passage_counts fun v m on own =>
      numbers_specialized bearing c on.second own row keep
  | specializeType name type row keep =>
    refine named name fun c v numbered => ?_
    exact ((bearing c).requireRow (.of type) numbered.here).bind passage_counts fun v m on own =>
      numbers_specialized bearing c on.second own row keep
  | mapSaved name mapper row =>
    refine (numbers_saved mapper u numbered).bind passage_counts fun v m on own => ?_
    refine (Brings.lift on.second.here _).bind passage_counts fun v row on' _ => ?_
    refine (numbers_context name v on'.second).bind passage_counts fun v c on'' _ => ?_
    have fits : m.Below v.next := RowMapper.Below.mono (on'.next.trans on''.next) own
    rw [StateT.run'_eq, map_eq_pure_bind]
    refine done (Q := Anything) ?_
    exact ((bearing c).rowMapper fits on''.second.here row).bind passage_counts fun _ _ on _ =>
      .pure on.second.here trivial
  | children mapper => exact numbers_children mapper u numbered
  | properties name type =>
    exact named name fun c v numbered => done (numbers_table c _ v numbered)
  | sameProperties name a b =>
    refine named name fun c v numbered => ?_
    refine (numbers_table c _ v numbered).bind passage_counts fun v _ on _ => ?_
    exact done (numbers_table c _ v on.second)
  | build name type values => exact named name fun c v numbered => numbers_build c type values v numbered

theorem counts_step {command : Command} {u : World} (numbered : u.Numbered allowed)
    (within : command.Within allowed u.next) : u.Counts allowed (Session.step h command u).2 := by
  have clear : u.Idles { u with reports := [], log := [] } := ⟨rfl, le_rfl⟩
  have led := (numbers_run bearing (numbered.idle clear).second within).1
  have kept : ∀ v : World, v.Idles { v with reports := u.reports, log := u.log } := fun v => ⟨rfl, le_rfl⟩
  exact passage_counts.trans (passage_counts.trans (numbered.idle clear) led) (led.second.idle (kept _))

theorem numbers_performAll (closed : ∀ n command, allowed n command → command.Within allowed n)
    {commands : List Command} {u : World} (numbered : u.Numbered allowed) (own : AllowedFrom allowed u.next commands) :
    Brings (World.Counts allowed) Anything (commands.forM (Session.performOne h)) u := by
  induction commands generalizing u with
  | nil => exact .pure numbered.here trivial
  | cons command commands ih =>
    have step := counts_step bearing numbered (closed _ command (own command List.mem_cons_self _ le_rfl))
    have performed : Brings (World.Counts allowed) Anything (Session.performOne h command) u :=
      ⟨passage_counts.trans step (step.second.idle ⟨rfl, le_rfl⟩), fun _ _ => trivial⟩
    have rest : AllowedFrom allowed u.next commands := fun c member => own c (List.mem_cons_of_mem command member)
    exact performed.bind passage_counts fun v _ on _ => ih on.second (rest.mono on.next)

end Commands

section Hooks

variable (closed : ∀ n command, allowed n command → command.Within allowed n)
include closed

theorem number_hooks (depth : Nat) : (Session.hooks depth).Number allowed ∧
    ∀ c, Bearing (World.Counts allowed) (Session.hooks depth) c (fun _ _ => True) fun u m => m.serial < u.next := by
  induction depth with
  | zero =>
    have performs : ∀ commands : List Command, Numbers allowed Anything
        (commands.forM fun _ => throw Failure.exhausted : MappingM PUnit) := by
      intro commands
      induction commands with
      | nil => exact fun u numbered => .pure numbered.here trivial
      | cons _ _ ih =>
        exact fun u numbered => (Brings.throw (Q := Anything) numbered.here _).bind passage_counts fun v _ on _ =>
          ih v on.second
    have number : (Session.hooks 0).Number allowed :=
      ⟨fun commands u numbered _ => performs commands u numbered, fun _ _ u numbered => .throw numbered.here _,
        fun _ _ u numbered => .throw numbered.here _⟩
    exact ⟨number, fun c => bearing_counts number c (fun _ _ _ u numbered => .throw numbered.here _)
      fun _ _ u numbered => .throw numbered.here _⟩
  | succ depth ih =>
    have number : (Session.hooks (depth + 1)).Number allowed :=
      ⟨fun commands u numbered own => numbers_performAll ih.2 closed numbered own,
        fun c key => numbers_columnAs ih.1 key key.nullable, fun c key => numbers_row ih.1 key⟩
    exact ⟨number, fun c => bearing_counts number c
      (fun type index cells u numbered => (ih.2 c).hookColumn type index cells numbered.here)
      fun type cells u numbered => (ih.2 c).hookRow type cells numbered.here⟩

theorem numbered_after {commands : List Command} {w : World} (numbered : w.Numbered allowed)
    (own : AllowedAlong allowed w commands) : (Session.after commands w).Numbered allowed := by
  induction commands generalizing w with
  | nil => exact numbered
  | cons command commands ih =>
    exact ih (counts_step (number_hooks closed Session.depth).2 numbered (closed _ command own.1)).second own.2

end Hooks

theorem numbered_start {s : Schema} {loggers : List Logger} {spec : ContextSpec} {w : World}
    (started : Session.start s loggers spec = .ok w) : w.Numbered allowed := by
  obtain ⟨r, checked, kind, rfl⟩ := start_eq started
  refine ⟨fun t member => ?_, List.forall_mem_nil _, List.forall_mem_nil _⟩
  rw [List.mem_singleton.mp member]
  rcases kind with rfl | rfl
  · exact below_standard _ 0
  · exact below_reflective _ 0

end RowMapping
