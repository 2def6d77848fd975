import RowMapping.Proofs.Mapper.Scripts
import RowMapping.Proofs.Registry.Findings
import RowMapping.Proofs.Types.Sameness

/-! Sessions that differ in their settings only. Look-ups in a context whose factories run no commands read no
settings and change none, so they come to the same in both, and leave them apart in nothing else. Where its
mappers do not heed the switches, neither do the mappers that are found. -/
namespace RowMapping

open MappingM

/-! ### Mappers that do not heed the switches -/

def CustomMapper.Blind (m : CustomMapper) : Prop := m.spec.behaviour.Blind fun s t => s.matchers = t.matchers

def ColumnMapper.Blind : ColumnMapper → Prop
  | .custom m => m.Blind
  | _ => True

def RowMapper.Blind : RowMapper → Prop
  | .single _ m _ => m.Blind
  | .planned _ plan => plan.Reads ColumnMapper.Blind
  | .custom m => m.Blind
  | .reflective _ | .misplaced _ => True

/-- The procedure runs no commands, and told mappers that do not heed the switches it answers with such. -/
def Procedure.Discreet {Mapper : Type} (good : Mapper → Prop) : Procedure Command Mapper → Prop
  | .answer o => ∀ m ∈ o, good m
  | .raise _ => True
  | .column _ next => ∀ o, (∀ m ∈ o, ColumnMapper.Blind m) → Discreet good (next o)
  | .row _ next => ∀ o, (∀ m ∈ o, RowMapper.Blind m) → Discreet good (next o)
  | .perform _ _ => False

def ColumnFactory.Discreet : ColumnFactory → Prop
  | .fixed _ m => m.Blind
  | .custom f => f.onBuild = [] ∧ f.mapper.Blind
  | .written _ ask => ∀ d, (ask d).Discreet ColumnMapper.Blind
  | .scalars _ | .arrays | .reflective .. => True

def RowFactory.Discreet : RowFactory → Prop
  | .fixed _ m => m.Blind
  | .custom f => f.onBuild = [] ∧ f.mapper.Blind
  | .written _ ask => ∀ d, (ask d).Discreet RowMapper.Blind
  | .reflective .. | .scalars _ | .arrays => True

/-- Factories run no commands, and neither the mappers that they make nor those that are kept heed the
switches. -/
structure Registry.Discreet (r : Registry) : Prop where
  rows : ∀ f ∈ r.rows.factories, f.Discreet
  columns : ∀ f ∈ r.columns.factories, f.Discreet
  keptRows : ∀ e ∈ r.rows.cache, e.2.Blind
  keptColumns : ∀ e ∈ r.columns.cache, e.2.Blind

/-- The worlds have these settings and those, and are one in everything else; the context is discreet. -/
structure World.Switched (c : Context) (ss ts : List Settings) (w v : World) : Prop where
  first : w.settings = ss
  second : v = { w with settings := ts }
  discreet : ((w.registries[c.registry]?).getD default).Discreet

/-- What comes to the same whatever the settings, but for failures that are passed over, and leaves nothing else
different. -/
abbrev Aligned (l : Leniency) (c : Context) (ss ts : List Settings) {α : Type} (x : MappingM α) : Prop :=
  Together l (World.Switched c ss ts) (· = ·) x x

abbrev AlignedOver (l : Leniency) (c : Context) (ss ts : List Settings) {σ α : Type} (x : StateT σ MappingM α) :
    Prop := TogetherOver l (World.Switched c ss ts) (· = ·) x x

abbrev Supplied (l : Leniency) (c : Context) (ss ts : List Settings) {α : Type} (good : α → Prop)
    (x : MappingM (Option α)) : Prop :=
  Together l (World.Switched c ss ts) (fun o p => o = p ∧ ∀ m ∈ o, good m) x x

variable {l : Leniency} {c : Context} {ss ts : List Settings}

/-! ### The state -/

section State

variable {α : Type}

theorem aligned_aside {x : MappingM α}
    (blind : ∀ w ts, x.run { w with settings := ts } = ((x.run w).1, { (x.run w).2 with settings := ts }))
    (keeps : ∀ w, (x.run w).2.settings = w.settings ∧ (x.run w).2.registries = w.registries) :
    Aligned l c ss ts x := by
  rintro w _ ⟨first, rfl, discreet⟩
  rw [blind w ts]
  refine .inr ⟨.refl (fun _ => rfl) _, (keeps w).1.trans first, rfl, ?_⟩
  rw [(keeps w).2]
  exact discreet

theorem aligned_fresh : Aligned l c ss ts fresh := aligned_aside (fun _ _ => rfl) fun _ => ⟨rfl, rfl⟩

theorem aligned_note (s : String) : Aligned l c ss ts (note s) :=
  aligned_aside (fun _ _ => rfl) fun _ => ⟨rfl, rfl⟩

theorem aligned_count (m : CustomMapper) : Aligned l c ss ts (countCall m) :=
  aligned_aside (fun _ _ => rfl) fun _ => ⟨rfl, rfl⟩

theorem run_logged (level : LogLevel) (logger : Logger) (text : String) (w : World) :
    (log level logger text).run w =
      (.ok (), if w.loggers.contains logger then { w with log := w.log ++ [⟨level, logger, text⟩] } else w) := rfl

theorem aligned_log (level : LogLevel) (logger : Logger) (text : String) :
    Aligned l c ss ts (log level logger text) := by
  refine aligned_aside (fun w ts => ?_) fun w => ?_
  · rw [run_logged, run_logged]
    dsimp only
    split
    · rfl
    · rfl
  · rw [run_logged]
    dsimp only
    split
    · exact ⟨rfl, rfl⟩
    · exact ⟨rfl, rfl⟩

theorem aligned_tables (e : Context) : Aligned l c ss ts (tables e) :=
  aligned_aside (fun _ _ => rfl) fun _ => ⟨rfl, rfl⟩

theorem aligned_changeTables (e : Context) (f : TableStore → TableStore) :
    Aligned l c ss ts (changeTables e f) := aligned_aside (fun _ _ => rfl) fun _ => ⟨rfl, rfl⟩

theorem aligned_get {β : Type} (part : World → β) (blind : ∀ w ts, part { w with settings := ts } = part w) :
    Together l (World.Switched c ss ts) (fun w v => part w = part v) get get := by
  refine Together.get.mono fun w v worlds => ?_
  rw [worlds.second]
  exact (blind w ts).symm

theorem aligned_table (e : Context) (raw : RawType) : Aligned l c ss ts (table? e raw) := by
  unfold table?
  refine (aligned_tables e).bind_same fun store => ?_
  dsimp only
  split
  · exact .pure rfl
  · exact .pure rfl
  · refine (aligned_get World.schema fun _ _ => rfl).bind fun w v schema => ?_
    rw [schema]
    split
    · exact .pure rfl
    · split
      · exact .pure rfl
      · unfold derive?
        refine (aligned_get World.schema fun _ _ => rfl).bind fun w v schema => ?_
        refine (aligned_get World.next fun _ _ => rfl).bind fun w v next => ?_
        rw [schema, next]
        refine (Together.liftSame _).bind_same fun found => ?_
        split
        · exact .pure rfl
        · exact aligned_fresh.bind_same fun _ => (aligned_changeTables _ _).bind_same fun _ => .pure rfl

theorem aligned_child (m : ReflectiveMapper) (p : Property) : Aligned l c ss ts (ReflectiveMapper.child m p) := by
  unfold ReflectiveMapper.child
  refine (aligned_get World.children fun _ _ => rfl).bind fun w v children => ?_
  rw [children]
  split
  · exact .pure rfl
  · refine aligned_fresh.bind_same fun serial => ?_
    have kept : Aligned l c ss ts (modify fun w => { w with children := w.children ++ [⟨m, p, serial⟩] }) :=
      aligned_aside (fun _ _ => rfl) fun _ => ⟨rfl, rfl⟩
    exact kept.bind_same fun _ => .pure rfl

end State

/-! ### Look-ups -/

structure Hooks.Aligned (l : Leniency) (c : Context) (ss ts : List Settings) (h : Hooks) : Prop where
  performs : h.perform [] = pure ()
  findColumn : ∀ key, Supplied l c ss ts ColumnMapper.Blind (h.findColumn c key)
  findRow : ∀ key, Supplied l c ss ts RowMapper.Blind (h.findRow c key)
  column : ∀ type index row, RowMapping.Aligned l c ss ts (h.column c type index row)
  row : ∀ type row, RowMapping.Aligned l c ss ts (h.row c type row)

def SuppliedItems (l : Leniency) (c : Context) (ss ts : List Settings)
    (element : Option (MappingM (Option ColumnMapper))) : Prop :=
  ∀ x ∈ element, Supplied l c ss ts ColumnMapper.Blind x

section Lookups

theorem found_none {α : Type} {good : α → Prop} : (none : Option α) = none ∧ ∀ m ∈ (none : Option α), good m :=
  ⟨rfl, fun _ never => nomatch never⟩

theorem found_some {α : Type} {good : α → Prop} {m : α} (own : good m) : some m = some m ∧ ∀ n ∈ some m, good n :=
  ⟨rfl, by rintro _ ⟨⟩; exact own⟩

theorem supplied_fixed {α : Type} {good : α → Prop} {m : α} (own : good m) (key target : Descriptor) :
    Supplied l c ss ts good (pure (if key.same target then some m else none)) := by
  split
  · exact .pure (found_some own)
  · exact .pure found_none

theorem Supplied.bind {α β : Type} {good : α → Prop} {S : β → β → Prop} {x : MappingM (Option α)}
    {f : Option α → MappingM β} (first : Supplied l c ss ts good x)
    (rest : ∀ o, (∀ m ∈ o, good m) → Together l (World.Switched c ss ts) S (f o) (f o)) :
    Together l (World.Switched c ss ts) S (x >>= f) (x >>= f) :=
  Together.bind first fun o _ ⟨same, own⟩ => same ▸ rest o own

theorem aligned_registry :
    Together l (World.Switched c ss ts) (fun r t => r = t ∧ r.Discreet) (registry c) (registry c) := by
  rintro w _ ⟨first, rfl, discreet⟩
  exact .inr ⟨⟨rfl, discreet⟩, first, rfl, discreet⟩

theorem aligned_changeRegistry {f : Registry → Registry} (keeps : ∀ r, r.Discreet → (f r).Discreet) :
    Aligned l c ss ts (changeRegistry c f) := by
  rintro w _ ⟨first, rfl, discreet⟩
  refine .inr ⟨rfl, first, rfl, ?_⟩
  show (((w.registries.modify c.registry f)[c.registry]?).getD default).Discreet
  rw [List.getElem?_modify_eq]
  cases known : w.registries[c.registry]? with
  | none =>
    rw [known] at discreet
    exact discreet
  | some r =>
    rw [known] at discreet
    exact keeps r discreet

theorem supplied_scalarOf (origin : Nat) (key : Descriptor) :
    Supplied l c ss ts ColumnMapper.Blind (Registry.scalarOf origin key) := by
  unfold Registry.scalarOf
  split
  · refine (aligned_get World.schema fun _ _ => rfl).bind fun w v schema => ?_
    rw [schema]
    split
    · exact .pure (found_some trivial)
    · exact .pure found_none
  · exact .pure found_none

theorem supplied_arrayOf (key : Descriptor) {element : Option (MappingM (Option ColumnMapper))}
    (items : SuppliedItems l c ss ts element) :
    Supplied l c ss ts ColumnMapper.Blind (Registry.arrayOf key element) := by
  unfold Registry.arrayOf
  split
  · refine (items _ rfl).bind fun found _ => ?_
    unfold Registry.arrayFrom
    split
    · exact aligned_fresh.bind_same fun _ => .pure (found_some trivial)
    · exact .pure found_none
  · exact .pure found_none

theorem aligned_reflectiveFor (targets : Option (List RawType)) (lead : String) (key : Descriptor) :
    Aligned l c ss ts (Registry.reflectiveFor c targets lead key) := by
  unfold Registry.reflectiveFor
  split
  · refine (aligned_table c key.raw).bind_same fun found => ?_
    split
    · exact aligned_fresh.bind_same fun serial => .pure rfl
    · exact .pure rfl
  · exact .pure rfl

theorem supplied_reflective {α : Type} {good : α → Prop} {made : ReflectiveMapper → α} (own : ∀ m, good (made m))
    (targets : Option (List RawType)) (lead : String) (key : Descriptor) :
    Supplied l c ss ts good (do return (← Registry.reflectiveFor c targets lead key).map made) := by
  refine (aligned_reflectiveFor targets lead key).bind_same fun found => .pure ⟨rfl, fun m known => ?_⟩
  obtain ⟨r, _, rfl⟩ := Option.map_eq_some_iff.mp known
  exact own r

variable {h : Hooks} (aligned : h.Aligned l c ss ts)
include aligned

theorem supplied_askCustom {f : CustomFactory} (silent : f.onBuild = []) (key : Descriptor) :
    Supplied l c ss ts (· = f.mapper) (Registry.askCustom h f key) := by
  unfold Registry.askCustom
  rw [silent, aligned.performs]
  refine (aligned_note _).bind_same fun _ => ?_
  split
  · refine (aligned_get World.claimed fun _ _ => rfl).bind fun w v claimed => ?_
    dsimp only
    rw [claimed]
    split
    · have kept : Aligned l c ss ts (modify fun w => { w with claimed := f.serial :: w.claimed }) :=
        aligned_aside (fun _ _ => rfl) fun _ => ⟨rfl, rfl⟩
      exact kept.bind_same fun _ => (Together.pure rfl).bind_same fun _ => .pure (found_some rfl)
    · exact .pure (found_some rfl)
  · exact .pure found_none

theorem supplied_custom {f : CustomFactory} (silent : f.onBuild = []) {α : Type} {good : α → Prop}
    {made : CustomMapper → α} (own : good (made f.mapper)) (key : Descriptor) :
    Supplied l c ss ts good (do return (← Registry.askCustom h f key).map made) := by
  refine (supplied_askCustom aligned silent key).bind fun found same => .pure ⟨rfl, fun m known => ?_⟩
  obtain ⟨n, member, rfl⟩ := Option.map_eq_some_iff.mp known
  rw [same n member]
  exact own

theorem supplied_follow {Mapper : Type} {good : Mapper → Prop} {p : Procedure Command Mapper}
    (discreet : p.Discreet good) : Supplied l c ss ts good (Registry.follow h c p) := by
  induction p with
  | answer o => exact .pure ⟨rfl, discreet⟩
  | raise r => exact .throw _
  | column type next ih => exact (aligned.findColumn type).bind fun found own => ih found (discreet found own)
  | row type next ih => exact (aligned.findRow type).bind fun found own => ih found (discreet found own)
  | perform commands next => exact discreet.elim

theorem supplied_askColumn (key : Descriptor) {element : Option (MappingM (Option ColumnMapper))}
    (items : SuppliedItems l c ss ts element) {f : ColumnFactory} (discreet : f.Discreet) :
    Supplied l c ss ts ColumnMapper.Blind (Registry.askColumn h c key element f) := by
  cases f with
  | scalars origin => exact supplied_scalarOf origin key
  | arrays => exact supplied_arrayOf key items
  | fixed target mapper => exact supplied_fixed (show mapper.Blind from discreet) key.boxed target
  | custom f => exact supplied_custom aligned discreet.1 discreet.2 key
  | written name ask => exact supplied_follow aligned (discreet key)
  | reflective targets lead => exact supplied_reflective (fun _ => trivial) targets lead key

omit aligned in
/-- Asking factories in order comes to the same where asking each one does. -/
theorem supplied_scan {Factory Mapper : Type} {good : Mapper → Prop} {ask : Factory → MappingM (Option Mapper)}
    {fs : List Factory} (each : ∀ f ∈ fs, Supplied l c ss ts good (ask f)) :
    Supplied l c ss ts good (Chain.scan ask fs) :=
  Together.scan (fun _ _ same => congrArg _ same.1) found_none (List.forall₂_same.mpr each)

omit aligned in
theorem aligned_recordColumn (generation : Nat) (key : Descriptor) {found : Option ColumnMapper}
    (own : ∀ m ∈ found, m.Blind) : Aligned l c ss ts (Registry.recordColumn c generation key found) := by
  cases found with
  | none => exact aligned_log _ _ _
  | some m =>
    refine (aligned_changeRegistry fun r discreet => ?_).bind_same fun _ => aligned_log _ _ _
    split
    · refine ⟨discreet.rows, discreet.columns, discreet.keptRows, fun e member => ?_⟩
      rcases Chain.mem_store member with rfl | kept
      · exact own m rfl
      · exact discreet.keptColumns e kept
    · exact discreet

theorem supplied_findColumnAs (key : Descriptor) (nullable : Bool) :
    Supplied l c ss ts ColumnMapper.Blind (Registry.findColumnAs h c key nullable) := by
  induction key using Descriptor.induct_args generalizing nullable with
  | step key ih =>
  obtain ⟨raw, args, admitted⟩ := key
  have items : SuppliedItems l c ss ts (Registry.findElement h c args) := by
    cases args with
    | nil => rintro x ⟨⟩
    | cons d ds =>
      rintro x ⟨⟩
      exact ih d List.mem_cons_self true
  refine aligned_registry.bind fun r _ ⟨same, discreet⟩ => ?_
  subst same
  dsimp only
  split
  · next m hit => exact .pure (found_some (Chain.cached_good discreet.keptColumns hit))
  · have asked : ∀ f ∈ r.columns.factories, Supplied l c ss ts ColumnMapper.Blind
        (Registry.askColumn h c ⟨raw, args, nullable⟩ (Registry.findElement h c args) f) :=
      fun f member => supplied_askColumn aligned _ items (discreet.columns f member)
    exact (supplied_scan asked).bind fun found own => (aligned_recordColumn _ _ own).bind_same fun _ =>
      .pure ⟨rfl, own⟩

theorem supplied_findColumn (key : Descriptor) :
    Supplied l c ss ts ColumnMapper.Blind (Registry.findColumn h c key) :=
  supplied_findColumnAs aligned key key.nullable

omit aligned in
theorem supplied_misplaced {x : MappingM (Option ColumnMapper)} {good : ColumnMapper → Prop}
    (first : Supplied l c ss ts good x) :
    Supplied l c ss ts RowMapper.Blind (do return (← x).map RowMapper.misplaced) := by
  refine first.bind fun found _ => .pure ⟨rfl, fun m known => ?_⟩
  obtain ⟨n, _, rfl⟩ := Option.map_eq_some_iff.mp known
  trivial

theorem supplied_askRow (key : Descriptor) {f : RowFactory} (discreet : f.Discreet) :
    Supplied l c ss ts RowMapper.Blind (Registry.askRow h c key f) := by
  have items : SuppliedItems l c ss ts (Registry.findElement h c key.args) := by
    cases key.args with
    | nil => rintro x ⟨⟩
    | cons d ds =>
      rintro x ⟨⟩
      exact supplied_findColumnAs aligned d true
  cases f with
  | reflective targets lead => exact supplied_reflective (fun _ => trivial) targets lead key
  | fixed target mapper => exact supplied_fixed (show mapper.Blind from discreet) key.boxed target
  | custom f => exact supplied_custom aligned discreet.1 discreet.2 key
  | written name ask => exact supplied_follow aligned (discreet key)
  | scalars origin => exact supplied_misplaced (supplied_scalarOf origin key)
  | arrays => exact supplied_misplaced (supplied_arrayOf key items)

theorem supplied_buildRow (key : Descriptor) {fs : List RowFactory} (discreet : ∀ f ∈ fs, f.Discreet) :
    Supplied l c ss ts RowMapper.Blind (Registry.buildRow h c key fs) := by
  refine (supplied_scan fun f member => supplied_askRow aligned key (discreet f member)).bind fun found own => ?_
  cases found with
  | some m => exact .pure ⟨rfl, own⟩
  | none =>
    refine (supplied_findColumn aligned key).bind fun column own => ?_
    cases column with
    | none => exact .pure found_none
    | some m => exact aligned_fresh.bind_same fun _ => .pure (found_some (own m rfl))

omit aligned in
theorem aligned_recordRow (key : Descriptor) {found : Option RowMapper} (own : ∀ m ∈ found, m.Blind) :
    Aligned l c ss ts (Registry.recordRow c key found) := by
  cases found with
  | none => exact aligned_log _ _ _
  | some m =>
    refine (aligned_changeRegistry fun r discreet => ?_).bind_same fun _ => aligned_log _ _ _
    refine ⟨discreet.rows, discreet.columns, fun e member => ?_, discreet.keptColumns⟩
    rcases Chain.mem_store member with rfl | kept
    · exact own m rfl
    · exact discreet.keptRows e kept

theorem supplied_findRow (key : Descriptor) :
    Supplied l c ss ts RowMapper.Blind (Registry.findRow h c key) := by
  refine aligned_registry.bind fun r _ ⟨same, discreet⟩ => ?_
  subst same
  dsimp only
  split
  · next m hit => exact .pure (found_some (Chain.cached_good discreet.keptRows hit))
  · exact (supplied_buildRow aligned key discreet.rows).bind fun found own =>
      (aligned_recordRow key own).bind_same fun _ => .pure ⟨rfl, own⟩

theorem supplied_requireRow (key : Descriptor) :
    Together l (World.Switched c ss ts) (fun m n => m = n ∧ m.Blind) (Registry.requireRow h c key)
      (Registry.requireRow h c key) := by
  refine (supplied_findRow aligned key).bind fun found own => ?_
  cases found with
  | none => exact .throw _
  | some m => exact .pure ⟨rfl, own m rfl⟩

end Lookups
end RowMapping
