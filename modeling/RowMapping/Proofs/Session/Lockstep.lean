import RowMapping.Proofs.Mapper.Batches
import RowMapping.Proofs.Mapper.Coupled

/-! Contexts in step. Two contexts, each in a session of its own, are in step if their factories, what they
keep, their properties and their settings correspond but for serial numbers. Look-ups and mapping come to
the same in both, leave them in step, and touch nothing of other contexts. -/
namespace RowMapping

open MappingM ReflectiveMapper

/-! ### Chains -/

structure Chain.Matched {Factory Mapper : Type} [Serial Mapper] (same : Factory → Factory → Prop)
    (good : Mapper → Prop) (a b : Chain Factory Mapper) : Prop where
  factories : List.Forall₂ same a.factories b.factories
  cache : List.Forall₂ (fun e f => e.1 = f.1 ∧ Twins 0 e.2 f.2 ∧ good e.2) a.cache b.cache
  generation : a.generation = b.generation

namespace Chain.Matched

variable {Factory Mapper : Type} [Serial Mapper] {same : Factory → Factory → Prop}
  {good : Mapper → Prop} {a b : Chain Factory Mapper} (matched : a.Matched same good b)
include matched

theorem cached (key : Descriptor) : FoundAs 0 good (a.cached? key) (b.cached? key) := by
  obtain ⟨factories, entries, generation⟩ := a
  obtain ⟨factories', entries', generation'⟩ := b
  have cache : List.Forall₂ _ entries entries' := matched.cache
  unfold Chain.cached?
  dsimp only
  clear matched
  induction cache with
  | nil => exact foundAs_none
  | @cons e f _ _ kept _ ih =>
    rw [List.find?_cons, List.find?_cons, ← kept.1]
    split
    · exact foundAs_some kept.2.1 kept.2.2
    · exact ih

theorem store {m m' : Mapper} (twins : Twins 0 m m') (own : good m) (key : Descriptor) :
    (a.store key m).Matched same good (b.store key m') := by
  refine ⟨matched.factories, .cons ⟨rfl, twins, own⟩ ?_, matched.generation⟩
  refine List.rel_filter (fun e f kept => ?_) matched.cache
  show (!e.1.same key) = true ↔ (!f.1.same key) = true
  rw [kept.1]

theorem register {f g : Factory} (new : same f g) : (a.register f).Matched same good (b.register g) :=
  ⟨.cons new matched.factories, .nil, congrArg (· + 1) matched.generation⟩

theorem snapshot : a.snapshot.Matched same good b.snapshot := ⟨matched.factories, matched.cache, rfl⟩

end Chain.Matched

/-- Registries of quiet factories that correspond but for serial numbers. -/
structure Registry.Matched (r t : Registry) : Prop where
  rows : r.rows.Matched (RowFactory.Matched .exact 0) RowMapper.Stateless t.rows
  columns : r.columns.Matched (ColumnFactory.Matched .exact 0) ColumnMapper.Stateless t.columns

/-! ### Contexts -/

def PropertyTable.NestsClasses (t : PropertyTable) : Prop :=
  ∀ p ∈ t.properties, p.nested.isSome → p.type.raw.class?.isSome

/-- Two contexts resolve types, map rows and are configured alike. -/
structure World.InStep (c d : Context) (w v : World) : Prop where
  schema : w.schema = v.schema
  registry : ∃ r t, w.registries[c.registry]? = some r ∧ v.registries[d.registry]? = some t ∧ r.Matched t
  settings : ∃ s, w.settings[c.settings]? = some s ∧ v.settings[d.settings]? = some s
  present : c.tables < w.tables.length ∧ d.tables < v.tables.length
  tabled : w.Tabled 0 c d v
  nested : ∀ cls t, w.tableFor c cls = some t → t.NestsClasses

structure World.Beside (c : Context) (w v : World) : Prop where
  schema : v.schema = w.schema
  contexts : v.contexts = w.contexts
  registryCount : v.registries.length = w.registries.length
  registry : ∀ i, i ≠ c.registry → v.registries[i]? = w.registries[i]?
  tableCount : v.tables.length = w.tables.length
  tabled : ∀ e : Context, e.tables ≠ c.tables → w.Tabled 0 e e v
  settingCount : v.settings.length = w.settings.length
  setting : ∀ i, i ≠ c.settings → v.settings[i]? = w.settings[i]?

structure World.Unmoved (w v : World) : Prop where
  schema : v.schema = w.schema
  contexts : v.contexts = w.contexts
  registries : v.registries = w.registries
  tables : v.tables = w.tables
  settings : v.settings = w.settings

theorem World.Idles.unmoved {w v : World} (idle : w.Idles v) : w.Unmoved v := by
  constructor <;> rw [idle.rest]

namespace World

variable {c d : Context} {w v w' v' : World}

theorem Unmoved.tabled (unmoved : w.Unmoved v) (e : Context) : w.Tabled 0 e e v :=
  tabled_of_tables unmoved.schema unmoved.tables (Nat.zero_le _) (Nat.zero_le _) e

theorem Tabled.symm {n : Nat} (tabled : w.Tabled n c d v) : v.Tabled n d c w := fun cls => (tabled cls).symm

theorem Tabled.trans {n : Nat} {e : Context} {u : World} (tabled : w.Tabled n c d v)
    (next : v.Tabled n d e u) : w.Tabled n c e u := fun cls => (tabled cls).trans (next cls)

theorem nested_of_tabled (tabled : w.Tabled 0 c d v)
    (nested : ∀ cls t, w.tableFor c cls = some t → t.NestsClasses) :
    ∀ cls t, v.tableFor d cls = some t → t.NestsClasses := by
  intro cls t known
  rcases (tabled cls).cases with ⟨_, missing⟩ | ⟨x, y, hx, hy, twins⟩
  · rw [missing] at known
    contradiction
  · cases hy.symm.trans known
    have properties := PropertyTable.twins_properties twins
    unfold PropertyTable.NestsClasses
    rw [← properties]
    exact nested cls x hx

namespace InStep

theorem onward (inStep : w.InStep c d v) (schemaW : w'.schema = w.schema) (schemaV : v'.schema = v.schema)
    (registryW : w'.registries[c.registry]? = w.registries[c.registry]?)
    (registryV : v'.registries[d.registry]? = v.registries[d.registry]?)
    (settingW : w'.settings[c.settings]? = w.settings[c.settings]?)
    (settingV : v'.settings[d.settings]? = v.settings[d.settings]?)
    (countW : w.tables.length ≤ w'.tables.length) (countV : v.tables.length ≤ v'.tables.length)
    (tabledW : w.Tabled 0 c c w') (tabledV : v.Tabled 0 d d v') : w'.InStep c d v' where
  schema := by rw [schemaW, schemaV, inStep.schema]
  registry := by rw [registryW, registryV]; exact inStep.registry
  settings := by rw [settingW, settingV]; exact inStep.settings
  present := ⟨inStep.present.1.trans_le countW, inStep.present.2.trans_le countV⟩
  tabled := tabledW.symm.trans (inStep.tabled.trans tabledV)
  nested := nested_of_tabled tabledW inStep.nested

theorem unmoved (inStep : w.InStep c d v) (first : w.Unmoved w') (second : v.Unmoved v') :
    w'.InStep c d v' :=
  inStep.onward first.schema second.schema (by rw [first.registries]) (by rw [second.registries])
    (by rw [first.settings]) (by rw [second.settings]) (by rw [first.tables]) (by rw [second.tables])
    (first.tabled c) (second.tabled d)

end InStep

theorem Beside.refl (c : Context) (w : World) : w.Beside c w :=
  ⟨rfl, rfl, rfl, fun _ _ => rfl, rfl, fun _ _ _ => rfl, rfl, fun _ _ => rfl⟩

theorem Beside.trans {u : World} (first : u.Beside c w) (next : w.Beside c v) : u.Beside c v where
  schema := next.schema.trans first.schema
  contexts := next.contexts.trans first.contexts
  registryCount := next.registryCount.trans first.registryCount
  registry i other := (next.registry i other).trans (first.registry i other)
  tableCount := next.tableCount.trans first.tableCount
  tabled e other := (first.tabled e other).trans (next.tabled e other)
  settingCount := next.settingCount.trans first.settingCount
  setting i other := (next.setting i other).trans (first.setting i other)

theorem Unmoved.beside (unmoved : w.Unmoved v) (c : Context) : w.Beside c v where
  schema := unmoved.schema
  contexts := unmoved.contexts
  registryCount := by rw [unmoved.registries]
  registry i _ := by rw [unmoved.registries]
  tableCount := by rw [unmoved.tables]
  tabled e _ := unmoved.tabled e
  settingCount := by rw [unmoved.settings]
  setting i _ := by rw [unmoved.settings]

theorem Consulted.beside (consulted : w.Consulted v) (c : Context) : w.Beside c v where
  schema := by rw [consulted.rest]
  contexts := by rw [consulted.rest]
  registryCount := by rw [consulted.rest]
  registry i _ := by rw [consulted.rest]
  tableCount := consulted.length
  tabled e _ := consulted.tabled 0 (Nat.zero_le _) e
  settingCount := by rw [consulted.rest]
  setting i _ := by rw [consulted.rest]

theorem InStep.consulted (inStep : w.InStep c d v) (first : w.Consulted w') (second : v.Consulted v') :
    w'.InStep c d v' :=
  inStep.onward (by rw [first.rest]) (by rw [second.rest]) (by rw [first.rest]) (by rw [second.rest])
    (by rw [first.rest]) (by rw [second.rest]) first.length.ge second.length.ge
    (first.tabled 0 (Nat.zero_le _) c) (second.tabled 0 (Nat.zero_le _) d)

/-- The contexts are in step, and since `a` and `b` nothing has changed but in them. -/
structure Lockstep (c d : Context) (a b w v : World) : Prop where
  inStep : w.InStep c d v
  first : a.Beside c w
  second : b.Beside d v

namespace Lockstep

variable {a b : World}

theorem unmoved (lockstep : Lockstep c d a b w v) (first : w.Unmoved w') (second : v.Unmoved v') :
    Lockstep c d a b w' v' where
  inStep := lockstep.inStep.unmoved first second
  first := lockstep.first.trans (first.beside c)
  second := lockstep.second.trans (second.beside d)

end Lockstep
end World

/-! ### Look-ups -/

section Lookups

variable {c d : Context} {a b : World} {h k : Hooks}

/-- From contexts in step the computations come to the same, but for what `S` allows, and leave them so. -/
abbrev Locked (c d : Context) (a b : World) {α β : Type} (S : α → β → Prop) (x : MappingM α)
    (y : MappingM β) : Prop :=
  Together .strict (World.Lockstep c d a b) S x y

theorem idling_lockstep : Idling (World.Lockstep c d a b) 0 where
  numbered _ := ⟨Nat.zero_le _, Nat.zero_le _⟩
  idle lockstep first second := lockstep.unmoved first.unmoved second.unmoved

theorem locked_table (raw : RawType) :
    Locked c d a b (fun o p => FoundTwins 0 o p ∧ ∀ t ∈ o, t.NestsClasses) (table? c raw) (table? d raw) := by
  intro w v lockstep
  obtain ⟨w', ranW, consultedW⟩ := run_table_for c raw w
  obtain ⟨v', ranV, consultedV⟩ := run_table_for d raw v
  rw [ranW, ranV]
  have twins : FoundTwins 0 (raw.class?.bind (w.tableFor c)) (raw.class?.bind (v.tableFor d)) := by
    cases raw.class? with
    | none => rfl
    | some cls => exact lockstep.inStep.tabled cls
  refine .inr ⟨(World.consult_outcomes lockstep.inStep.schema twins).mono fun o p found => ?_,
    lockstep.inStep.consulted consultedW consultedV, lockstep.first.trans (consultedW.beside c),
    lockstep.second.trans (consultedV.beside d)⟩
  refine ⟨found.1, fun t known => ?_⟩
  obtain ⟨cls, _, known⟩ := Option.bind_eq_some_iff.mp (found.2.trans known)
  exact lockstep.inStep.nested cls t known

theorem locked_settings : Locked c d a b (· = ·) (settings c) (settings d) := by
  intro w v lockstep
  obtain ⟨s, one, other⟩ := lockstep.inStep.settings
  refine .inr ⟨?_, lockstep⟩
  show (w.settings[c.settings]?).getD default = (v.settings[d.settings]?).getD default
  rw [one, other]

theorem locked_registry : Locked c d a b Registry.Matched (registry c) (registry d) := by
  intro w v lockstep
  obtain ⟨r, t, one, other, matched⟩ := lockstep.inStep.registry
  rw [run_registry one, run_registry other]
  exact .inr ⟨matched, lockstep⟩

theorem beside_changeRegistry (c : Context) (f : Registry → Registry) (w : World) :
    w.Beside c ((changeRegistry c f).run w).2 where
  schema := rfl
  contexts := rfl
  registryCount := List.length_modify ..
  registry i other := by
    show (w.registries.modify c.registry f)[i]? = _
    simp [other.symm]
  tableCount := rfl
  tabled e _ := World.tabled_of_tables rfl rfl (Nat.zero_le _) (Nat.zero_le _) e
  settingCount := rfl
  setting _ _ := rfl

theorem locked_changeRegistry {f g : Registry → Registry}
    (keeps : ∀ r t, r.Matched t → (f r).Matched (g t)) :
    Locked c d a b (fun _ _ => True) (changeRegistry c f) (changeRegistry d g) := by
  intro w v lockstep
  obtain ⟨r, t, one, other, matched⟩ := lockstep.inStep.registry
  have first := beside_changeRegistry c f w
  have second := beside_changeRegistry d g v
  refine .inr ⟨trivial, ⟨lockstep.inStep.schema, ⟨f r, g t, ?_, ?_, keeps r t matched⟩,
    lockstep.inStep.settings, lockstep.inStep.present, ?_, ?_⟩, lockstep.first.trans first,
    lockstep.second.trans second⟩
  · show (w.registries.modify c.registry f)[c.registry]? = _
    rw [List.getElem?_modify_eq, one]
    rfl
  · show (v.registries.modify d.registry g)[d.registry]? = _
    rw [List.getElem?_modify_eq, other]
    rfl
  · exact lockstep.inStep.tabled
  · exact lockstep.inStep.nested

theorem locked_record {s t : String} (level : LogLevel) (logger : Logger) :
    Locked c d a b (fun _ _ => True) (log level logger s) (log level logger t) :=
  idling_lockstep.log level logger s t

section Abreast

variable (abreast : Abreast .strict (World.Lockstep c d a b) .exact 0 h k c d)
include abreast

theorem locked_resolveColumn (key : Descriptor) {element element' : Option (MappingM (Option ColumnMapper))}
    (elements : Option.Rel (Locked c d a b (ColumnsFound 0)) element element') :
    Locked c d a b (ColumnsFound 0) (Registry.resolveColumn h c key element)
      (Registry.resolveColumn k d key element') := by
  refine locked_registry.bind fun r t matched => ?_
  dsimp only
  rcases (matched.columns.cached key).cases with ⟨missR, missT⟩ | ⟨m, m', hitR, hitT, twins, own⟩
  · rw [missR, missT]
    refine (abreast.scanColumns matched.columns.factories rfl elements).bind fun o p found => ?_
    refine Together.bind (S := fun _ _ => True) ?_ fun _ _ _ => .pure found
    rcases found.cases with ⟨rfl, rfl⟩ | ⟨m, m', rfl, rfl, twins, own⟩
    · exact locked_record _ _
    · refine (locked_changeRegistry fun r' t' same => ?_).bind fun _ _ _ => locked_record _ _
      rw [same.columns.generation, matched.columns.generation]
      split
      · exact ⟨same.rows, same.columns.store twins own key⟩
      · exact same
  · rw [hitR, hitT]
    exact .pure (foundAs_some twins own)

theorem locked_findColumnAs (key : Descriptor) (nullable : Bool) :
    Locked c d a b (ColumnsFound 0) (Registry.findColumnAs h c key nullable)
      (Registry.findColumnAs k d key nullable) := by
  induction key using Descriptor.induct_args generalizing nullable with
  | step key ih =>
  obtain ⟨raw, args, admitted⟩ := key
  refine locked_resolveColumn abreast _ ?_
  cases args with
  | nil => exact .none
  | cons e _ => exact .some (ih e List.mem_cons_self true)

theorem locked_element (args : List Descriptor) :
    Option.Rel (Locked c d a b (ColumnsFound 0)) (Registry.findElement h c args)
      (Registry.findElement k d args) := by
  cases args with
  | nil => exact .none
  | cons e _ => exact .some (locked_findColumnAs abreast e true)

theorem locked_findRow (key : Descriptor) :
    Locked c d a b (RowsFound 0) (Registry.findRow h c key) (Registry.findRow k d key) := by
  refine locked_registry.bind fun r t matched => ?_
  dsimp only
  rcases (matched.rows.cached key).cases with ⟨missR, missT⟩ | ⟨m, m', hitR, hitT, twins, own⟩
  · rw [missR, missT]
    refine Together.bind (abreast.buildRow matched.rows.factories (x := key) (y := key) rfl
      (locked_element abreast key.args) (locked_findColumnAs abreast key key.nullable)) fun o p found => ?_
    refine Together.bind (S := fun _ _ => True) ?_ fun _ _ _ => .pure found
    rcases found.cases with ⟨rfl, rfl⟩ | ⟨m, m', rfl, rfl, twins, own⟩
    · exact locked_record _ _
    · refine (locked_changeRegistry fun r' t' same => ?_).bind fun _ _ _ => locked_record _ _
      exact ⟨same.rows.store twins own key, same.columns⟩
  · rw [hitR, hitT]
    exact .pure (foundAs_some twins own)

/-! ### Mapping -/

omit abreast in
theorem locked_child {m m' : ReflectiveMapper} (kin : Twins 0 m m') {p : Property}
    (cls : p.type.raw.class?.isSome) : Locked c d a b (Twins 0) (child m p) (child m' p) := by
  have same := ReflectiveMapper.mk.inj kin
  intro w v lockstep
  obtain ⟨s, q, w', ranW, mine, restW, _⟩ := run_child m p w
  obtain ⟨t, r, v', ranV, other, restV, _⟩ := run_child m' p v
  have known : ∀ q : Property, q = p ∨ q.same p = true → q.type.raw = p.type.raw := by
    intro q one
    rcases property_class one with raw | ⟨_, unknown⟩
    · exact raw
    · rw [unknown] at cls
      contradiction
  rw [ranW, ranV, known q mine, known r other, same.2.2]
  refine .inr ⟨?_, lockstep.unmoved ?_ ?_⟩
  · show ReflectiveMapper.mk (min s 0) _ _ = .mk (min t 0) _ _
    rw [Nat.min_zero, Nat.min_zero]
  · rw [restW]
    exact ⟨rfl, rfl, rfl, rfl, rfl⟩
  · rw [restV]
    exact ⟨rfl, rfl, rfl, rfl, rfl⟩

theorem locked_coupled
    (columnFor : ∀ key, Locked c d a b (fun o p => o.isSome = p.isSome) (h.findColumn c key) (k.findColumn d key))
    (rowFor : ∀ key, Locked c d a b (fun o p => o.isSome = p.isSome) (h.findRow c key) (k.findRow d key))
    (column : ∀ type index row, Locked c d a b (· = ·) (h.column c type index row) (k.column d type index row))
    (row : ∀ type row, Locked c d a b (· = ·) (h.row c type row) (k.row d type row)) :
    Coupled .strict (World.Lockstep c d a b) 0
      (fun _ p => p.nested.isSome → p.type.raw.class?.isSome) h k c d where
  toIdling := idling_lockstep
  parallel :=
    { schema := fun _ _ lockstep => lockstep.inStep.schema
      log := fun _ _ _ => locked_record _ _
      settings := locked_settings
      table := locked_table
      column := fun key => locked_findColumnAs abreast key key.nullable
      child := fun _ _ _ kin listed _ nested => locked_child kin (listed nested)
      kin := fun _ _ kin => .inl (ReflectiveMapper.mk.inj kin).2
      raw := trivial }
  findRow := locked_findRow abreast
  columnFor := columnFor
  rowFor := rowFor
  column := column
  row := row

end Abreast

/-- The hooks of a session, for so many returns into it, keep contexts in step. -/
theorem locked_hooks (depth : Nat) :
    Abreast .strict (World.Lockstep c d a b) .exact 0 (Session.hooks depth) (Session.hooks depth) c d ∧
      Coupled .strict (World.Lockstep c d a b) 0
        (fun _ p => p.nested.isSome → p.type.raw.class?.isSome) (Session.hooks depth)
        (Session.hooks depth) c d := by
  have described : ∀ raw, Locked c d a b (fun o p => o.isSome = p.isSome) (table? c raw) (table? d raw) :=
    fun raw => (locked_table raw).mono fun _ _ found => found.1.isSome_eq
  have schema : ∀ {w v}, World.Lockstep c d a b w v → w.schema = v.schema :=
    fun lockstep => lockstep.inStep.schema
  induction depth with
  | zero =>
    have abreast : Abreast .strict (World.Lockstep c d a b) .exact 0 (Session.hooks 0) (Session.hooks 0) c d :=
      { toIdling := idling_lockstep, schema, described, raised := .inl, performs := ⟨rfl, rfl⟩
        column := fun _ => .throw _, row := fun _ => .throw _ }
    exact ⟨abreast, locked_coupled abreast (fun _ => .throw _) (fun _ => .throw _) (fun _ _ _ => .throw _)
      fun _ _ => .throw _⟩
  | succ depth ih =>
    have abreast : Abreast .strict (World.Lockstep c d a b) .exact 0 (Session.hooks (depth + 1))
        (Session.hooks (depth + 1)) c d :=
      { toIdling := idling_lockstep, schema, described, raised := .inl, performs := ⟨rfl, rfl⟩
        column := by
          rintro key _ rfl
          exact locked_findColumnAs ih.1 key key.nullable
        row := by
          rintro key _ rfl
          exact locked_findRow ih.1 key }
    exact ⟨abreast, locked_coupled abreast
      (fun key => (locked_findColumnAs ih.1 key key.nullable).mono fun _ _ found => found.1.isSome_eq)
      (fun key => (locked_findRow ih.1 key).mono fun _ _ found => found.1.isSome_eq) ih.2.hookColumn ih.2.hookRow⟩

end Lookups
end RowMapping
