import RowMapping.Proofs.Mapper.Recovery
import RowMapping.Proofs.Session.Quiet

/-! Copies of contexts are isolated. A context and its copy share factories and mappers, but whatever is
done with either of them afterwards, in whatever order, each answers as if the other had been left alone. -/
namespace RowMapping

open MappingM

/-! ### Commands and the contexts that they name -/

namespace Session

def outcome (command : Command) (w : World) : Except Failure Answer :=
  ((run (hooks depth) command).run { w with reports := [], log := [] }).1

/-- Commands in order, each with what it comes to. -/
def transcript : List Command → World → List (Command × Except Failure Answer)
  | [], _ => []
  | command :: rest, w => (command, outcome command w) :: transcript rest (after [command] w)

end Session

def RegistrySource.contexts : RegistrySource → List String
  | .fresh _ | .bare => []
  | .sharedWith name | .copiedFrom name => [name]

def Command.contexts : Command → List String
  | .newContext name spec => name :: spec.registry.contexts ++ spec.tablesOf.toList
  | .copyContext source name => [source, name]
  | .registerRow c .. | .registerColumn c .. | .registerProperties c .. | .findRow c _ | .findColumn c _
  | .requireRow c _ | .sameRow c .. | .sameColumn c .. | .mapOne c .. | .mapMany c .. | .mapCursor c ..
  | .mapColumn c .. | .factories c | .configure c .. | .specializeSaved c .. | .specializeType c ..
  | .mapSaved c .. | .properties c _ | .sameProperties c .. | .build c .. => [c]
  | .reflectiveMapper .. | .children _ => []

def Command.on (side : String → Option Bool) (b : Bool) (command : Command) : Bool :=
  command.contexts.all fun name => side name = some b

/-! ### Names -/

def World.bound (w : World) (name : String) : Option Context :=
  (w.contexts.find? (·.1 = name)).map (·.2)

theorem run_context (name : String) (w : World) :
    (context name).run w = match w.bound name with
      | some c => (.ok c, w)
      | none => (.error .misuse, w) := by
  unfold context World.bound
  rw [run_bind_ok (run_get w)]
  cases w.contexts.find? (·.1 = name) <;> rfl

theorem bound_nameContext (name : String) (c : Context) (w : World) (other : String) :
    ((nameContext name c).run w).2.bound other = if other = name then some c else w.bound other := by
  show (List.find? (fun e => decide (e.1 = other)) ((name, c) :: w.contexts.filter (·.1 != name))).map
    (·.2) = _
  by_cases same : other = name
  · simp [same]
  · have kept : (w.contexts.filter (·.1 != name)).find? (fun e => decide (e.1 = other)) =
        w.contexts.find? (fun e => decide (e.1 = other)) := by
      rw [List.find?_filter]
      congr 1
      funext e
      by_cases one : e.1 = other
      · simp [one, same]
      · simp [one]
    simp [same, Ne.symm same, kept, World.bound]

/-- Nothing that the contexts are made of belongs to both. -/
structure Context.Apart (c e : Context) : Prop where
  registry : c.registry ≠ e.registry
  tables : c.tables ≠ e.tables
  settings : c.settings ≠ e.settings

theorem Context.Apart.symm {c e : Context} (apart : c.Apart e) : e.Apart c :=
  ⟨apart.registry.symm, apart.tables.symm, apart.settings.symm⟩

namespace World

variable {mine theirs : String → Prop} {w v w' v' : World} {c d c' d' e : Context}

/-- The contexts of one of these names in two worlds. -/
def Pair (mine : String → Prop) (w v : World) (c d : Context) : Prop :=
  ∃ x, mine x ∧ w.bound x = some c ∧ v.bound x = some d

/-- The same of these names are borne by contexts in both worlds. The contexts of one name are in step,
and what is shared among the contexts in one world is shared in the other. -/
structure Mirrors (mine : String → Prop) (w v : World) : Prop where
  bound : ∀ x, mine x → (w.bound x).isSome = (v.bound x).isSome
  inStep : ∀ {c d}, Pair mine w v c d → w.InStep c d v
  registry : ∀ {c d c' d'}, Pair mine w v c d → Pair mine w v c' d' →
    (c'.registry = c.registry ↔ d'.registry = d.registry)
  tables : ∀ {c d c' d'}, Pair mine w v c d → Pair mine w v c' d' →
    (c'.tables = c.tables ↔ d'.tables = d.tables)
  settings : ∀ {c d c' d'}, Pair mine w v c d → Pair mine w v c' d' →
    (c'.settings = c.settings ↔ d'.settings = d.settings)

structure Holds (w : World) (c : Context) : Prop where
  registry : c.registry < w.registries.length
  tables : c.tables < w.tables.length
  settings : c.settings < w.settings.length

theorem InStep.holds (inStep : w.InStep c d v) : w.Holds c ∧ v.Holds d := by
  obtain ⟨r, t, one, other, _⟩ := inStep.registry
  obtain ⟨s, setting, setting'⟩ := inStep.settings
  obtain ⟨hr, _⟩ := List.getElem?_eq_some_iff.mp one
  obtain ⟨ht, _⟩ := List.getElem?_eq_some_iff.mp other
  obtain ⟨hs, _⟩ := List.getElem?_eq_some_iff.mp setting
  obtain ⟨hs', _⟩ := List.getElem?_eq_some_iff.mp setting'
  exact ⟨⟨hr, inStep.present.1, hs⟩, ⟨ht, inStep.present.2, hs'⟩⟩

theorem Mirrors.pair (mirrors : w.Mirrors mine v) {x : String} (own : mine x) (known : w.bound x = some c) :
    ∃ d, v.bound x = some d ∧ Pair mine w v c d := by
  have same := mirrors.bound x own
  rw [known] at same
  obtain ⟨d, other⟩ := Option.isSome_iff_exists.mp same.symm
  exact ⟨d, other, x, own, known, other⟩

theorem Mirrors.holds (mirrors : w.Mirrors mine v) {x : String} (own : mine x)
    (known : w.bound x = some c) : w.Holds c := by
  obtain ⟨d, _, pair⟩ := mirrors.pair own known
  exact (mirrors.inStep pair).holds.1

/-! ### What is left alone -/

structure Spares (theirs : String → Prop) (w w' : World) : Prop where
  schema : w'.schema = w.schema
  bound : ∀ y, theirs y → w'.bound y = w.bound y
  registry : ∀ y e, theirs y → w.bound y = some e → w'.registries[e.registry]? = w.registries[e.registry]?
  settings : ∀ y e, theirs y → w.bound y = some e → w'.settings[e.settings]? = w.settings[e.settings]?
  grown : w.tables.length ≤ w'.tables.length
  tabled : ∀ y e, theirs y → w.bound y = some e → w.Tabled 0 e e w'

theorem Unmoved.spares (unmoved : w.Unmoved w') (theirs : String → Prop) : w.Spares theirs w' where
  schema := unmoved.schema
  bound _ _ := by rw [World.bound, World.bound, unmoved.contexts]
  registry _ _ _ _ := by rw [unmoved.registries]
  settings _ _ _ _ := by rw [unmoved.settings]
  grown := by rw [unmoved.tables]
  tabled _ e _ _ := unmoved.tabled e

theorem Spares.refl (theirs : String → Prop) (w : World) : w.Spares theirs w :=
  Unmoved.spares ⟨rfl, rfl, rfl, rfl, rfl⟩ theirs

theorem Mirrors.spared (mirrors : w.Mirrors theirs v) (first : w.Spares theirs w')
    (second : v.Spares theirs v') : w'.Mirrors theirs v' := by
  have back : ∀ {c d}, Pair theirs w' v' c d → Pair theirs w v c d := by
    rintro c d ⟨x, own, one, other⟩
    exact ⟨x, own, first.bound x own ▸ one, second.bound x own ▸ other⟩
  refine ⟨fun x own => ?_, fun pair => ?_, fun one other => mirrors.registry (back one) (back other),
    fun one other => mirrors.tables (back one) (back other),
    fun one other => mirrors.settings (back one) (back other)⟩
  · rw [first.bound x own, second.bound x own]
    exact mirrors.bound x own
  · have inStep := mirrors.inStep (back pair)
    obtain ⟨x, own, one, other⟩ := back pair
    exact inStep.onward first.schema second.schema (first.registry x _ own one)
      (second.registry x _ own other) (first.settings x _ own one) (second.settings x _ own other)
      first.grown second.grown (first.tabled x _ own one) (second.tabled x _ own other)

/-- The second world comes from the first by changes in contexts of these names. -/
structure Within (mine : String → Prop) (w w' : World) : Prop where
  schema : w'.schema = w.schema
  bound : ∀ y, ¬ mine y → w'.bound y = w.bound y
  registryCount : w.registries.length ≤ w'.registries.length
  tableCount : w.tables.length ≤ w'.tables.length
  settingCount : w.settings.length ≤ w'.settings.length
  registry : ∀ i < w.registries.length, (∀ x c, mine x → w.bound x = some c → c.registry ≠ i) →
    w'.registries[i]? = w.registries[i]?
  tabled : ∀ e : Context, e.tables < w.tables.length →
    (∀ x c, mine x → w.bound x = some c → c.tables ≠ e.tables) → w.Tabled 0 e e w'
  setting : ∀ i < w.settings.length, (∀ x c, mine x → w.bound x = some c → c.settings ≠ i) →
    w'.settings[i]? = w.settings[i]?
  /-- The contexts of these names were there before, or are made of new parts. -/
  origin : ∀ x c, mine x → w'.bound x = some c → (∃ y, mine y ∧ w.bound y = some c) ∨
    w.registries.length ≤ c.registry ∧ w.tables.length ≤ c.tables ∧ w.settings.length ≤ c.settings

/-- No name is on both sides, and contexts on different sides share nothing. -/
structure Parted (mine theirs : String → Prop) (w : World) : Prop where
  names : ∀ x, mine x → ¬ theirs x
  contexts : ∀ x y c e, mine x → theirs y → w.bound x = some c → w.bound y = some e → c.Apart e

theorem Parted.symm (parted : w.Parted mine theirs) : w.Parted theirs mine :=
  ⟨fun x own other => parted.names x other own,
    fun x y c e own other one two => (parted.contexts y x e c other own two one).symm⟩

theorem Within.spares (within : w.Within mine w') (parted : w.Parted mine theirs)
    (holds : ∀ y e, theirs y → w.bound y = some e → w.Holds e) : w.Spares theirs w' where
  schema := within.schema
  bound y own := within.bound y fun other => parted.names y other own
  registry y e own known := within.registry _ (holds y e own known).registry fun x c other one =>
    (parted.contexts x y c e other own one known).registry
  settings y e own known := within.setting _ (holds y e own known).settings fun x c other one =>
    (parted.contexts x y c e other own one known).settings
  grown := within.tableCount
  tabled y e own known := within.tabled e (holds y e own known).tables fun x c other one =>
    (parted.contexts x y c e other own one known).tables

theorem Within.parted (within : w.Within mine w') (parted : w.Parted mine theirs)
    (holds : ∀ y e, theirs y → w.bound y = some e → w.Holds e) : w'.Parted mine theirs where
  names := parted.names
  contexts x y c e own other one two := by
    rw [within.bound y fun mine' => parted.names y mine' other] at two
    have present := holds y e other two
    rcases within.origin x c own one with ⟨x', own', known⟩ | ⟨registry, tables, settings⟩
    · exact parted.contexts x' y c e own' other known two
    · exact ⟨fun same => absurd present.registry (by omega), fun same => absurd present.tables (by omega),
        fun same => absurd present.settings (by omega)⟩

/-! ### Changes of one context -/

theorem tableFor_congr (same : c.tables = c'.tables) : w.tableFor c = w.tableFor c' := by
  funext cls
  cases cls <;> simp only [tableFor, same]

/-- Contexts that share something with others in step share it on both sides, and the rest is left as
it was. -/
theorem InStep.elsewhere (old : w.InStep c' d' v) (lockstep : Lockstep c d w v w' v')
    (registry : c'.registry = c.registry ↔ d'.registry = d.registry)
    (tables : c'.tables = c.tables ↔ d'.tables = d.tables)
    (settings : c'.settings = c.settings ↔ d'.settings = d.settings) : w'.InStep c' d' v' where
  schema := lockstep.inStep.schema
  registry := by
    by_cases same : c'.registry = c.registry
    · rw [same, registry.mp same]
      exact lockstep.inStep.registry
    · rw [lockstep.first.registry _ same, lockstep.second.registry _ (mt registry.mpr same)]
      exact old.registry
  settings := by
    by_cases same : c'.settings = c.settings
    · rw [same, settings.mp same]
      exact lockstep.inStep.settings
    · rw [lockstep.first.setting _ same, lockstep.second.setting _ (mt settings.mpr same)]
      exact old.settings
  present := by
    rw [lockstep.first.tableCount, lockstep.second.tableCount]
    exact old.present
  tabled := by
    by_cases same : c'.tables = c.tables
    · intro cls
      rw [tableFor_congr same, tableFor_congr (tables.mp same)]
      exact lockstep.inStep.tabled cls
    · have first := lockstep.first.tabled c' same
      exact first.symm.trans (old.tabled.trans (lockstep.second.tabled d' (mt tables.mpr same)))
  nested := by
    by_cases same : c'.tables = c.tables
    · rw [tableFor_congr same]
      exact lockstep.inStep.nested
    · exact nested_of_tabled (lockstep.first.tabled c' same) old.nested

theorem Mirrors.lockstep (mirrors : w.Mirrors mine v) (pair : Pair mine w v c d)
    (lockstep : Lockstep c d w v w' v') : w'.Mirrors mine v' := by
  have boundW : ∀ x, w'.bound x = w.bound x := fun x => by
    rw [World.bound, World.bound, lockstep.first.contexts]
  have boundV : ∀ x, v'.bound x = v.bound x := fun x => by
    rw [World.bound, World.bound, lockstep.second.contexts]
  have back : ∀ {c d}, Pair mine w' v' c d → Pair mine w v c d := by
    rintro c d ⟨x, own, one, other⟩
    exact ⟨x, own, boundW x ▸ one, boundV x ▸ other⟩
  refine ⟨fun x own => ?_, fun {c' d'} other => ?_,
    fun one other => mirrors.registry (back one) (back other),
    fun one other => mirrors.tables (back one) (back other),
    fun one other => mirrors.settings (back one) (back other)⟩
  · rw [boundW, boundV]
    exact mirrors.bound x own
  · have old := back other
    exact (mirrors.inStep old).elsewhere lockstep (mirrors.registry pair old) (mirrors.tables pair old)
      (mirrors.settings pair old)

theorem Beside.within (beside : w.Beside c w') {x : String} (own : mine x) (known : w.bound x = some c) :
    w.Within mine w' where
  schema := beside.schema
  bound y _ := by rw [World.bound, World.bound, beside.contexts]
  registryCount := beside.registryCount.ge
  tableCount := beside.tableCount.ge
  settingCount := beside.settingCount.ge
  registry i _ other := beside.registry i (other x c own known).symm
  tabled e _ other := beside.tabled e (other x c own known).symm
  setting i _ other := beside.setting i (other x c own known).symm
  origin y e own' known' := by
    refine .inl ⟨y, own', ?_⟩
    rw [World.bound, ← beside.contexts]
    exact known'

theorem Within.refl (mine : String → Prop) (w : World) : w.Within mine w where
  schema := rfl
  bound _ _ := rfl
  registryCount := le_rfl
  tableCount := le_rfl
  settingCount := le_rfl
  registry _ _ _ := rfl
  tabled _ _ _ _ := rfl
  setting _ _ _ := rfl
  origin x _ own known := .inl ⟨x, own, known⟩

/-! ### Copies -/

def withCopy (w : World) (name : String) (c : Context) (r : Registry) : World :=
  { w with
    contexts := (name, ⟨w.registries.length, w.tables.length, w.settings.length⟩) ::
      w.contexts.filter (·.1 != name)
    registries := w.registries ++ [r.snapshot]
    tables := w.tables ++ [(w.tables[c.tables]?).getD default]
    settings := w.settings ++ [(w.settings[c.settings]?).getD default] }

theorem run_copyContext {r : Registry} (known : w.registries[c.registry]? = some r) (name : String) :
    (Session.copyContext c >>= nameContext name).run w = (.ok (), w.withCopy name c r) := by
  have copied : (Session.copyRegistry c).run w =
      (.ok w.registries.length, { w with registries := w.registries ++ [r.snapshot] }) := by
    unfold Session.copyRegistry
    rw [run_bind_ok (run_get w), known]
    rfl
  unfold Session.copyContext
  rw [bind_assoc, run_bind_ok copied]
  rfl

theorem bound_withCopy (name : String) (r : Registry) (x : String) :
    (w.withCopy name c r).bound x =
      if x = name then some ⟨w.registries.length, w.tables.length, w.settings.length⟩ else w.bound x :=
  bound_nameContext name _ w x

theorem InStep.copied (inStep : w.InStep c d v) {r t : Registry}
    (one : w.registries[c.registry]? = some r) (other : v.registries[d.registry]? = some t)
    (name : String) :
    (w.withCopy name c r).InStep ⟨w.registries.length, w.tables.length, w.settings.length⟩
      ⟨v.registries.length, v.tables.length, v.settings.length⟩ (v.withCopy name d t) := by
  obtain ⟨r', t', one', other', matched⟩ := inStep.registry
  cases one.symm.trans one'
  cases other.symm.trans other'
  obtain ⟨s, setting, setting'⟩ := inStep.settings
  have tableFor : ∀ (u : World) (e : Context) (q : Registry) (cls : ClassRef),
      (u.withCopy name e q).tableFor ⟨u.registries.length, u.tables.length, u.settings.length⟩ cls =
        u.tableFor e cls := by
    intro u e q cls
    cases cls <;> simp [World.tableFor, withCopy]
  refine ⟨inStep.schema, ⟨r.snapshot, t.snapshot, ?_, ?_, matched.rows.snapshot, matched.columns.snapshot⟩,
    ⟨s, ?_, ?_⟩, ?_, fun cls => ?_, fun cls t known => ?_⟩
  · simp [withCopy]
  · simp [withCopy]
  · simp [withCopy, setting]
  · simp [withCopy, setting']
  · simp [withCopy]
  · rw [tableFor, tableFor]
    exact inStep.tabled cls
  · rw [tableFor] at known
    exact inStep.nested cls t known

theorem InStep.withCopy (inStep : w.InStep c' d' v) (name : String) (c d : Context) (r t : Registry) :
    (w.withCopy name c r).InStep c' d' (v.withCopy name d t) := by
  obtain ⟨holdsW, holdsV⟩ := inStep.holds
  have tabled : ∀ (u : World) (e e' : Context) (q : Registry), e'.tables < u.tables.length →
      u.Tabled 0 e' e' (u.withCopy name e q) := by
    intro u e e' q present cls
    have kept : (u.withCopy name e q).tables[e'.tables]? = u.tables[e'.tables]? :=
      List.getElem?_append_left present
    cases cls <;> simp only [World.tableFor, kept] <;> rfl
  exact inStep.onward rfl rfl (List.getElem?_append_left holdsW.registry)
    (List.getElem?_append_left holdsV.registry) (List.getElem?_append_left holdsW.settings)
    (List.getElem?_append_left holdsV.settings) (by simp [World.withCopy]) (by simp [World.withCopy])
    (tabled w c c' r holdsW.tables) (tabled v d d' t holdsV.tables)

theorem Pair.withCopy {name : String} {r t : Registry}
    (pair : Pair mine (w.withCopy name c r) (v.withCopy name d t) c' d') :
    (c' = ⟨w.registries.length, w.tables.length, w.settings.length⟩ ∧
      d' = ⟨v.registries.length, v.tables.length, v.settings.length⟩) ∨ Pair mine w v c' d' := by
  obtain ⟨x, own, one, other⟩ := pair
  rw [bound_withCopy] at one other
  split at one
  · next same =>
    rw [if_pos same] at other
    exact .inl ⟨(Option.some.inj one).symm, (Option.some.inj other).symm⟩
  · next different =>
    rw [if_neg different] at other
    exact .inr ⟨x, own, one, other⟩

theorem Mirrors.withCopy (mirrors : w.Mirrors mine v) (pair : Pair mine w v c d) {r t : Registry}
    (one : w.registries[c.registry]? = some r) (other : v.registries[d.registry]? = some t)
    (name : String) : (w.withCopy name c r).Mirrors mine (v.withCopy name d t) := by
  have holds : ∀ {c' d'}, Pair mine w v c' d' → w.Holds c' ∧ v.Holds d' := fun old =>
    (mirrors.inStep old).holds
  refine ⟨fun x own => ?_, fun {c' d'} new => ?_, fun {a b a' b'} p q => ?_, fun {a b a' b'} p q => ?_,
    fun {a b a' b'} p q => ?_⟩
  · rw [bound_withCopy, bound_withCopy]
    split
    · rfl
    · exact mirrors.bound x own
  · rcases new.withCopy with ⟨rfl, rfl⟩ | old
    · exact (mirrors.inStep pair).copied one other name
    · exact (mirrors.inStep old).withCopy name c d r t
  -- The parts of a copy are numbered beyond all others, so that no context from before shares them.
  · rcases p.withCopy with ⟨rfl, rfl⟩ | p <;> rcases q.withCopy with ⟨rfl, rfl⟩ | q
    · exact iff_of_true rfl rfl
    · exact iff_of_false (holds q).1.registry.ne (holds q).2.registry.ne
    · exact iff_of_false (holds p).1.registry.ne' (holds p).2.registry.ne'
    · exact mirrors.registry p q
  · rcases p.withCopy with ⟨rfl, rfl⟩ | p <;> rcases q.withCopy with ⟨rfl, rfl⟩ | q
    · exact iff_of_true rfl rfl
    · exact iff_of_false (holds q).1.tables.ne (holds q).2.tables.ne
    · exact iff_of_false (holds p).1.tables.ne' (holds p).2.tables.ne'
    · exact mirrors.tables p q
  · rcases p.withCopy with ⟨rfl, rfl⟩ | p <;> rcases q.withCopy with ⟨rfl, rfl⟩ | q
    · exact iff_of_true rfl rfl
    · exact iff_of_false (holds q).1.settings.ne (holds q).2.settings.ne
    · exact iff_of_false (holds p).1.settings.ne' (holds p).2.settings.ne'
    · exact mirrors.settings p q

theorem within_withCopy {name : String} (own : mine name) (c : Context) (r : Registry) :
    w.Within mine (w.withCopy name c r) where
  schema := rfl
  bound y other := by
    rw [bound_withCopy, if_neg]
    rintro rfl
    exact other own
  registryCount := by simp [World.withCopy]
  tableCount := by simp [World.withCopy]
  settingCount := by simp [World.withCopy]
  registry i present _ := List.getElem?_append_left present
  tabled e present _ cls := by
    have kept : (w.withCopy name c r).tables[e.tables]? = w.tables[e.tables]? :=
      List.getElem?_append_left present
    cases cls <;> simp only [World.tableFor, kept] <;> rfl
  setting i present _ := List.getElem?_append_left present
  origin x c' own' known := by
    rw [bound_withCopy] at known
    split at known
    · cases known
      exact .inr ⟨le_rfl, le_rfl, le_rfl⟩
    · exact .inl ⟨x, own', known⟩

end World

/-! ### Commands on one side -/

open World

/-- Run where contexts of these names correspond, the computation comes to the same, leaves them so, and
changes no others. -/
def Mirrored (mine : String → Prop) {α : Type} (x : MappingM α) : Prop :=
  ∀ w v, w.Mirrors mine v → (x.run w).1 = (x.run v).1 ∧ (x.run w).2.Mirrors mine (x.run v).2 ∧
    w.Within mine (x.run w).2

section Commands

variable {mine : String → Prop}

theorem mirrored_context {α : Type} {x : String} (own : mine x) {f : Context → MappingM α}
    (each : ∀ c d a b, Locked c d a b (· = ·) (f c) (f d)) : Mirrored mine (context x >>= f) := by
  intro w v mirrors
  rw [run_bind, run_bind, run_context, run_context]
  cases known : w.bound x with
  | none =>
    have missing : v.bound x = none := by
      have same := mirrors.bound x own
      rw [known] at same
      simpa using same.symm
    rw [missing]
    exact ⟨rfl, mirrors, .refl mine w⟩
  | some c =>
    obtain ⟨d, other, pair⟩ := mirrors.pair own known
    rw [other]
    dsimp only
    obtain ⟨same, lockstep⟩ := (each c d w v).related ⟨mirrors.inStep pair, .refl c w, .refl d v⟩
    exact ⟨same.eq, mirrors.lockstep pair lockstep, lockstep.first.within own known⟩

theorem run_copy_unbound {h : Hooks} {source name : String} {w : World} (missing : w.bound source = none) :
    (Session.run h (.copyContext source name)).run w = (.error .misuse, w) := by
  have named : (context source).run w = (.error .misuse, w) := by rw [run_context, missing]
  exact run_bind_error named

theorem run_copy {h : Hooks} {source : String} {w : World} {c : Context} {r : Registry}
    (known : w.bound source = some c) (present : w.registries[c.registry]? = some r) (name : String) :
    (Session.run h (.copyContext source name)).run w = (.ok .null, w.withCopy name c r) := by
  have named : (context source).run w = (.ok c, w) := by rw [run_context, known]
  have copied : (Session.run h (.copyContext source name)).run w =
      ((Session.copyContext c >>= nameContext name) >>= fun _ => pure Answer.null).run w := by
    rw [bind_assoc]
    exact run_bind_ok named
  rw [copied, run_bind_ok (run_copyContext present name)]
  rfl

theorem mirrored_copy {source name : String} (ownSource : mine source) (own : mine name) :
    Mirrored mine (Session.run (Session.hooks Session.depth) (.copyContext source name)) := by
  intro w v mirrors
  cases known : w.bound source with
  | none =>
    have missing : v.bound source = none := by
      have same := mirrors.bound source ownSource
      rw [known] at same
      simpa using same.symm
    rw [run_copy_unbound known, run_copy_unbound missing]
    exact ⟨rfl, mirrors, .refl mine w⟩
  | some c =>
    obtain ⟨d, other, pair⟩ := mirrors.pair ownSource known
    obtain ⟨r, t, one, two, _⟩ := (mirrors.inStep pair).registry
    rw [run_copy known one name, run_copy other two name]
    exact ⟨rfl, mirrors.withCopy pair one two name, within_withCopy own c r⟩

theorem mirrored_reads {command : Command} {name : String} (reads : command.reads? = some name)
    (own : mine name) : Mirrored mine (Session.run (Session.hooks Session.depth) command) := by
  rw [Session.run_reads reads]
  exact mirrored_context own fun c d a b => (locked_hooks _).2.answer command

/-- A quiet command that names contexts of these names only comes to the same wherever they correspond. -/
theorem mirrored_run {command : Command} (quiet : command.Quiet) (own : ∀ x ∈ command.contexts, mine x) :
    Mirrored mine (Session.run (Session.hooks Session.depth) command) := by
  cases command with
  | copyContext source name =>
    exact mirrored_copy (own source (by simp [Command.contexts])) (own name (by simp [Command.contexts]))
  | registerRow x what target =>
    refine mirrored_context (own x List.mem_cons_self) fun c d a b => ?_
    exact (locked_registerRow quiet target).bind fun _ _ _ => .pure rfl
  | registerColumn x what target =>
    refine mirrored_context (own x List.mem_cons_self) fun c d a b => ?_
    exact (locked_registerColumn quiet target).bind fun _ _ _ => .pure rfl
  | registerProperties x type listed builder marker =>
    refine mirrored_context (own x List.mem_cons_self) fun c d a b => ?_
    exact (locked_registerProperties type quiet builder marker).bind fun _ _ _ => .pure rfl
  | findRow x | findColumn x | requireRow x | mapOne x | mapMany x | mapCursor x | mapColumn x =>
    exact mirrored_reads rfl (own x List.mem_cons_self)
  | configure x assignments appended =>
    exact mirrored_context (own x List.mem_cons_self) fun c d a b => locked_configure assignments appended
  | newContext | sameRow | sameColumn | factories | reflectiveMapper | specializeSaved | specializeType
  | mapSaved | children | properties | sameProperties | build => exact quiet.elim

theorem mirrored_step {command : Command} (quiet : command.Quiet) (own : ∀ x ∈ command.contexts, mine x)
    {w v : World} (mirrors : w.Mirrors mine v) :
    Session.outcome command w = Session.outcome command v ∧
      (Session.after [command] w).Mirrors mine (Session.after [command] v) ∧
        w.Within mine (Session.after [command] w) := by
  have cleared : ∀ u : World, u.Unmoved { u with reports := [], log := [] } :=
    fun _ => ⟨rfl, rfl, rfl, rfl, rfl⟩
  have restored : ∀ u : World, ((Session.run (Session.hooks Session.depth) command).run
      { u with reports := [], log := [] }).2.Unmoved (Session.after [command] u) :=
    fun _ => ⟨rfl, rfl, rfl, rfl, rfl⟩
  have started := mirrors.spared ((cleared w).spares mine) ((cleared v).spares mine)
  obtain ⟨same, after, within⟩ := mirrored_run quiet own _ _ started
  refine ⟨same, after.spared ((restored w).spares mine) ((restored v).spares mine), ?_⟩
  exact ⟨within.schema, within.bound, within.registryCount, within.tableCount, within.settingCount,
    within.registry, fun e present other => (within.tabled e present other).trans ((restored w).tabled e),
    within.setting, within.origin⟩

end Commands

/-! ### Both sides -/

section Sides

variable {side : String → Option Bool} {b : Bool} {w v : World}

theorem Command.on_iff (command : Command) :
    command.on side b = true ↔ ∀ x ∈ command.contexts, side x = some b := by
  simp [Command.on]

/-- What one side comes to among commands of both sides is what it comes to alone. -/
theorem transcript_filter (parted : w.Parted (side · = some b) (side · = some !b))
    (own : w.Mirrors (side · = some b) v) (other : w.Mirrors (side · = some !b) w)
    {commands : List Command}
    (quiet : ∀ command ∈ commands, command.Quiet ∧ (command.on side b ∨ command.on side !b)) :
    (Session.transcript commands w).filter (·.1.on side b) =
      Session.transcript (commands.filter (·.on side b)) v := by
  -- On the commands: those of this side are run in both sessions, the others in one and leave this side alone.
  induction commands generalizing w v with
  | nil => rfl
  | cons command commands ih =>
    obtain ⟨calm, sides⟩ := quiet command List.mem_cons_self
    have rest := fun next member => quiet next (List.mem_cons_of_mem command member)
    have there : ∀ y e, side y = some (!b) → w.bound y = some e → w.Holds e := fun y e its known =>
      other.holds its known
    have here : ∀ y e, side y = some b → w.bound y = some e → w.Holds e := fun y e its known =>
      own.holds its known
    cases on : command.on side b with
    | true =>
      obtain ⟨same, after, within⟩ := mirrored_step calm (command.on_iff.mp on) own
      have spares := within.spares parted there
      have tail := ih (within.parted parted there) after (other.spared spares spares) rest
      simp only [Session.transcript, List.filter_cons, on, if_true, same, tail]
    | false =>
      rw [on] at sides
      have off := sides.resolve_left Bool.false_ne_true
      obtain ⟨_, after, within⟩ := mirrored_step calm (command.on_iff.mp off) other
      have spares := within.spares parted.symm here
      have tail := ih (within.parted parted.symm here).symm (own.spared spares (.refl _ v)) after rest
      simp only [Session.transcript, List.filter_cons, on, Bool.false_eq_true, if_false, tail]

end Sides

/-! ### Contexts and their copies -/

/-- Factories and kept mappers that keep no state, and factories that run no commands. -/
structure Registry.Quiet (r : Registry) : Prop where
  rows : ∀ f ∈ r.rows.factories, f.Matched .exact 0 f
  columns : ∀ f ∈ r.columns.factories, f.Matched .exact 0 f
  keptRows : ∀ e ∈ r.rows.cache, e.2.Stateless
  keptColumns : ∀ e ∈ r.columns.cache, e.2.Stateless

/-- The context exists, its factories and mappers keep no state, and its sub-objects have classes for
types. -/
structure World.Quiet (w : World) (c : Context) : Prop where
  registry : ∃ r, w.registries[c.registry]? = some r ∧ r.Quiet
  settings : c.settings < w.settings.length
  tables : c.tables < w.tables.length
  nested : ∀ cls t, w.tableFor c cls = some t → t.NestsClasses

theorem Registry.Quiet.matched {r : Registry} (quiet : r.Quiet) : r.Matched r where
  rows := ⟨List.forall₂_same.mpr quiet.rows,
    List.forall₂_same.mpr fun e member => ⟨rfl, rfl, quiet.keptRows e member⟩, rfl⟩
  columns := ⟨List.forall₂_same.mpr quiet.columns,
    List.forall₂_same.mpr fun e member => ⟨rfl, rfl, quiet.keptColumns e member⟩, rfl⟩

theorem Registry.quiet_of_matched {r : Registry} (matched : r.Matched r) : r.Quiet where
  rows := List.forall₂_same.mp matched.rows.factories
  columns := List.forall₂_same.mp matched.columns.factories
  keptRows e member := (List.forall₂_same.mp matched.rows.cache e member).2.2
  keptColumns e member := (List.forall₂_same.mp matched.columns.cache e member).2.2

namespace World

variable {mine : String → Prop} {w : World} {c : Context}

theorem quiet_iff : w.Quiet c ↔ w.InStep c c w := by
  constructor
  · intro quiet
    obtain ⟨r, known, own⟩ := quiet.registry
    have setting := List.getElem?_eq_getElem quiet.settings
    exact ⟨rfl, ⟨r, r, known, known, own.matched⟩, ⟨_, setting, setting⟩, ⟨quiet.tables, quiet.tables⟩,
      fun _ => .refl _, quiet.nested⟩
  · intro inStep
    obtain ⟨r, t, known, other, matched⟩ := inStep.registry
    cases known.symm.trans other
    exact ⟨⟨r, known, Registry.quiet_of_matched matched⟩, inStep.holds.1.settings, inStep.present.1,
      inStep.nested⟩

theorem mirrors_self (quiet : ∀ x c, mine x → w.bound x = some c → w.Quiet c) : w.Mirrors mine w := by
  have one : ∀ {c d}, Pair mine w w c d → c = d := by
    rintro c d ⟨x, _, known, known'⟩
    exact Option.some.inj (known.symm.trans known')
  refine ⟨fun _ _ => rfl, fun pair => ?_, fun p q => ?_, fun p q => ?_, fun p q => ?_⟩
  · have same := one pair
    obtain ⟨x, own, known, _⟩ := pair
    exact same ▸ quiet_iff.mp (quiet x _ own known)
  · rw [one p, one q]
  · rw [one p, one q]
  · rw [one p, one q]

theorem quiet_after {commands : List Command}
    (quiet : ∀ x c, mine x → w.bound x = some c → w.Quiet c)
    (calm : ∀ command ∈ commands, command.Quiet ∧ ∀ x ∈ command.contexts, mine x) :
    ∀ x c, mine x → (Session.after commands w).bound x = some c → (Session.after commands w).Quiet c := by
  induction commands generalizing w with
  | nil => exact quiet
  | cons command commands ih =>
    have own := calm command List.mem_cons_self
    obtain ⟨_, after, _⟩ := mirrored_step own.1 own.2 (mirrors_self quiet)
    refine ih (w := Session.after [command] w) (fun x c here known => ?_) fun next member =>
      calm next (List.mem_cons_of_mem command member)
    exact quiet_iff.mpr (after.inStep ⟨x, here, known, known⟩)

theorem spares_withCopy {theirs : String → Prop} {name : String} (other : ¬ theirs name)
    (holds : ∀ y e, theirs y → w.bound y = some e → w.Holds e) (c : Context) (r : Registry) :
    w.Spares theirs (w.withCopy name c r) where
  schema := rfl
  bound y own := by
    rw [bound_withCopy, if_neg]
    rintro rfl
    exact other own
  registry y e own known := List.getElem?_append_left (holds y e own known).registry
  settings y e own known := List.getElem?_append_left (holds y e own known).settings
  grown := by simp [World.withCopy]
  tabled y e own known cls := by
    have kept : (w.withCopy name c r).tables[e.tables]? = w.tables[e.tables]? :=
      List.getElem?_append_left (holds y e own known).tables
    cases cls <;> simp only [World.tableFor, kept] <;> rfl

end World

section Isolation

variable {side : String → Option Bool} {w : World} {source clone : String} {c : Context}

/-- After a context is copied, the sides of the original and of the copy share nothing, and their contexts
are quiet. -/
theorem parted_after_copy (copied : side clone = some true)
    (known : w.bound source = some c) (original : side source = some false)
    (quiet : ∀ x e, side x = some false → w.bound x = some e → w.Quiet e)
    (unused : ∀ x, side x = some true → x ≠ clone → w.bound x = none) :
    let v := Session.after [.copyContext source clone] w
    v.Parted (side · = some false) (side · = some true) ∧ v.Mirrors (side · = some false) v ∧
      v.Mirrors (side · = some true) v := by
  obtain ⟨r, present, own⟩ := (quiet source c original known).registry
  have ran := run_copy (h := Session.hooks Session.depth) (w := { w with reports := [], log := [] }) known
    present clone
  have restored : (w.withCopy clone c r).Unmoved (Session.after [.copyContext source clone] w) := by
    show (w.withCopy clone c r).Unmoved { ((Session.run (Session.hooks Session.depth)
      (.copyContext source clone)).run { w with reports := [], log := [] }).2 with
        reports := w.reports, log := w.log }
    rw [ran]
    exact ⟨rfl, rfl, rfl, rfl, rfl⟩
  have holds : ∀ y e, side y = some false → w.bound y = some e → w.Holds e := fun y e its bound =>
    (World.quiet_iff.mp (quiet y e its bound)).holds.1
  have other : ¬ side clone = some false := by simp [copied]
  -- On the side of the copy there is nothing but the copy.
  have copy : ∀ y e, side y = some true → (w.withCopy clone c r).bound y = some e → y = clone ∧
      e = ⟨w.registries.length, w.tables.length, w.settings.length⟩ := by
    intro y e its bound
    rw [World.bound_withCopy] at bound
    split at bound
    · next same => exact ⟨same, (Option.some.inj bound).symm⟩
    · next different =>
      rw [unused y its different] at bound
      contradiction
  have named : ∀ y, (Session.after [.copyContext source clone] w).bound y = (w.withCopy clone c r).bound y :=
    fun y => by rw [World.bound, World.bound, restored.contexts]
  have first : (w.withCopy clone c r).Mirrors (side · = some false) (w.withCopy clone c r) :=
    have spares := World.spares_withCopy other holds c r
    (World.mirrors_self quiet).spared spares spares
  have second : (w.withCopy clone c r).Mirrors (side · = some true) (w.withCopy clone c r) := by
    refine World.mirrors_self fun y e its bound => ?_
    obtain ⟨_, rfl⟩ := copy y e its bound
    have inStep := World.quiet_iff.mp (quiet source c original known)
    exact World.quiet_iff.mpr (inStep.copied present present clone)
  refine ⟨⟨fun y here there => ?_, fun x y a e here there one two => ?_⟩,
    first.spared (restored.spares _) (restored.spares _), second.spared (restored.spares _) (restored.spares _)⟩
  · rw [here] at there
    contradiction
  · rw [named] at one two
    obtain ⟨_, rfl⟩ := copy y e there two
    have old : w.bound x = some a := by
      rw [World.bound_withCopy, if_neg] at one
      · exact one
      · rintro rfl
        exact other here
    have present := holds x a here old
    exact ⟨present.registry.ne, present.tables.ne, present.settings.ne⟩

/-- A copied context is isolated. When commands on the side of the original and commands on the side of
the copy are run in any order, those of either side come to what they come to without those of the other.
On the side of the original are the context that was copied and others that share its parts, on the side of
the copy only the copy and what is copied from it later. -/
theorem copies_isolated (copied : side clone = some true) (known : w.bound source = some c)
    (original : side source = some false)
    (quiet : ∀ x e, side x = some false → w.bound x = some e → w.Quiet e)
    (unused : ∀ x, side x = some true → x ≠ clone → w.bound x = none) {commands : List Command}
    (calm : ∀ command ∈ commands, command.Quiet ∧ ∃ b, command.on side b) (b : Bool) :
    (Session.transcript commands (Session.after [.copyContext source clone] w)).filter (·.1.on side b) =
      Session.transcript (commands.filter (·.on side b))
        (Session.after [.copyContext source clone] w) := by
  obtain ⟨parted, first, second⟩ := parted_after_copy copied known original quiet unused
  have sides : ∀ command ∈ commands, command.Quiet ∧ (command.on side b ∨ command.on side !b) := by
    intro command member
    obtain ⟨own, b', on⟩ := calm command member
    refine ⟨own, ?_⟩
    by_cases same : b' = b
    · exact .inl (same ▸ on)
    · exact .inr (Bool.eq_not.mpr same ▸ on)
  cases b with
  | false => exact transcript_filter parted first second sides
  | true => exact transcript_filter parted.symm second first sides

end Isolation

theorem start_eq {s : Schema} {loggers : List Logger} {spec : ContextSpec} {w : World}
    (started : Session.start s loggers spec = .ok w) :
    ∃ r checked, (r = .standard 0 ∨ r = Session.reflectiveRegistry 0) ∧
      w = { Session.emptyWorld s loggers with
        contexts := [("main", ⟨0, 0, 0⟩)]
        registries := [r]
        tables := [default]
        settings := [checked]
        next := 1 } := by
  obtain ⟨source, tablesOf, assignments⟩ := spec
  unfold Session.start Session.newContext at started
  cases accepted : Session.newSettings assignments with
  | error e =>
    simp only [accepted] at started
    cases started
  | ok checked =>
    simp only [accepted] at started
    rcases source with (_ | _) | _ | _ | _ <;> rcases tablesOf with _ | _ <;> cases started
    · exact ⟨_, checked, .inl rfl, rfl⟩
    · exact ⟨_, checked, .inr rfl, rfl⟩
    · exact ⟨_, checked, .inl rfl, rfl⟩

theorem quiet_start {s : Schema} {loggers : List Logger} {spec : ContextSpec} {w : World}
    (started : Session.start s loggers spec = .ok w)
    (nested : ∀ name cls t, s.find? name = some cls → PropertyTable.ofClass? 0 cls = some t → t.NestsClasses)
    {x : String} {c : Context} (known : w.bound x = some c) : w.Quiet c := by
  obtain ⟨r, checked, own, rfl⟩ := start_eq started
  obtain rfl : c = ⟨0, 0, 0⟩ := by
    unfold World.bound at known
    obtain ⟨e, found, rfl⟩ := Option.map_eq_some_iff.mp known
    have member := List.mem_of_find?_eq_some found
    rw [List.mem_singleton.mp member]
  have columns : ∀ f ∈ [ColumnFactory.scalars 0, .arrays], f.Matched .exact 0 f := by
    intro f member
    rcases List.mem_pair.mp member with rfl | rfl
    · exact .scalars rfl
    · exact .arrays
  have quiet : r.Quiet := by
    rcases own with rfl | rfl
    · exact ⟨by rintro _ ⟨⟩, columns, by rintro _ ⟨⟩, by rintro _ ⟨⟩⟩
    · refine ⟨fun f member => ?_, columns, by rintro _ ⟨⟩, by rintro _ ⟨⟩⟩
      rw [List.mem_singleton.mp member]
      exact .reflective none ""
  refine ⟨⟨r, rfl, quiet⟩, Nat.zero_lt_one, Nat.zero_lt_one, fun cls t known => ?_⟩
  cases cls with
  | builtin k => cases known
  | declared name =>
    obtain ⟨cls, found, made⟩ := Option.bind_eq_some_iff.mp known
    have same := PropertyTable.ofClass_twins (n := 0) (a := 0) (b := 1) le_rfl (Nat.zero_le _) cls
    replace made := @Schema.ofClass_of_derives s 1 cls t made
    rw [made] at same
    rcases same.cases with ⟨_, none⟩ | ⟨a, b, first, second, twins⟩
    · contradiction
    · cases second
      unfold PropertyTable.NestsClasses
      rw [← PropertyTable.twins_properties twins]
      exact nested name cls a found first

def reader : TypeExpr := .cls (.declared "Reader")

def visit (name : String) : Command := .mapOne name reader (.entries adaCells)

def readerSides : String → Option Bool
  | "main" => some false
  | "copy" | "again" => some true
  | _ => none

/-- Texts come with an exclamation mark. -/
def shouter : MapperSpec :=
  ⟨.object, some "shout", .written fun index => .ask (.value (index.getD 0)) fun v => .yield (.tuple [v, .text "!"]),
    none, some (.cls (.builtin .text)), .absent⟩

/-- Reading goes on in the original, while the copy and a copy of it come to read in another way. -/
def visits : List Command :=
  [.registerColumn "copy" (.mapper shouter) none,
    visit "main",
    .registerProperties "copy" (.cls (.declared "Home")) [⟨"street", .cls (.builtin .text), []⟩]
      (some .mapping) none,
    .configure "main" [.strictMatching (.bool true)] [],
    .copyContext "copy" "again", visit "again", visit "main"]

theorem visits_quiet : ∀ command ∈ visits, command.Quiet ∧ ∃ b, command.on readerSides b := by
  have street : (⟨"street", .cls (.builtin .text), []⟩ : PropertySpec).NestsClass := fun nested => by
    cases nested
  intro command member
  simp only [visits, List.mem_cons, List.not_mem_nil, or_false] at member
  rcases member with rfl | rfl | rfl | rfl | rfl | rfl | rfl
  · exact ⟨rfl, true, rfl⟩
  · exact ⟨trivial, false, rfl⟩
  · exact ⟨fun p own => List.mem_singleton.mp own ▸ street, true, rfl⟩
  · exact ⟨trivial, false, rfl⟩
  · exact ⟨trivial, true, rfl⟩
  · exact ⟨trivial, true, rfl⟩
  · exact ⟨trivial, false, rfl⟩

theorem readers_nested {name : String} {cls : Class} {t : PropertyTable}
    (known : readers.find? name = some cls) (made : PropertyTable.ofClass? 0 cls = some t) :
    t.NestsClasses := by
  have each : ∀ cls ∈ readers.classes, ∀ t ∈ PropertyTable.ofClass? 0 cls, ∀ p ∈ t.properties,
      p.nested.isSome → p.type.raw.class?.isSome := by decide +kernel
  exact each cls (List.mem_of_find?_eq_some known) t made

/-- The copy is made after its caches were filled. The original reads on as before, while the copy of the
copy reads what was registered in the first copy. -/
theorem copies_isolated_readers :
    ∃ w v, Session.start readers [] ⟨.fresh true, none, []⟩ = .ok w ∧
      v = Session.after [.copyContext "main" "copy"] (Session.after [visit "main"] w) ∧
      (Session.transcript visits v).map (fun e => e.2.toOption.any fun
          | .value v => v.same ada
          | _ => false) = [false, true, false, false, false, false, true] ∧
      ∀ b, (Session.transcript visits v).filter (·.1.on readerSides b) =
        Session.transcript (visits.filter (·.on readerSides b)) v := by
  have computed : ((Session.start readers [] ⟨.fresh true, none, []⟩).toOption.any fun w =>
      ((Session.after [visit "main"] w).bound "main").isSome &&
        ((Session.after [visit "main"] w).bound "again").isNone &&
        (Session.transcript visits (Session.after [.copyContext "main" "copy"]
          (Session.after [visit "main"] w))).map (fun e => e.2.toOption.any fun
            | .value v => v.same ada
            | _ => false) = [false, true, false, false, false, false, true]) = true := by
    decide +kernel
  simp only [Option.any_eq_true, Bool.and_eq_true, decide_eq_true_eq, Option.isNone_iff_eq_none] at computed
  obtain ⟨w, taken, ⟨main, again⟩, read⟩ := computed
  obtain ⟨c, known⟩ := Option.isSome_iff_exists.mp main
  have started : Session.start readers [] ⟨.fresh true, none, []⟩ = .ok w := by
    generalize Session.start readers [] ⟨.fresh true, none, []⟩ = result at taken
    cases result <;> cases taken
    rfl
  have visited : ∀ command ∈ [visit "main"], command.Quiet ∧
      ∀ x ∈ command.contexts, readerSides x = some false := by
    intro command member
    rw [List.mem_singleton.mp member]
    exact ⟨trivial, fun x own => List.mem_singleton.mp own ▸ rfl⟩
  have quiet : ∀ x c, readerSides x = some false →
      (Session.after [visit "main"] w).bound x = some c → (Session.after [visit "main"] w).Quiet c :=
    World.quiet_after (fun x c _ known => quiet_start started (fun _ _ _ => readers_nested) known) visited
  have unused : ∀ x, readerSides x = some true → x ≠ "copy" →
      (Session.after [visit "main"] w).bound x = none := by
    intro x there other
    unfold readerSides at there
    split at there
    · contradiction
    · exact absurd rfl other
    · exact again
    · contradiction
  refine ⟨w, _, started, rfl, read, fun b => ?_⟩
  exact copies_isolated rfl known rfl quiet unused visits_quiet b

end RowMapping
