import RowMapping.Proofs.Registry.Coherence
import RowMapping.Proofs.Schema.Tables
import RowMapping.Proofs.Session.Yields

/-! Registries without column factories but the built-in ones. Every mapper that is found there is one
of the library's own. -/
namespace RowMapping

open MappingM

def ColumnFactory.Library : ColumnFactory → Prop
  | .scalars _ | .arrays => True
  | _ => False

instance (f : ColumnFactory) : Decidable f.Library :=
  match f with
  | .scalars _ | .arrays => isTrue trivial
  | .fixed .. | .custom _ | .written .. | .reflective .. => isFalse id

/-- Whether the factory is built in or has one mapper for one type. -/
def ColumnFactory.isPlain : ColumnFactory → Bool
  | .scalars _ | .arrays | .fixed .. => true
  | _ => false

def ColumnMapper.Library : ColumnMapper → Prop
  | .value .. | .array .. | .raw => True
  | _ => False

instance (m : ColumnMapper) : Decidable m.Library :=
  match m with
  | .value .. | .array .. | .raw => isTrue trivial
  | .custom _ | .misplaced _ => isFalse id

/-- All column factories are built in, and so is what they built. -/
structure Registry.Library (r : Registry) : Prop where
  factories : ∀ f ∈ r.columns.factories, f.Library
  kept : ∀ e ∈ r.columns.cache, e.2.Library

theorem ColumnFactory.Library.dependable {f : ColumnFactory} (library : f.Library) :
    f.Dependable := by
  cases f <;> trivial

theorem ColumnFactory.Library.isPlain {f : ColumnFactory} (library : f.Library) : f.isPlain = true := by
  cases f <;> trivial

theorem ColumnFactory.dependable_of_plain {f : ColumnFactory} (plain : f.isPlain = true) : f.Dependable := by
  cases f <;> trivial

theorem ColumnMapper.Library.alike {m n : ColumnMapper} (library : n.Library) (alike : Alike m n) :
    m.Library := by
  cases m <;> cases n <;> trivial

def LibraryFound (o : Option ColumnMapper) : Prop := ∀ m, o = some m → m.Library

theorem libraryFound_none : LibraryFound none := by
  rintro m ⟨⟩

theorem libraryFound_some {m : ColumnMapper} (library : m.Library) : LibraryFound (some m) := by
  rintro _ ⟨⟩
  exact library

theorem scalarFor_library (s : Schema) (origin : Nat) (key : Descriptor) :
    LibraryFound (scalarFor s origin key) := by
  unfold scalarFor
  split
  · split
    · exact libraryFound_some trivial
    · exact libraryFound_none
  · exact libraryFound_none

theorem arrayWith_library (container : Builtin) (o : Option ColumnMapper) :
    LibraryFound (arrayWith container o) := by
  unfold arrayWith
  split
  · exact libraryFound_some trivial
  · exact libraryFound_none

theorem answer_library {s : Schema} {look : Oracle} {key : Descriptor} {element : Option Finding}
    {f : ColumnFactory} (library : f.Library) {o : Option ColumnMapper}
    (answered : f.answer s look key element = some o) : LibraryFound o := by
  cases f with
  | scalars origin =>
    cases answered
    exact scalarFor_library s origin key
  | arrays =>
    simp only [ColumnFactory.answer, arrayFor] at answered
    split at answered
    · obtain ⟨p, _, rfl⟩ := Option.map_eq_some_iff.mp answered
      exact arrayWith_library _ p
    · cases answered
      exact libraryFound_none
  | fixed | custom | written | reflective => contradiction

theorem findingAs_library {s : Schema} {fs : List ColumnFactory} {look : Oracle}
    (library : ∀ f ∈ fs, f.Library) {key : Descriptor} {nullable : Bool} {o : Option ColumnMapper}
    (found : findingAs s fs look key nullable = some o) : LibraryFound o := by
  obtain ⟨raw, args, admitted⟩ := key
  simp only [findingAs] at found
  generalize findingElement s fs look args = element at found
  have scanned : ∀ gs : List ColumnFactory, (∀ f ∈ gs, f.Library) →
      Chain.scan (ColumnFactory.answer s look (.mk raw args nullable) element) gs = some o →
        LibraryFound o := by
    intro gs
    induction gs with
    | nil =>
      rintro _ ⟨⟩
      exact libraryFound_none
    | cons f gs ih =>
      intro own scanned
      simp only [Chain.scan, Option.bind_eq_bind, Option.bind_eq_some_iff] at scanned
      obtain ⟨x, answered, rest⟩ := scanned
      cases x with
      | none => exact ih (fun g hg => own g (List.mem_cons_of_mem _ hg)) rest
      | some m =>
        cases rest
        exact answer_library (own f List.mem_cons_self) answered
  exact scanned fs library found

theorem Registry.library_of_reached {s : Schema} {w : World} (reached : Reached s w) {i : Nat}
    {r : Registry} (known : w.registries[i]? = some r)
    (library : ∀ f ∈ r.columns.factories, f.Library) : r.Library := by
  refine ⟨library, fun e he => ?_⟩
  have sound := World.coherent_of_reached reached r (List.mem_of_getElem? known)
    fun f hf => (library f hf).dependable
  obtain ⟨depth, m, found, alike⟩ := sound e he
  cases depth with
  | zero => contradiction
  | succ depth => exact (findingAs_library library found m rfl).alike alike

/-- Registry `i` has built-in factories only, and all property tables are regular. -/
structure World.Furnished (i : Nat) (w : World) : Prop where
  library : ∀ r, w.registries[i]? = some r → r.Library
  tables : w.Regular

theorem World.furnished_of_reached {s : Schema} {w : World} (reached : Reached s w) {i : Nat}
    {r : Registry} (known : w.registries[i]? = some r)
    (library : ∀ f ∈ r.columns.factories, f.Library) : w.Furnished i := by
  refine ⟨fun t same => ?_, World.regular_of_reached reached⟩
  cases known.symm.trans same
  exact Registry.library_of_reached reached known library

namespace World.Furnished

variable {i : Nat}

theorem aside {w v : World} (furnished : w.Furnished i) (registries : v.registries = w.registries)
    (tables : v.tables = w.tables) : v.Furnished i :=
  ⟨fun r known => furnished.library r (registries ▸ known),
    fun store member => furnished.tables store (tables ▸ member)⟩

theorem log (level : LogLevel) (logger : Logger) (text : String) :
    Yields (Furnished i) (fun _ => True) (MappingM.log level logger text) := by
  refine Leads.yields fun w furnished => ?_
  show World.Furnished i (if _ then _ else _)
  split
  · exact furnished.aside rfl rfl
  · exact furnished

theorem fresh : Yields (Furnished i) (fun _ => True) MappingM.fresh :=
  Leads.yields fun _ furnished => furnished.aside rfl rfl

theorem registry {c : Context} : Yields (Furnished c.registry) Registry.Library (MappingM.registry c) := by
  intro w furnished
  refine ⟨furnished, ?_⟩
  rintro _ ⟨⟩
  cases known : w.registries[c.registry]? with
  | some r => exact furnished.library r known
  | none => exact ⟨fun f hf => absurd hf List.not_mem_nil, fun e he => absurd he List.not_mem_nil⟩

theorem keepColumn {c : Context} (generation : Nat) (key : Descriptor) {m : ColumnMapper}
    (own : m.Library) :
    Yields (Furnished c.registry) (fun _ => True) (Registry.keepColumn c generation key m) := by
  refine Leads.yields fun w furnished => ⟨fun r known => ?_, furnished.tables⟩
  replace known : (w.registries.modify c.registry _)[c.registry]? = some r := known
  rw [List.getElem?_modify_eq, Option.map_eq_map, Option.map_eq_some_iff] at known
  obtain ⟨t, before, rfl⟩ := known
  have library := furnished.library t before
  split
  · refine ⟨library.factories, fun e he => ?_⟩
    rcases List.mem_cons.mp he with rfl | old
    · exact own
    · exact library.kept e (List.mem_of_mem_filter old)
  · exact library

theorem scalarOf (origin : Nat) (key : Descriptor) :
    Yields (Furnished i) LibraryFound (Registry.scalarOf origin key) := by
  unfold Registry.scalarOf
  split
  · refine Yields.get.bind fun w _ => ?_
    split
    · exact Yields.pure (libraryFound_some trivial)
    · exact Yields.pure libraryFound_none
  · exact Yields.pure libraryFound_none

theorem arrayFrom (container : Builtin) (o : Option ColumnMapper) :
    Yields (Furnished i) LibraryFound (Registry.arrayFrom container o) := by
  unfold Registry.arrayFrom
  split
  · exact fresh.bind fun _ _ => Yields.pure (libraryFound_some trivial)
  · exact Yields.pure libraryFound_none

theorem askColumn {h : Hooks} {c : Context} {key : Descriptor}
    {element : Option (MappingM (Option ColumnMapper))}
    (items : ∀ x, element = some x → Yields (Furnished i) LibraryFound x) {f : ColumnFactory}
    (own : f.Library) : Yields (Furnished i) LibraryFound (Registry.askColumn h c key element f) := by
  cases f with
  | scalars origin => exact scalarOf origin key
  | arrays =>
    simp only [Registry.askColumn, Registry.arrayOf]
    split
    · exact (items _ rfl).bind fun found _ => arrayFrom _ found
    · exact Yields.pure libraryFound_none
  | fixed | custom | written | reflective => contradiction

theorem lookup (h : Hooks) (c : Context) :
    Lookup (Furnished c.registry) Registry.Library LibraryFound h c where
  registry := registry
  log := log
  hit r key m library hit := by
    obtain ⟨e, he, rfl⟩ := Option.map_eq_some_iff.mp hit
    exact libraryFound_some (library.kept e (List.mem_of_find?_eq_some he))
  ask r library f hf _ _ items := askColumn items (library.factories f hf)
  missing := libraryFound_none
  keep generation key m own := keepColumn generation key (own m rfl)

theorem findColumnAs (h : Hooks) (c : Context) (key : Descriptor) (nullable : Bool) :
    Yields (Furnished c.registry) LibraryFound (Registry.findColumnAs h c key nullable) :=
  (lookup h c).findColumnAs key nullable

end World.Furnished
end RowMapping
