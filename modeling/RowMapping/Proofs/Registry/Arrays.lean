import RowMapping.Proofs.Mapper.Local
import RowMapping.Proofs.Registry.ColumnCache

/-! Arrays and the scalars that they are made of. The built-in array factory answers for a container exactly
where the type of its items comes to a scalar converter, and its mappers make of every item what that converter
makes of a column that holds it. -/
namespace RowMapping

open MappingM Session

/-! ### Items -/

namespace ColumnMapper

/-- What a mapper makes of a value that stands alone in a row. -/
def alone (h : Hooks) (c : Context) (w : World) (m : ColumnMapper) (v : Value) : Except Failure Value :=
  (((m.apply h c 0).run ⟨["value"], [v], false⟩).run w).1.map (·.1)

variable {h : Hooks} {c : Context} {w : World}

theorem alone_library {m : ColumnMapper} (library : m.Library) (v : Value) :
    m.alone h c w v = m.convert w.schema 0 v := by
  have present : (Row.mk ["value"] [v] false).values[0]? = some v := rfl
  have ran := run_library (h := h) (c := c) library present w
  unfold alone
  rw [show (0 : Int) = (0 : Nat) from rfl, ran]
  cases m.convert w.schema (0 : Nat) v <;> rfl

theorem alone_null (origin : Nat) (target : ClassRef) : (value origin target).alone h c w .null = .ok .null :=
  (alone_library (m := value origin target) trivial .null).trans rfl

/-- An array is made of what the converter makes of its items, each put into the container as it is made. The
first is reported that the converter refuses, or that is made without a hash where the container needs one. -/
theorem alone_array (serial : Nat) (container : Builtin) (origin : Nat) (target : ClassRef) {v : Value}
    {items : List Value} (known : arrayItems? v = some items) :
    (array serial container origin target).alone h c w v =
      (items.mapM fun item => (value origin target).alone h c w item >>= admitted container).map
        (collected container) := by
  have given : v.isNull = false := by
    cases v <;> first | rfl | contradiction
  have each : (value origin target).alone h c w = convertTo w.schema target :=
    funext fun item => alone_library (m := value origin target) trivial item
  rw [alone_library (m := array serial container origin target) trivial, each]
  simp only [convert, given, known, Bool.false_eq_true, if_false, contain_map]

end ColumnMapper

/-! ### The factory that answers -/

def Descriptor.collection (container : Builtin) (element : Descriptor) (nullable : Bool) : Descriptor :=
  .mk (.cls (.builtin container)) [element] nullable

theorem scan_eq_some {Factory Mapper : Type} {ask : Factory → Option (Option Mapper)} {fs : List Factory}
    {m : Mapper} : Chain.scan ask fs = some (some m) ↔ ∃ before f after, fs = before ++ f :: after ∧
      (∀ g ∈ before, ask g = some none) ∧ ask f = some (some m) := by
  induction fs with
  | nil => simp [Chain.scan]
  | cons f fs ih =>
    simp only [Chain.scan, Option.bind_eq_bind, Option.bind_eq_some_iff]
    constructor
    · rintro ⟨_ | n, answered, rest⟩
      · obtain ⟨before, g, after, rfl, declined, found⟩ := ih.mp rest
        exact ⟨f :: before, g, after, rfl, List.forall_mem_cons.mpr ⟨answered, declined⟩, found⟩
      · cases rest
        exact ⟨[], f, fs, rfl, List.forall_mem_nil _, answered⟩
    · rintro ⟨_ | ⟨g, before⟩, f', after, same, declined, found⟩
      · cases same
        exact ⟨some m, found, rfl⟩
      · cases same
        obtain ⟨first, others⟩ := List.forall_mem_cons.mp declined
        exact ⟨none, first, ih.mpr ⟨before, f', after, rfl, others, found⟩⟩

section Answers

variable {s : Schema} {fs : List ColumnFactory}

/-- The factory is the first of several to answer for a type, with look-ups nested less than `n` deep. -/
def Chosen (s : Schema) (fs : List ColumnFactory) (n : Nat) (key : Descriptor) (f : ColumnFactory)
    (m : ColumnMapper) : Prop :=
  ∃ before after, fs = before ++ f :: after ∧
    (∀ g ∈ before, g.answer s (uncached s fs n) key (findingElement s fs (uncached s fs n) key.args) = some none) ∧
    f.answer s (uncached s fs n) key (findingElement s fs (uncached s fs n) key.args) = some (some m)

theorem uncached_eq_some {n : Nat} {key : Descriptor} {m : ColumnMapper} :
    uncached s fs (n + 1) key = some (some m) ↔ ∃ f, Chosen s fs n key f m := by
  obtain ⟨raw, args, nullable⟩ := key
  refine scan_eq_some.trans ?_
  constructor
  · rintro ⟨before, f, after, split, declined, found⟩
    exact ⟨f, before, after, split, declined, found⟩
  · rintro ⟨f, before, after, split, declined, found⟩
    exact ⟨before, f, after, split, declined, found⟩

variable {container : Builtin} (listed : Registry.isContainer container = true) {element : Descriptor}
  {nullable : Bool}
include listed

theorem arrays_answer {n : Nat} {m : ColumnMapper} :
    ColumnFactory.arrays.answer s (uncached s fs n) (.collection container element nullable)
        (findingElement s fs (uncached s fs n) [element]) = some (some m) ↔
      ∃ origin target, uncached s fs (n + 1) element.boxed = some (some (.value origin target)) ∧
        m = .array 0 container origin target := by
  have boxed : findingAs s fs (uncached s fs n) element true = uncached s fs (n + 1) element.boxed := by
    obtain ⟨raw, args, admitted⟩ := element
    rfl
  simp only [ColumnFactory.answer, arrayFor, Registry.container?, Descriptor.collection, Descriptor.raw, listed,
    if_true, findingElement, boxed, Option.map_eq_some_iff]
  constructor
  · rintro ⟨found, searched, made⟩
    unfold arrayWith at made
    split at made
    · cases made
      exact ⟨_, _, searched, rfl⟩
    · contradiction
  · rintro ⟨origin, target, searched, rfl⟩
    exact ⟨_, searched, rfl⟩

end Answers

/-! ### Arrays in sessions -/

theorem FoundAlike.value {x : Option ColumnMapper} {origin : Nat} {target : ClassRef}
    (alike : FoundAlike x (some (.value origin target))) : x = some (.value origin target) := by
  obtain ⟨m, rfl, one⟩ := foundAlike_some alike
  exact congrArg some one.value

theorem FoundAlike.array {x : Option ColumnMapper} {serial origin : Nat} {container : Builtin} {target : ClassRef}
    (alike : FoundAlike x (some (.array serial container origin target))) :
    ∃ serial', x = some (.array serial' container origin target) := by
  obtain ⟨m, rfl, one⟩ := foundAlike_some alike
  cases m <;> simp_all [Alike, Numbered.anonymous]

/-- A factory that is asked while nothing is registered answers as it does with nothing kept. -/
theorem World.Coherent.ask {w v : World} (coherent : w.Coherent) {c : Context} {r : Registry}
    (owned : w.registries[c.registry]? = some r) (dependable : ∀ f ∈ r.columns.factories, f.Dependable)
    {f : ColumnFactory} (member : f ∈ r.columns.factories) {depth : Nat} {key : Descriptor}
    {result : Except Failure (Option ColumnMapper)}
    (ran : (Registry.askColumn (hooks depth) c key (Registry.findElement (hooks depth) c key.args) f).run w =
      (result, v)) (quiet : Unregistered w v c) :
    Matches depth (fun n => f.answer w.schema (uncached w.schema r.columns.factories n) key
      (findingElement w.schema r.columns.factories (uncached w.schema r.columns.factories n) key.args)) result := by
  obtain ⟨t, t', known, known', same⟩ := quiet
  cases owned.symm.trans known
  have resolve := hooks_resolve depth
  have items : ItemsResolve w.schema r.columns.factories (hooks depth) c depth key := fun d _ =>
    ⟨(findColumnAs_resolves resolve d true).1, (findColumnAs_resolves resolve d true).2 _ _ dependable⟩
  have element : Course.Element World.Kept (Registry.findElement (hooks depth) c key.args) := by
    cases args : key.args with
    | nil => simp [Course.Element, Registry.findElement]
    | cons d ds =>
      rintro x ⟨⟩
      exact (items d (args ▸ List.mem_cons_self)).1
  have grown := (World.course_kept.askColumn resolve.lead c key element f w).1
  have asked := quietly_askColumn resolve dependable items member w coherent ⟨rfl, r, owned, rfl⟩
  rw [ran] at asked grown
  exact asked ⟨grown.schema, t', known', same⟩

/-- Whatever a look-up of the type finds while nothing is registered is of this kind, and a look-up that may nest
more than `n` deep returns. -/
def Resolves (w : World) (c : Context) (n : Nat) (key : Descriptor) (kind : Option ColumnMapper → Prop) : Prop :=
  ∀ depth result v, (Registry.findColumn (hooks depth) c key).run w = (result, v) → Unregistered w v c →
    (∀ found, result = .ok found → kind found) ∧ (n < depth → ∃ found, result = .ok found)

theorem World.Coherent.resolves {w : World} (coherent : w.Coherent) {c : Context} {r : Registry}
    (owned : w.registries[c.registry]? = some r) (dependable : ∀ f ∈ r.columns.factories, f.Dependable)
    {n : Nat} {key : Descriptor} {x : Option ColumnMapper}
    (searched : uncached w.schema r.columns.factories (n + 1) key = some x) {kind : Option ColumnMapper → Prop}
    (of_alike : ∀ found, FoundAlike found x → kind found) : Resolves w c n key kind := by
  intro depth result v ran quiet
  have matched := coherent.lookup owned dependable ran quiet
  constructor
  · rintro found rfl
    have again : Matches (depth + 1) (fun n => uncached w.schema r.columns.factories n key) (.ok x) :=
      matches_found (rising_uncached key) searched rfl
    exact of_alike found (matched.unique (rising_uncached key) again)
  · intro deep
    obtain ⟨found, known, _⟩ := matched.2 (n + 1) (by omega) x searched
    exact ⟨found, known⟩

/-- The array factory answers nothing when the type of the items comes to anything but a scalar converter. -/
theorem run_arrays_declined {h : Hooks} {c : Context} {w v : World} {container : Builtin}
    (listed : Registry.isContainer container = true) {element : Descriptor} (nullable : Bool)
    {found : Option ColumnMapper} (ran : (Registry.findColumn h c element.boxed).run w = (.ok found, v))
    (other : ∀ origin target, found ≠ some (.value origin target)) :
    (Registry.askColumn h c (.collection container element nullable) (Registry.findElement h c [element])
      .arrays).run w = (.ok none, v) := by
  have contained : Registry.container? (.collection container element nullable) = some container := by
    simp [Registry.container?, Descriptor.collection, Descriptor.raw, listed]
  have searched : (Registry.findColumnAs h c element true).run w = (.ok found, v) := by
    obtain ⟨raw, args, admitted⟩ := element
    exact ran
  simp only [Registry.askColumn, Registry.arrayOf, contained, Registry.findElement]
  rw [run_bind_ok searched]
  unfold Registry.arrayFrom
  split
  · exact absurd rfl (other _ _)
  · rfl

/-- Wherever a session comes to, a look-up during which nothing is registered finds what some factory answers, if
the factories answer by the type and by what they look up. Where it is the array factory that answers, the type
of the items resolves to a scalar converter, by which the array makes its items. Where that type resolves to
anything else, the array factory declines, whatever it did before. -/
theorem array_items_as_scalars {s : Schema} {w : World} (reached : Reached s w) {c : Context} {r : Registry}
    (owned : w.registries[c.registry]? = some r) (dependable : ∀ f ∈ r.columns.factories, f.Dependable)
    {container : Builtin} (listed : Registry.isContainer container = true) (element : Descriptor)
    (nullable : Bool) :
    (∀ depth m v, (Registry.findColumn (hooks depth) c (.collection container element nullable)).run w =
        (.ok (some m), v) → Unregistered w v c →
      ∃ n f m', Chosen w.schema r.columns.factories n (.collection container element nullable) f m' ∧
        m.Behaves m') ∧
    (∀ n m, Chosen w.schema r.columns.factories n (.collection container element nullable) .arrays m →
      ∃ origin target,
        Resolves w c n element.boxed (· = some (.value origin target)) ∧
        Resolves w c n (.collection container element nullable)
          (∃ serial, · = some (.array serial container origin target)) ∧
        ∀ h u serial raw items, arrayItems? raw = some items →
          (ColumnMapper.array serial container origin target).alone h c u raw =
            (items.mapM fun item => (ColumnMapper.value origin target).alone h c u item >>= admitted container).map
              (collected container) ∧
          (ColumnMapper.value origin target).alone h c u .null = .ok .null) ∧
    ∀ depth found v, (Registry.findColumn (hooks depth) c element.boxed).run w = (.ok found, v) →
      Unregistered w v c → (∀ origin target, found ≠ some (.value origin target)) →
      (Registry.askColumn (hooks depth) c (.collection container element nullable)
        (Registry.findElement (hooks depth) c [element]) .arrays).run w = (.ok none, v) ∧
      (∀ depth o v, (Registry.askColumn (hooks depth) c (.collection container element nullable)
          (Registry.findElement (hooks depth) c [element]) .arrays).run w = (.ok o, v) →
        Unregistered w v c → o = none) ∧
      ∀ n m, ¬ Chosen w.schema r.columns.factories n (.collection container element nullable) .arrays m := by
  have coherent := World.coherent_of_reached reached
  refine ⟨fun depth m v ran quiet => ?_, fun n m chosen => ?_, fun depth found v ran quiet other => ?_⟩
  · obtain ⟨n, y, searched, alike⟩ := (coherent.lookup owned dependable ran quiet).1 _ rfl
    obtain ⟨m', rfl, one⟩ := foundAlike_some alike.symm
    cases n with
    | zero => contradiction
    | succ n =>
      obtain ⟨f, chosen⟩ := uncached_eq_some.mp searched
      exact ⟨n, f, m', chosen, Alike.apply one.symm⟩
  · have whole := uncached_eq_some.mpr ⟨_, chosen⟩
    obtain ⟨_, _, _, _, answered⟩ := chosen
    obtain ⟨origin, target, item, rfl⟩ := (arrays_answer listed).mp answered
    refine ⟨origin, target, coherent.resolves owned dependable item fun _ => FoundAlike.value,
      coherent.resolves owned dependable whole fun _ => FoundAlike.array, fun h u serial raw items known => ?_⟩
    exact ⟨ColumnMapper.alone_array serial container origin target known, ColumnMapper.alone_null origin target⟩
  · have declines : ∀ n m, ColumnFactory.arrays.answer w.schema (uncached w.schema r.columns.factories n)
        (.collection container element nullable)
        (findingElement w.schema r.columns.factories (uncached w.schema r.columns.factories n) [element]) ≠
          some (some m) := by
      intro n m answered
      obtain ⟨origin, target, item, _⟩ := (arrays_answer listed).mp answered
      have resolves := coherent.resolves owned dependable item fun _ => FoundAlike.value
      exact other origin target ((resolves depth _ v ran quiet).1 found rfl)
    refine ⟨run_arrays_declined listed nullable ran other, fun depth o v ran quiet => ?_, fun n m => ?_⟩
    · have member : ColumnFactory.arrays ∈ r.columns.factories := by
        obtain ⟨added, serial, same⟩ := World.founded_of_reached reached r (List.mem_of_getElem? owned)
        simp [same]
      obtain ⟨n, y, answered, alike⟩ := (coherent.ask owned dependable member ran quiet).1 o rfl
      cases y with
      | none => exact foundAlike_none alike
      | some m => exact absurd answered (declines n m)
    · rintro ⟨_, _, _, _, answered⟩
      exact declines n m answered

def twelves : ColumnFactory :=
  .fixed (Descriptor.ofClass (.builtin .int)).boxed
    (.custom ⟨1, 0, true, ⟨.object, none, .const (.int 12), none, none, .absent⟩⟩)

def listOf (b : Builtin) : Descriptor := .collection .list (.ofClass (.builtin b)) false

def listsFound : World :=
  ((Registry.findColumn (hooks 2) ⟨0, 0, 0⟩ (listOf .int)).run
    { emptyWorld default [] with registries := [.standard 0] }).2

def twelvesFound : World :=
  { listsFound with registries := listsFound.registries.modify 0 (·.registerColumn twelves) }

/-- Lists of integers are found first and no longer when twelves are registered, and lists of strings are found
still. -/
theorem array_items_as_scalars_replaced :
    ((Registry.findColumn (hooks 2) ⟨0, 0, 0⟩ (listOf .int)).run listsFound).1 =
      .ok (some (.array 0 .list 0 (.builtin .int))) ∧
    (∀ depth o v, (Registry.askColumn (hooks depth) ⟨0, 0, 0⟩ (listOf .int)
          (Registry.findElement (hooks depth) ⟨0, 0, 0⟩ [.ofClass (.builtin .int)]) .arrays).run twelvesFound =
        (.ok o, v) →
      Unregistered twelvesFound v ⟨0, 0, 0⟩ → o = none) ∧
    ∃ origin target, ∀ h u serial raw items, arrayItems? raw = some items →
      (ColumnMapper.array serial .list origin target).alone h ⟨0, 0, 0⟩ u raw =
        (items.mapM fun item => (ColumnMapper.value origin target).alone h ⟨0, 0, 0⟩ u item >>= admitted .list).map
          (collected .list) := by
  have founded := (Reached.empty []).change (.founded (emptyWorld default []) 0)
  have reached : Reached default twelvesFound :=
    (founded.onward (.column 2 ⟨0, 0, 0⟩ (listOf .int) (.refl _))).change (.columnRegistered _ 0 twelves)
  have owned : twelvesFound.registries[0]? = some ⟨.of [], ⟨[twelves, .scalars 0, .arrays], [], 1⟩⟩ := rfl
  have dependable : ∀ f ∈ [twelves, .scalars 0, .arrays], f.Dependable := by
    intro f member
    simp only [List.mem_cons, List.not_mem_nil, or_false] at member
    rcases member with rfl | rfl | rfl <;> trivial
  have quiet : Unregistered twelvesFound ((Registry.findColumn (hooks 2) ⟨0, 0, 0⟩
      (Descriptor.ofClass (.builtin .int)).boxed).run twelvesFound).2 ⟨0, 0, 0⟩ := ⟨_, _, rfl, rfl, rfl⟩
  have chosen : Chosen twelvesFound.schema [twelves, .scalars 0, .arrays] 0 (listOf .text) .arrays
      (.array 0 .list 0 (.builtin .text)) := by
    refine ⟨[twelves, .scalars 0], [], rfl, fun g member => ?_, rfl⟩
    simp only [List.mem_cons, List.not_mem_nil, or_false] at member
    rcases member with rfl | rfl <;> rfl
  have container : Registry.isContainer .list = true := rfl
  obtain ⟨_, _, declines⟩ :=
    array_items_as_scalars reached (c := ⟨0, 0, 0⟩) owned dependable container (.ofClass (.builtin .int)) false
  obtain ⟨_, follows, _⟩ :=
    array_items_as_scalars reached (c := ⟨0, 0, 0⟩) owned dependable container (.ofClass (.builtin .text)) false
  obtain ⟨origin, target, _, _, items⟩ := follows 0 _ chosen
  refine ⟨rfl, (declines 2 _ _ rfl quiet nofun).2.1, origin, target, fun h u serial raw all known => ?_⟩
  exact (items h u serial raw all known).1

def signaling : Value := .decimal (.nan false true 0)

/-- Sets of decimals are found too, and each item of such a column is converted to itself. Yet where the item is a
signaling NaN the column is refused, since sets take only what has a hash. -/
theorem unhashable_items_refused :
    ((Registry.findColumn (hooks 2) ⟨0, 0, 0⟩ (.collection .set (.ofClass (.builtin .decimal)) false)).run
        listsFound).1 = .ok (some (.array 1 .set 0 (.builtin .decimal))) ∧
      ∀ h c u, (ColumnMapper.value 0 (.builtin .decimal)).alone h c u signaling = .ok signaling ∧
        (ColumnMapper.array 1 .set 0 (.builtin .decimal)).alone h c u (.list [signaling]) = .error .misuse :=
  ⟨rfl, fun _ _ _ => ⟨rfl, rfl⟩⟩

end RowMapping
