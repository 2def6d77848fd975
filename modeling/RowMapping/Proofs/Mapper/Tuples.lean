import RowMapping.Proofs.Registry.Arrays
import RowMapping.Proofs.Registry.Stocked

/-! Tuples of listed types. To the array factory a tuple of several types is one of the first of them, of any
length. That is conversion position by position only for values of the listed length, whose items the types in
their places take as the first type takes them. -/
namespace RowMapping

open MappingM Session

/-- Conversion position by position: each item as the class in its place, and nothing of another length. -/
def Positional (h : Hooks) (c : Context) (w : World) (origin : Nat) (classes : List ClassRef) (items : List Value)
    (outcome : Except Failure Value) : Prop :=
  if items.length = classes.length then
    outcome = ((classes.zip items).mapM fun p => (ColumnMapper.value origin p.1).alone h c w p.2).map .tuple
  else ∃ e, outcome = .error e

def tupleOf (classes : List ClassRef) : TypeExpr := .generic .tuple (classes.map .cls) false

section Tuples

variable {s : Schema} {serial : Nat} {first : ClassRef} (scalar : Registry.isScalar s first = true)
  (others : List ClassRef)
include scalar

theorem builtFor_tuple : builtFor s [.scalars serial, .arrays] (.of (tupleOf (first :: others))) false =
    some (some (.array 0 .tuple serial first)) := by
  have descriptor : Descriptor.of (tupleOf (first :: others)) =
      .mk (.cls (.builtin .tuple)) (.ofClass first :: Descriptor.ofAll (others.map .cls)) false := rfl
  have element : findingAs s [.scalars serial, .arrays] (fun _ => none) (.ofClass first) true =
      some (some (.value serial first)) := by
    simp [findingAs, Descriptor.ofClass, Chain.scan, ColumnFactory.answer, scalarFor, Descriptor.raw,
      Descriptor.args, scalar]
  rw [descriptor]
  simp [builtFor, findingAs, findingElement, Chain.scan, ColumnFactory.answer, scalarFor, arrayFor, element,
    Registry.container?, Registry.isContainer, Descriptor.raw, Descriptor.args, arrayWith]

end Tuples

/-- A registry with the built-in factories finds for every tuple of scalar classes the array mapper of the first
of them, which makes a tuple of any length. A value of another length is refused for its items only. One that
has an item for each class is converted position by position where the classes take their items as the first
class does. -/
theorem tuple_converts_by_first {s : Schema} {w : World} (reached : Reached s w) {c : Context} {r : Registry}
    (owned : w.registries[c.registry]? = some r) {serial : Nat}
    (standard : r.columns.factories = [.scalars serial, .arrays]) {first : ClassRef}
    (scalar : Registry.isScalar s first = true) (others : List ClassRef) (h : Hooks) : ∃ number v,
      (Registry.findColumn h c (.of (tupleOf (first :: others)))).run w =
        (.ok (some (.array number .tuple serial first)), v) ∧
      ∀ k d u raw items, raw = .list items ∨ raw = .tuple items →
        (ColumnMapper.array number .tuple serial first).alone k d u raw =
          (items.mapM ((ColumnMapper.value serial first).alone k d u)).map .tuple ∧
        (∀ x, (ColumnMapper.array number .tuple serial first).alone k d u raw = .ok x →
          ∃ values, x = .tuple values ∧ List.Forall₂ (fun item v =>
            (ColumnMapper.value serial first).alone k d u item = .ok v) items values) ∧
        (items.length ≠ (first :: others).length → (Positional k d u serial (first :: others) items
            ((ColumnMapper.array number .tuple serial first).alone k d u raw) ↔
          ∃ item ∈ items, ∃ e, (ColumnMapper.value serial first).alone k d u item = .error e)) ∧
        (items.length = (first :: others).length →
          (∀ p ∈ (first :: others).zip items, (ColumnMapper.value serial p.1).alone k d u p.2 =
            (ColumnMapper.value serial first).alone k d u p.2) →
          Positional k d u serial (first :: others) items
            ((ColumnMapper.array number .tuple serial first).alone k d u raw)) := by
  have library : ∀ f ∈ r.columns.factories, f.Library := by
    rw [standard]
    simp [ColumnFactory.Library]
  have stocked := World.stocked_of_coherent (World.coherent_of_reached reached) owned library
  obtain ⟨found, _, v, ran, came, alike, _⟩ :=
    supplies_findColumnAs library h c (.of (tupleOf (first :: others))) false w stocked
  rw [standard, reached.schema, builtFor_tuple scalar others] at came
  cases came
  obtain ⟨number, rfl⟩ := alike.array
  refine ⟨number, v, ran, fun k d u raw items given => ?_⟩
  have known : arrayItems? raw = some items := by
    rcases given with rfl | rfl <;> rfl
  have made : (ColumnMapper.array number .tuple serial first).alone k d u raw =
      (items.mapM ((ColumnMapper.value serial first).alone k d u)).map .tuple := by
    have all : admitted .tuple = Except.ok := funext fun _ => rfl
    rw [ColumnMapper.alone_array number .tuple serial first known, all]
    exact congrArg (Except.map Value.tuple) (congrArg items.mapM (funext fun _ => bind_pure _))
  refine ⟨made, fun x ok => ?_, fun other => ?_, fun lengths same => ?_⟩
  · rw [made] at ok
    cases all : items.mapM ((ColumnMapper.value serial first).alone k d u) with
    | error e =>
      rw [all] at ok
      contradiction
    | ok values =>
      rw [all] at ok
      cases ok
      exact ⟨values, rfl, mapM_each all⟩
  · rw [Positional, if_neg other, made, ← mapM_refused]
    cases items.mapM ((ColumnMapper.value serial first).alone k d u) with
    | error e => exact ⟨fun _ => ⟨e, rfl⟩, fun _ => ⟨e, rfl⟩⟩
    | ok values => exact ⟨nofun, nofun⟩
  · rw [Positional, if_pos lengths, made, mapM_zip lengths same]

def standardWorld : World := { emptyWorld default [] with registries := [.standard 0] }

theorem standardWorld_reached : Reached default standardWorld :=
  (Reached.empty []).change (.founded (emptyWorld default []) 0)

/-- Pairs of integers are converted position by position. -/
theorem tuple_converts_by_first_pair : ∃ number v,
    (Registry.findColumn (hooks depth) ⟨0, 0, 0⟩ (.of (tupleOf [.builtin .int, .builtin .int]))).run standardWorld =
      (.ok (some (.array number .tuple 0 (.builtin .int))), v) ∧
    Positional (hooks depth) ⟨0, 0, 0⟩ standardWorld 0 [.builtin .int, .builtin .int] [.int 1, .text "2"]
      ((ColumnMapper.array number .tuple 0 (.builtin .int)).alone (hooks depth) ⟨0, 0, 0⟩ standardWorld
        (.list [.int 1, .text "2"])) := by
  have scalar : Registry.isScalar default (.builtin .int) = true := rfl
  obtain ⟨number, v, ran, made⟩ :=
    tuple_converts_by_first standardWorld_reached (c := ⟨0, 0, 0⟩) rfl rfl scalar [.builtin .int] (hooks depth)
  obtain ⟨_, _, _, agrees⟩ :=
    made (hooks depth) ⟨0, 0, 0⟩ standardWorld (.list [.int 1, .text "2"]) [.int 1, .text "2"] (.inl rfl)
  exact ⟨number, v, ran, agrees rfl (by simp)⟩

/-- A pair of an integer and a string comes out as two integers, and a single integer passes for a pair. -/
theorem tuple_misread : ∃ m,
    ((Registry.findColumn (hooks depth) ⟨0, 0, 0⟩
        (.of (tupleOf [.builtin .int, .builtin .text]))).run standardWorld).1 = .ok (some m) ∧
    m.alone (hooks depth) ⟨0, 0, 0⟩ standardWorld (.list [.int 1, .text "2"]) = .ok (.tuple [.int 1, .int 2]) ∧
    m.alone (hooks depth) ⟨0, 0, 0⟩ standardWorld (.list [.int 1]) = .ok (.tuple [.int 1]) ∧
    ¬ Positional (hooks depth) ⟨0, 0, 0⟩ standardWorld 0 [.builtin .int, .builtin .text] [.int 1, .text "2"]
      (m.alone (hooks depth) ⟨0, 0, 0⟩ standardWorld (.list [.int 1, .text "2"])) := by
  have paired : (([.builtin .int, .builtin .text] : List ClassRef).zip [.int 1, .text "2"]).mapM
      (fun p => (ColumnMapper.value 0 p.1).alone (hooks depth) ⟨0, 0, 0⟩ standardWorld p.2) =
        .ok [.int 1, .text "2"] := rfl
  have misread : (ColumnMapper.array 0 .tuple 0 (.builtin .int)).alone (hooks depth) ⟨0, 0, 0⟩ standardWorld
      (.list [.int 1, .text "2"]) = .ok (.tuple [.int 1, .int 2]) := by
    with_unfolding_all rfl
  refine ⟨.array 0 .tuple 0 (.builtin .int), by with_unfolding_all rfl, misread, by with_unfolding_all rfl, ?_⟩
  rw [Positional, misread, paired]
  simp [Except.map]

end RowMapping
