import RowMapping.Proofs.Convert.Models
import RowMapping.Proofs.Types.Nullable

/-! The fields of a model, read one by one. A model is made if every field is read and no keyword is left over
that is forbidden; whatever is wrong is wrong with one of them. A field whose type admits null, as unions with null
do, reads null as null. -/
namespace RowMapping

namespace Constructed

theorem collect_error {α : Type} {xs : List (Constructed α)} {fault : ConstructFault}
    (failed : collect xs = .error fault) : ∃ x ∈ xs, ∃ cause, x = .error cause := by
  induction xs generalizing fault with
  | nil => contradiction
  | cons x xs ih =>
    cases x with
    | error cause => exact ⟨_, List.mem_cons_self, cause, rfl⟩
    | ok a =>
      cases rest : collect xs with
      | error other =>
        obtain ⟨y, member, refused⟩ := ih rest
        exact ⟨y, List.mem_cons_of_mem _ member, refused⟩
      | ok as =>
        rw [collect, rest] at failed
        contradiction

theorem collect_of_error {α : Type} {xs : List (Constructed α)} {cause : ConstructFault}
    (member : .error cause ∈ xs) : ∃ fault, collect xs = .error fault := by
  cases collected : collect xs with
  | error fault => exact ⟨fault, rfl⟩
  | ok as =>
    obtain ⟨i, bound, here⟩ := List.getElem_of_mem member
    obtain ⟨same, each⟩ := List.forall₂_iff_get.mp (collect_ok collected)
    cases here.symm.trans (each i bound (same ▸ bound))

theorem mem_of_collect {α : Type} {xs : List (Constructed α)} {as : List α} {a : α}
    (collected : collect xs = .ok as) (member : .ok a ∈ xs) : a ∈ as := by
  obtain ⟨i, bound, here⟩ := List.getElem_of_mem member
  obtain ⟨same, each⟩ := List.forall₂_iff_get.mp (collect_ok collected)
  cases here.symm.trans (each i bound (same ▸ bound))
  exact List.getElem_mem _

theorem map_eq_error {α β : Type} {f : α → β} {x : Constructed α} {fault : ConstructFault}
    (mapped : x.map f = .error fault) : ∃ cause, x = .error cause := by
  cases x with
  | error cause => exact ⟨cause, rfl⟩
  | ok a => contradiction

end Constructed

open Constructed

namespace Schema

/-- What a field is read as from keywords: its name with what is given under one of its keys, or else with its
fallback. -/
def readField (s : Schema) (settings : ModelSettings) (ks : Keywords) (f : FieldSpec) :
    Constructed (String × Value) :=
  let place := Place.key ((fieldKeys settings f).headD f.name)
  match (fieldKeys settings f).findSome? ks.find? with
  | some v => ((s.takes settings ks f v).under place).map fun w => (f.name, w)
  | none => f.fallback.elim ((reject .missing).under place) fun d => (d.value?.map (f.name, ·)).mapError .raised

/-- A keyword that no field reads, where such keywords are forbidden. -/
def Excess (settings : ModelSettings) (fields : List FieldSpec) (ks : Keywords) (k : String) : Prop :=
  settings.forbidsExtra = some true ∧ (∃ v, (k, v) ∈ ks) ∧ ∀ g ∈ fields, k ∉ fieldKeys settings g

theorem validateKeywords_fields {s : Schema} {c : Class} {fields : List FieldSpec} {settings : ModelSettings}
    (shape : c.shape = .model fields settings) (ks : Keywords) : ∃ extras,
      s.validateKeywords c ks =
        (collect (fields.map (s.readField settings ks) ++ extras)).map (.object c.name true) ∧
      ∀ x ∈ extras, ∃ k, Excess settings fields ks k ∧ x = (reject .extraForbidden).under (.key k) := by
  have validated : s.validateKeywords c ks = validate (depthEntries (entriesOf ks) + 1) s c (entriesOf ks) := rfl
  rw [validated, validate, shape]
  dsimp only [checkModel]
  rw [funext (valueAt_entriesOf ks)]
  refine ⟨_, rfl, fun x member => ?_⟩
  split at member
  · next forbids =>
    obtain ⟨k, left, rfl⟩ := List.mem_map.mp member
    obtain ⟨given, unread⟩ := List.mem_filter.mp left
    obtain ⟨e, entry, known⟩ := List.mem_filterMap.mp given
    obtain ⟨⟨k', v⟩, inside, rfl⟩ := List.mem_map.mp entry
    cases known
    refine ⟨k', ⟨forbids, ⟨v, inside⟩, fun g own read => ?_⟩, rfl⟩
    simp only [Bool.not_eq_true', List.contains_eq_mem, decide_eq_false_iff_not] at unread
    exact unread (List.mem_flatMap.mpr ⟨g, own, read⟩)
  · exact absurd member List.not_mem_nil

section Fields

variable {s : Schema} {c : Class} {fields : List FieldSpec} {settings : ModelSettings}
  (shape : c.shape = .model fields settings) {ks : Keywords} {f : FieldSpec} (member : f ∈ fields)
include shape member

/-- Where a field is read, what fails is another field or a keyword, and a model that is made holds what was read. -/
theorem validated_of_read (distinct : (fields.map (·.name)).Nodup) {e : String × Value}
    (read : s.readField settings ks f = .ok e) :
    (∀ fault, s.validateKeywords c ks = .error fault →
      (∃ g ∈ fields, g.name ≠ f.name ∧ ∃ cause, s.readField settings ks g = .error cause) ∨
        ∃ k, Excess settings fields ks k) ∧
    ∀ x, s.validateKeywords c ks = .ok x → ∃ values, x = .object c.name true values ∧ e ∈ values := by
  obtain ⟨extras, validated, excess⟩ := s.validateKeywords_fields shape ks
  rw [validated]
  constructor
  · intro fault failed
    obtain ⟨fault', refused⟩ := map_eq_error failed
    obtain ⟨y, inside, cause, rfl⟩ := collect_error refused
    rcases List.mem_append.mp inside with field | extra
    · obtain ⟨g, own, same⟩ := List.mem_map.mp field
      refine .inl ⟨g, own, fun name => ?_, cause, same⟩
      rw [field_unique distinct own member name, read] at same
      contradiction
    · obtain ⟨k, surplus, _⟩ := excess _ extra
      exact .inr ⟨k, surplus⟩
  · intro x made
    obtain ⟨values, collected, rfl⟩ := map_eq_ok made
    have inside : s.readField settings ks f ∈ fields.map (s.readField settings ks) ++ extras :=
      List.mem_append_left _ (List.mem_map_of_mem member)
    exact ⟨values, rfl, mem_of_collect collected (read ▸ inside)⟩

theorem refused_of_read {cause : ConstructFault} (read : s.readField settings ks f = .error cause) :
    ∃ fault, s.validateKeywords c ks = .error fault := by
  obtain ⟨extras, validated, _⟩ := s.validateKeywords_fields shape ks
  have inside : s.readField settings ks f ∈ fields.map (s.readField settings ks) ++ extras :=
    List.mem_append_left _ (List.mem_map_of_mem member)
  obtain ⟨fault, refused⟩ := collect_of_error (read ▸ inside)
  rw [validated, refused]
  exact ⟨fault, rfl⟩

end Fields

end Schema

/-! ### Null as it is -/

/-- No union at the top of the type has a single alternative. -/
def TypeExpr.Plural : TypeExpr → Prop
  | .union _ ms => 2 ≤ ms.length
  | .marked t _ => t.Plural
  | _ => True

theorem Descriptor.null_of_nullable {style : UnionStyle} {ms : List TypeExpr} (plural : 2 ≤ ms.length)
    (nullable : (Descriptor.of (.union style ms)).nullable = true) : ms.any TypeExpr.isNone = true := by
  by_contra solid
  have proper : ms.filter (!·.isNone) = ms := by
    refine List.filter_eq_self.mpr fun m member => ?_
    simpa using fun null => solid (List.any_eq_true.mpr ⟨m, member, null⟩)
  have lengths : (ofAlternatives ms).length = ms.length := by rw [ofAlternatives_eq, proper, List.length_map]
  rcases of_union_cases style ms with ⟨d, alone, _⟩ | ⟨same, _⟩
  · rw [alone] at lengths
    simp at lengths
    omega
  · rw [same] at nullable
    simp [Descriptor.nullable, lengths] at nullable

theorem Schema.checker_null (s : Schema) (instantiate : Class → List (Value × Value) → Constructed Value)
    (strict : Bool) {t : TypeExpr} (plural : t.Plural) (nullable : (Descriptor.of t).nullable = true) :
    s.checker instantiate strict t .null = .ok .null := by
  match t with
  | .marked t _ => exact Schema.checker_null s instantiate strict (t := t) plural nullable
  | .union style ms =>
    have null := Descriptor.null_of_nullable plural nullable
    simp [checker, Value.isNull, null]
  | .cls _ | .generic .. | .aliased .. | .literal _ | .variable .. | .unresolved _ => contradiction

end RowMapping
