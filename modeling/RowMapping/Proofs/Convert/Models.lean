import Mathlib.Data.List.Forall2
import Mathlib.Data.List.Nodup
import RowMapping.Proofs.Schema.Keywords
import RowMapping.Convert.Model

/-! Models from keywords. A model that is made holds one value for each of its fields: what was given under
a key that the field reads, as the type of the field takes it, or else the fallback of the field. -/
namespace RowMapping

namespace Constructed

theorem collect_ok {α : Type} {xs : List (Constructed α)} {as : List α} (collected : collect xs = .ok as) :
    List.Forall₂ (fun x a => x = .ok a) xs as := by
  induction xs generalizing as with
  | nil =>
    cases collected
    exact .nil
  | cons x xs ih =>
    cases x with
    | ok a =>
      rw [collect] at collected
      cases rest : collect xs with
      | error fault =>
        rw [rest] at collected
        contradiction
      | ok bs =>
        rw [rest] at collected
        cases collected
        exact .cons rfl (ih rest)
    | error fault =>
      cases fault with
      | rejected rs =>
        rw [collect] at collected
        split at collected <;> contradiction
      | bind | raised => contradiction

theorem collect_refused {α : Type} {xs ys : List (Constructed α)} {as : List α}
    (collected : collect (xs ++ ys) = .ok as) (refused : ∀ y ∈ ys, ∀ a, y ≠ .ok a) : ys = [] := by
  rw [List.eq_nil_iff_forall_not_mem]
  intro y member
  obtain ⟨i, bound, rfl⟩ := List.getElem_of_mem (List.mem_append_right xs member)
  obtain ⟨same, each⟩ := List.forall₂_iff_get.mp (collect_ok collected)
  exact refused _ member _ (each i bound (same ▸ bound))

theorem map_eq_ok {α β : Type} {f : α → β} {x : Constructed α} {b : β} (mapped : x.map f = .ok b) :
    ∃ a, x = .ok a ∧ f a = b := by
  cases x with
  | error fault => contradiction
  | ok a => exact ⟨a, rfl, Except.ok.inj mapped⟩

theorem under_ok {α : Type} {p : Place} {x : Constructed α} {a : α} :
    x.under p = .ok a ↔ x = .ok a := by
  cases x with
  | ok b => exact .rfl
  | error fault => cases fault <;> exact ⟨nofun, nofun⟩

theorem reject_ne_ok {α : Type} (r : Rejection) (a : α) : reject r ≠ .ok a := by
  cases r <;> nofun

end Constructed

open Constructed

namespace Schema

def entriesOf (ks : Keywords) : List (Value × Value) := ks.map fun k => (Value.text k.1, k.2)

theorem valueAt_entriesOf (ks : Keywords) (key : String) : valueAt? (entriesOf ks) key = ks.find? key := by
  have same : ((fun e : Value × Value => e.1.same (.text key)) ∘ fun k : String × Value => (Value.text k.1, k.2)) =
      fun k => decide (k.1 = key) := by
    funext k
    simp [Value.same, Value.sameAtom, Value.quantity?, Value.text?]
  unfold valueAt? entriesOf Keywords.find?
  rw [List.find?_map, Option.map_map, same]
  rfl

def takes (s : Schema) (settings : ModelSettings) (ks : Keywords) (f : FieldSpec) : Checker :=
  s.checker (validate (depthEntries (entriesOf ks)) s) (settings.strict = some true) f.type

def Holds (s : Schema) (settings : ModelSettings) (ks : Keywords) (f : FieldSpec) (x : Value) : Prop :=
  ((fieldKeys settings f).findSome? ks.find?).elim (f.fallback = some (.value x))
    fun v => s.takes settings ks f v = .ok x

/-- A model that is made holds in each of its fields what the field takes. -/
theorem validated_model {s : Schema} {c : Class} {fields : List FieldSpec} {settings : ModelSettings}
    (shape : c.shape = .model fields settings) {ks : Keywords} {v : Value}
    (made : s.validateKeywords c ks = .ok v) : ∃ values, v = .object c.name true values ∧
      List.Forall₂ (fun f e => e.1 = f.name ∧ s.Holds settings ks f e.2) fields values := by
  replace made : validate (depthEntries (entriesOf ks) + 1) s c (entriesOf ks) = .ok v := made
  rw [validate, shape] at made
  dsimp only [checkModel] at made
  obtain ⟨values, collected, rfl⟩ := map_eq_ok made
  -- Surplus keywords are only ever refused, so that there are none.
  have extras := collect_refused collected ?_
  · rw [extras, List.append_nil] at collected
    refine ⟨values, rfl, (List.forall₂_map_left_iff.mp (collect_ok collected)).imp fun f e taken => ?_⟩
    unfold Holds
    rw [← funext (valueAt_entriesOf ks)]
    cases found : (fieldKeys settings f).findSome? (valueAt? (entriesOf ks)) with
    | some u =>
      rw [found] at taken
      obtain ⟨x, took, rfl⟩ := map_eq_ok taken
      exact ⟨rfl, under_ok.mp took⟩
    | none =>
      rw [found] at taken
      cases fallback : f.fallback with
      | none =>
        rw [fallback] at taken
        replace taken : (reject .missing).under (.key ((fieldKeys settings f).headD f.name)) = .ok e := taken
        exact absurd (under_ok.mp taken) (reject_ne_ok _ _)
      | some d =>
        rw [fallback] at taken
        cases d with
        | failing r => contradiction
        | value u =>
          cases taken
          exact ⟨rfl, rfl⟩
  · intro x member a ok
    split at member
    · obtain ⟨k, _, rfl⟩ := List.mem_map.mp member
      exact reject_ne_ok _ _ (under_ok.mp ok)
    · exact absurd member List.not_mem_nil

end Schema

/-! ### Keywords of fields -/

/-- The keyword under which a field is given: its key, if that is not empty, or else its name. -/
def FieldSpec.keyword (f : FieldSpec) : String := (f.key.filter (!·.isEmpty)).getD f.name

/-- Every field reads its own keyword, and none reads that of another field. -/
def Keyed (settings : ModelSettings) (fields : List FieldSpec) : Prop :=
  ∀ f ∈ fields, ∀ g ∈ fields, f.keyword ∈ Schema.fieldKeys settings g ↔ f.name = g.name

instance (settings : ModelSettings) (fields : List FieldSpec) : Decidable (Keyed settings fields) :=
  inferInstanceAs (Decidable (∀ f ∈ fields, ∀ g ∈ fields, f.keyword ∈ Schema.fieldKeys settings g ↔ f.name = g.name))

theorem findSome_single {α β : Type} {find : α → Option β} {as : List α} {a : α} (member : a ∈ as)
    (only : ∀ b ∈ as, b ≠ a → find b = none) : as.findSome? find = find a := by
  cases found : as.findSome? find with
  | none => exact (List.findSome?_eq_none_iff.mp found a member).symm
  | some v =>
    obtain ⟨b, inside, hit⟩ := List.exists_of_findSome?_eq_some found
    by_cases same : b = a
    · rw [← same, hit]
    · rw [only b inside same] at hit
      contradiction

section Fields

variable {settings : ModelSettings} {fields : List FieldSpec} (distinct : (fields.map (·.name)).Nodup)
include distinct

theorem field_unique {f g : FieldSpec} (member : f ∈ fields) (member' : g ∈ fields)
    (same : f.name = g.name) : f = g := List.inj_on_of_nodup_map distinct member member' same

theorem Keyed.injective (keyed : Keyed settings fields) {f g : FieldSpec} (member : f ∈ fields)
    (member' : g ∈ fields) (same : f.keyword = g.keyword) : f = g := by
  have own : g.keyword ∈ Schema.fieldKeys settings g := (keyed g member' g member').mpr rfl
  exact field_unique distinct member member' ((keyed f member g member').mp (same ▸ own))

theorem Keyed.reads (keyed : Keyed settings fields) {ks : Keywords}
    (own : ∀ k v, ks.find? k = some v → ∃ g ∈ fields, g.keyword = k) {f : FieldSpec} (member : f ∈ fields) :
    (Schema.fieldKeys settings f).findSome? ks.find? = ks.find? f.keyword := by
  refine findSome_single ((keyed f member f member).mpr rfl) fun k inside other => ?_
  cases found : ks.find? k with
  | none => rfl
  | some v =>
    obtain ⟨g, member', rfl⟩ := own k v found
    have same := field_unique distinct member' member ((keyed g member' f member).mp inside)
    exact absurd (same ▸ rfl) other

end Fields
end RowMapping
