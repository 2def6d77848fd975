import RowMapping.Proofs.Registry.Lookup
import RowMapping.Proofs.Types.Cores

/-! For which types mappers are served. Look-ups go by descriptors, so a mapper that is kept or registered for one type
is served for another only where the descriptors are equal, null aside. That makes them one type, unless they differ
in what descriptors do not keep. -/
namespace RowMapping

open TypeExpr (sameType_iff_details sameType_orNull_iff_details wellBuilt_unite)

/-- A mapper that is kept or registered for the first type is not served for the second, null admitted or not. -/
structure Unserved (a b : TypeExpr) : Prop where
  kept : ∀ {Factory Mapper : Type} (chain : Chain Factory Mapper) (m : Mapper),
    (chain.store (.of a) m).cached? (.of b) = chain.cached? (.of b)
  keptBoxed : ∀ {Factory Mapper : Type} (chain : Chain Factory Mapper) (m : Mapper),
    (chain.store (Descriptor.of a).boxed m).cached? (Descriptor.of b).boxed =
      chain.cached? (Descriptor.of b).boxed
  column : ∀ h c key element m, key.boxed = (Descriptor.of b).boxed →
    Registry.askColumn h c key element (.fixed (Descriptor.of a).boxed m) = pure none
  row : ∀ h c key m, key.boxed = (Descriptor.of b).boxed →
    Registry.askRow h c key (.fixed (Descriptor.of a).boxed m) = pure none

theorem unserved_of_boxed {a b : TypeExpr} (other : (Descriptor.of a).boxed.same (Descriptor.of b).boxed = false) :
    Unserved a b := by
  have apart : (Descriptor.of a).same (.of b) = false := by
    refine Bool.eq_false_iff.mpr fun same => ?_
    rw [Descriptor.same_boxed same] at other
    contradiction
  have refused : (Descriptor.of b).boxed.same (Descriptor.of a).boxed = false := by
    refine Bool.eq_false_iff.mpr fun same => ?_
    rw [Descriptor.same_symm same] at other
    contradiction
  refine ⟨fun chain m => chain.cached_store_other m apart, fun chain m => chain.cached_store_other m other, ?_, ?_⟩
  · intro h c key element m asked
    simp only [Registry.askColumn, asked, refused, Bool.false_eq_true, if_false]
  · intro h c key m asked
    simp only [Registry.askRow, asked, refused, Bool.false_eq_true, if_false]

/-- Types of equal descriptors are one type, up to marks, the spelling of unions and typing names, if and only if they
agree in what descriptors do not keep. So where they agree in it, no mapper that is kept for a type is found for
another one, and none that is registered for a type is served for one that is another with null admitted as well. -/
theorem descriptors_tell_types {a b : TypeExpr} (ha : a.WellBuilt) (hb : b.WellBuilt) :
    ((Descriptor.of a).same (.of b) = true → (a.SameType b ↔ a.details.same b.details = true)) ∧
    (a.details.same b.details = true →
      (¬ a.SameType b → ∀ {Factory Mapper : Type} (chain : Chain Factory Mapper) (m : Mapper),
        (chain.store (.of a) m).cached? (.of b) = chain.cached? (.of b)) ∧
      (¬ a.orNull.SameType b.orNull → Unserved a b)) := by
  refine ⟨sameType_iff_details ha hb, fun agree => ⟨fun other _ _ chain m => ?_, fun other => ?_⟩⟩
  · refine chain.cached_store_other m (Bool.eq_false_iff.mpr fun same => ?_)
    exact other ((sameType_iff_details ha hb same).mpr agree)
  · refine unserved_of_boxed (Bool.eq_false_iff.mpr fun same => ?_)
    exact other ((sameType_orNull_iff_details ha hb same).mpr agree)

def listType (b : Builtin) : TypeExpr := .generic .list [.cls (.builtin b)] false

def numbers (variadic : Bool) : TypeExpr := .generic .tuple [.cls (.builtin .int)] variadic

theorem listType_wellBuilt (b : Builtin) : (listType b).WellBuilt := by
  refine .generic fun t member => ?_
  rw [List.mem_singleton.mp member]
  exact .cls _

/-- Lists of numbers or null are one type in two spellings, and mappers for lists of numbers do not serve lists of
texts. -/
theorem descriptors_tell_types_lists :
    (TypeExpr.marked (listType .int).optional [.propagateNull]).SameType
      (TypeExpr.none.bar (.aliased .list [.cls (.builtin .int)])) ∧
    Unserved (listType .int) (listType .text) := by
  have optional : (TypeExpr.marked (listType .int).optional [.propagateNull]).WellBuilt := by
    refine .marked (wellBuilt_unite _ fun t member => ?_)
    rcases List.mem_pair.mp member with rfl | rfl
    · exact listType_wellBuilt _
    · exact .cls _
  have named : (TypeExpr.none.bar (.aliased .list [.cls (.builtin .int)])).WellBuilt := by
    refine wellBuilt_unite _ fun t member => ?_
    rcases List.mem_pair.mp member with rfl | rfl
    · exact .cls _
    · refine .aliased fun t member => ?_
      rw [List.mem_singleton.mp member]
      exact .cls _
  constructor
  · exact ((descriptors_tell_types optional named).1 (by decide +kernel)).mpr (by decide +kernel)
  · obtain ⟨_, apart⟩ := descriptors_tell_types (listType_wellBuilt .int) (listType_wellBuilt .text)
    exact (apart (by decide +kernel)).2 (by decide +kernel)

/-- Three pairs of types with equal descriptors are not one type: tuples of one number and of any number of numbers,
of which the first is served what is registered for the second; the literals one and true; tuples and empty tuples. -/
theorem unlike_types_confused :
    (Descriptor.of (numbers false)).same (.of (numbers true)) = true ∧ ¬ (numbers false).SameType (numbers true) ∧
    (∀ h c element m, Registry.askColumn h c (.of (numbers false)) element
      (.fixed (Descriptor.of (numbers true)).boxed m) = pure (some m)) ∧
    (Descriptor.of (.literal [.int 1])).same (.of (.literal [.bool true])) = true ∧
    ¬ (TypeExpr.literal [.int 1]).SameType (.literal [.bool true]) ∧
    (Descriptor.of (.cls (.builtin .tuple))).same (.of (.generic .tuple [] false)) = true ∧
    ¬ (TypeExpr.cls (.builtin .tuple)).SameType (.generic .tuple [] false) := by
  have boxed : (Descriptor.of (numbers false)).boxed.same (Descriptor.of (numbers true)).boxed = true := by
    decide +kernel
  refine ⟨by decide +kernel, by decide +kernel, fun h c element m => ?_, by decide +kernel, by decide +kernel,
    by decide +kernel, by decide +kernel⟩
  simp only [Registry.askColumn, boxed, if_true]

end RowMapping
