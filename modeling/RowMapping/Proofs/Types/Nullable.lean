import Mathlib.Data.List.Induction
import RowMapping.Proofs.Types.Sameness

/-! Types and their nullable forms. The descriptor of a type that admits null as well is the boxed descriptor of the
type, unless the type is a union of which no alternative is null: the descriptor of such a union holds the union as
it is written. -/
namespace RowMapping

namespace TypeExpr

/-! ### Unions as they are built -/

def isUnion : TypeExpr → Bool
  | .union .. => true
  | _ => false

/-- A union has at least two alternatives, none of them twice and none a union. -/
def Flat : TypeExpr → Prop
  | .union _ ms => 2 ≤ ms.length ∧ ms.Pairwise (fun a b => a.same b = false) ∧ ∀ m ∈ ms, m.isUnion = false
  | _ => True

/-- A union without null among its alternatives. -/
def isSolid : TypeExpr → Bool
  | .union _ ms => ms.all fun m => !m.isNone
  | _ => false

/-- A type, written so that it admits null. -/
def Admitting (t n : TypeExpr) : Prop := n = t.optional ∨ n = t.bar none

theorem same_none (t : TypeExpr) : t.same none = t.isNone := by
  rw [Bool.eq_iff_iff]
  constructor
  · intro same
    rw [same_cls.mp (same_symm same)]
    rfl
  · intro null
    cases t with
    | cls c =>
      cases c with
      | builtin b =>
        cases b with
        | none => exact same_cls.mpr rfl
        | _ => contradiction
      | declared => contradiction
    | _ => contradiction

theorem distinct_concat (ts : List TypeExpr) (t : TypeExpr) :
    distinct (ts ++ [t]) = if (distinct ts).any (·.same t) then distinct ts else distinct ts ++ [t] := by
  rw [distinct, List.foldl_append]
  rfl

theorem distinct_pairwise (ts : List TypeExpr) : (distinct ts).Pairwise fun a b => a.same b = false := by
  -- On the types seen so far, so that the one just added is the last of them.
  induction ts using List.reverseRecOn with
  | nil => exact .nil
  | append_singleton ts t ih =>
    rw [distinct_concat]
    split
    · exact ih
    · next new =>
      refine List.pairwise_append.mpr ⟨ih, List.pairwise_singleton _ _, fun a member b last => ?_⟩
      rw [List.mem_singleton.mp last]
      rw [List.any_eq_true, not_exists] at new
      exact Bool.eq_false_iff.mpr fun same => new a ⟨member, same⟩

theorem distinct_subset (ts : List TypeExpr) : ∀ t ∈ distinct ts, t ∈ ts := by
  induction ts using List.reverseRecOn with
  | nil => exact fun _ member => member
  | append_singleton ts t ih =>
    intro a member
    rw [distinct_concat] at member
    split at member
    · exact List.mem_append_left _ (ih a member)
    · rcases List.mem_append.mp member with old | last
      · exact List.mem_append_left _ (ih a old)
      · exact List.mem_append_right _ last

theorem distinct_of_pairwise {ts : List TypeExpr} (apart : ts.Pairwise fun a b => a.same b = false) :
    distinct ts = ts := by
  induction ts using List.reverseRecOn with
  | nil => rfl
  | append_singleton ts t ih =>
    obtain ⟨before, _, last⟩ := List.pairwise_append.mp apart
    rw [distinct_concat, ih before, if_neg]
    rw [List.any_eq_true]
    rintro ⟨a, member, same⟩
    rw [last a member t (List.mem_singleton_self t)] at same
    contradiction

theorem Flat.alternatives_pairwise {t : TypeExpr} (flat : t.Flat) :
    t.alternatives.Pairwise fun a b => a.same b = false := by
  cases t with
  | union style ms => exact flat.2.1
  | _ => exact List.pairwise_singleton _ _

theorem Flat.alternatives_plain {t : TypeExpr} (flat : t.Flat) : ∀ m ∈ t.alternatives, m.isUnion = false := by
  cases t with
  | union style ms => exact flat.2.2
  | _ =>
    intro m member
    rw [List.mem_singleton.mp member]
    rfl

theorem flat_of_not_union {t : TypeExpr} (plain : t.isUnion = false) : t.Flat := by
  cases t with
  | union => contradiction
  | _ => trivial

theorem flat_unite (style : UnionStyle) {ts : List TypeExpr} (flat : ∀ t ∈ ts, t.Flat) : (unite style ts).Flat := by
  have plain : ∀ m ∈ distinct (ts.flatMap alternatives), m.isUnion = false := by
    intro m member
    obtain ⟨t, given, own⟩ := List.mem_flatMap.mp (distinct_subset _ m member)
    exact (flat t given).alternatives_plain m own
  have apart := distinct_pairwise (ts.flatMap alternatives)
  unfold unite
  cases united : distinct (ts.flatMap alternatives) with
  | nil => trivial
  | cons m ms =>
    rw [united] at plain apart
    cases ms with
    | nil => exact flat_of_not_union (plain m List.mem_cons_self)
    | cons n ns => exact ⟨by simp, apart, plain⟩

theorem unite_none {t : TypeExpr} (flat : t.Flat) (proper : t.isNone = false) (style : UnionStyle) :
    unite style [t, none] =
      .union style (if t.alternatives.any isNone then t.alternatives else t.alternatives ++ [none]) := by
  have listed : [t, none].flatMap alternatives = t.alternatives ++ [none] := rfl
  have nulls : (fun m : TypeExpr => m.same none) = isNone := funext same_none
  rw [unite, listed, distinct_concat, distinct_of_pairwise flat.alternatives_pairwise, nulls]
  cases t with
  | union own ms =>
    obtain ⟨two, _, _⟩ := flat
    match ms, two with
    | m :: n :: ms, _ =>
      rw [alternatives]
      cases (m :: n :: ms).any isNone with
      | true => rfl
      | false => rfl
  | _ =>
    simp only [alternatives, List.any_cons, List.any_nil, proper]
    rfl

section Solid

variable {own : UnionStyle} {ms : List TypeExpr}

theorem solid_proper (solid : (union own ms).isSolid = true) : ∀ m ∈ ms, (!m.isNone) = true :=
  List.all_eq_true.mp solid

theorem unite_none_solid (flat : (union own ms).Flat) (solid : (union own ms).isSolid = true) (style : UnionStyle) :
    unite style [union own ms, none] = .union style (ms ++ [none]) := by
  have missing : ms.any isNone = false := by
    simpa using solid_proper solid
  rw [unite_none flat rfl, alternatives, missing]
  rfl

end Solid

end TypeExpr

/-! ### Descriptors -/

/-- The same raw type, or unions of the same alternatives in two spellings. -/
def RawType.Respelled (r s : RawType) : Prop :=
  r = s ∨ ∃ style other ms, r = .union style ms ∧ s = .union other ms

structure Descriptor.Respelled (d e : Descriptor) : Prop where
  raw : d.raw.Respelled e.raw
  args : d.args = e.args
  nullable : d.nullable = e.nullable

namespace RawType.Respelled

variable {r s : RawType} (respelled : r.Respelled s)
include respelled

theorem same_left (t : RawType) : r.same t = s.same t := by
  obtain rfl | ⟨style, other, ms, rfl, rfl⟩ := respelled
  · rfl
  · cases t <;> simp only [same, TypeExpr.same]

theorem same_right (t : RawType) : t.same r = t.same s := by
  obtain rfl | ⟨style, other, ms, rfl, rfl⟩ := respelled
  · rfl
  · cases t <;> simp only [same, TypeExpr.same]

end RawType.Respelled

namespace Descriptor

namespace Respelled

protected theorem refl (d : Descriptor) : d.Respelled d := ⟨.inl rfl, rfl, rfl⟩

variable {d e : Descriptor} (respelled : d.Respelled e)
include respelled

theorem symm : e.Respelled d := by
  refine ⟨?_, respelled.args.symm, respelled.nullable.symm⟩
  obtain same | ⟨style, other, ms, first, second⟩ := respelled.raw
  · exact .inl same.symm
  · exact .inr ⟨other, style, ms, second, first⟩

theorem same_left (k : Descriptor) : d.same k = e.same k := by
  rw [Bool.eq_iff_iff, same_iff, same_iff, respelled.raw.same_left, respelled.args, respelled.nullable]

theorem same_right (k : Descriptor) : k.same d = k.same e := by
  rw [Bool.eq_iff_iff, same_iff, same_iff, respelled.raw.same_right, respelled.args, respelled.nullable]

end Respelled

@[simp] theorem boxed_boxed (d : Descriptor) : d.boxed.boxed = d.boxed := by
  cases d
  rfl

theorem ofAlternatives_eq (ts : List TypeExpr) : ofAlternatives ts = (ts.filter (!·.isNone)).map of := by
  induction ts with
  | nil => rfl
  | cons t ts ih =>
    rw [ofAlternatives, List.filter_cons, ih]
    cases t.isNone <;> rfl

/-- The raw type of a union is its one alternative that is not null, or else the union as it is written. -/
theorem of_union_cases (style : UnionStyle) (ms : List TypeExpr) :
    (∃ d, ofAlternatives ms = [d] ∧ of (.union style ms) = d.boxed) ∨
      of (.union style ms) = .mk (.union style ms) [] ((ofAlternatives ms).length < ms.length) ∧
        (ofAlternatives ms).length ≠ 1 := by
  unfold of
  split
  · next d alone => exact .inl ⟨d, alone, rfl⟩
  · next more =>
    refine .inr ⟨rfl, fun one => ?_⟩
    obtain ⟨d, alone⟩ := List.length_eq_one_iff.mp one
    exact more d alone

theorem ofAlternatives_length_lt {ms : List TypeExpr} (null : ms.any TypeExpr.isNone = true) :
    (ofAlternatives ms).length < ms.length := by
  obtain ⟨m, member, own⟩ := List.any_eq_true.mp null
  rw [ofAlternatives_eq, List.length_map]
  refine List.length_filter_lt_length_iff_exists.mpr ⟨m, member, ?_⟩
  simp [own]

theorem of_union_respelled {ms : List TypeExpr} (null : ms.any TypeExpr.isNone = true) (style other : UnionStyle) :
    (of (.union style ms)).Respelled (of (.union other ms)).boxed := by
  have fewer := ofAlternatives_length_lt null
  rcases of_union_cases style ms with ⟨d, alone, first⟩ | ⟨first, more⟩ <;>
    rcases of_union_cases other ms with ⟨e, alone', second⟩ | ⟨second, more'⟩
  · cases alone.symm.trans alone'
    rw [first, second, boxed_boxed]
    exact .refl _
  · rw [alone] at more'
    contradiction
  · rw [alone'] at more
    contradiction
  · rw [first, second]
    exact ⟨.inr ⟨style, other, ms, rfl, rfl⟩, rfl, decide_eq_true fewer⟩

variable {t n : TypeExpr}

theorem of_pair (proper : t.isNone = false) (style : UnionStyle) : of (.union style [t, .none]) = (of t).boxed := by
  have null : TypeExpr.none.isNone = true := rfl
  have alone : ofAlternatives [t, .none] = [of t] := by
    simp only [ofAlternatives_eq, List.filter_cons, List.filter_nil, proper, null]
    rfl
  rcases of_union_cases style [t, .none] with ⟨d, one, raw⟩ | ⟨_, more⟩
  · cases alone.symm.trans one
    exact raw
  · rw [alone] at more
    contradiction

theorem of_unite_none (flat : t.Flat) (proper : t.isNone = false) (hollow : t.isSolid = false) (style : UnionStyle) :
    (of (TypeExpr.unite style [t, .none])).Respelled (of t).boxed := by
  rw [TypeExpr.unite_none flat proper]
  cases t with
  | union own ms =>
    have null : ms.any TypeExpr.isNone = true := by
      simpa [TypeExpr.isSolid] using hollow
    rw [TypeExpr.alternatives, if_pos null]
    exact of_union_respelled null style own
  | _ =>
    simp only [TypeExpr.alternatives, List.any_cons, List.any_nil, proper]
    exact of_pair proper style ▸ .refl _

/-- The type admitting null has the boxed descriptor of the type. -/
theorem of_admitting (flat : t.Flat) (proper : t.isNone = false) (hollow : t.isSolid = false) (form : t.Admitting n) :
    (of n).Respelled (of t).boxed := by
  rcases form with rfl | rfl
  · exact of_unite_none flat proper hollow _
  · exact of_unite_none flat proper hollow _

theorem raw_of_union {ms : List TypeExpr} (many : 2 ≤ (ofAlternatives ms).length) (style : UnionStyle) :
    (of (.union style ms)).raw = .union style ms := by
  rcases of_union_cases style ms with ⟨d, alone, _⟩ | ⟨written, _⟩
  · rw [alone] at many
    contradiction
  · rw [written]
    rfl

theorem raw_of_solid {own : UnionStyle} {ms : List TypeExpr} (flat : (TypeExpr.union own ms).Flat)
    (solid : (TypeExpr.union own ms).isSolid = true) (style : UnionStyle) :
    (of (.union own ms)).raw = .union own ms ∧
      (of (.union style (ms ++ [.none]))).raw = .union style (ms ++ [.none]) := by
  have kept : ms.filter (!·.isNone) = ms := List.filter_eq_self.mpr (TypeExpr.solid_proper solid)
  constructor
  · refine raw_of_union ?_ own
    rw [ofAlternatives_eq, kept, List.length_map]
    exact flat.1
  · refine raw_of_union ?_ style
    rw [ofAlternatives_eq, List.filter_append, kept, List.length_map, List.length_append]
    exact Nat.le_add_right_of_le flat.1

theorem raw_boxed (d : Descriptor) : d.boxed.raw = d.raw := by
  cases d
  rfl

/-- A solid union is another key than the one that admits null, which has an alternative more. -/
theorem of_admitting_solid (flat : t.Flat) (solid : t.isSolid = true) (form : t.Admitting n) :
    (of n).same (of t).boxed = false ∧ ¬ (of n).Respelled (of t).boxed := by
  cases t with
  | union own ms =>
    obtain ⟨style, rfl⟩ : ∃ style, n = .union style (ms ++ [.none]) := by
      rcases form with rfl | rfl
      · exact ⟨_, TypeExpr.unite_none_solid flat solid _⟩
      · exact ⟨_, TypeExpr.unite_none_solid flat solid _⟩
    obtain ⟨written, extended⟩ := raw_of_solid flat solid style
    constructor
    · refine Bool.eq_false_iff.mpr fun same => ?_
      have raws := (same_iff.mp same).1
      rw [raw_boxed, written, extended] at raws
      obtain ⟨_, _, ⟨⟩, covers⟩ := TypeExpr.same_union.mp raws
      obtain ⟨m, member, null⟩ := covers.1 .none (by simp)
      have absent := TypeExpr.solid_proper solid m member
      rw [← TypeExpr.same_none, TypeExpr.same_symm null] at absent
      contradiction
    · rintro ⟨respelled, _, _⟩
      rw [raw_boxed, written, extended] at respelled
      rcases respelled with same | ⟨_, _, _, first, second⟩
      · simp at same
      · cases first
        simp at second
  | _ => contradiction

end Descriptor
end RowMapping
