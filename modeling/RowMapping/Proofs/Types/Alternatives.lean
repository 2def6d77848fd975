import RowMapping.Proofs.Types.Nullable

/-! Types by their alternatives. Written as the union of its alternatives, at every depth, a type shows neither marks
nor how its unions are spelled, nested and ordered, nor which of its two names a generic class goes by. Two types are
one if they are the same so written. Beside it stands what a descriptor does not keep of the type that it is made of. -/
namespace RowMapping

theorem forall₂_congr_of {α β : Type} {P Q R : α → β → Prop} {xs : List α} {ys : List β}
    (related : List.Forall₂ R xs ys) (each : ∀ x ∈ xs, ∀ y ∈ ys, R x y → (P x y ↔ Q x y)) :
    List.Forall₂ P xs ys ↔ List.Forall₂ Q xs ys := by
  induction related with
  | nil => exact ⟨fun _ => .nil, fun _ => .nil⟩
  | cons first _ ih =>
    rw [List.forall₂_cons, List.forall₂_cons, each _ List.mem_cons_self _ List.mem_cons_self first]
    refine and_congr_right fun _ => ih fun x hx y hy => ?_
    exact each x (List.mem_cons_of_mem _ hx) y (List.mem_cons_of_mem _ hy)

theorem covers_one {α : Type} {R : α → α → Prop} {x y : α} : Covers R [x] [y] ↔ R x y := by
  constructor
  · intro covers
    obtain ⟨z, member, related⟩ := covers.1 x (List.mem_singleton_self x)
    rwa [List.mem_singleton.mp member] at related
  · intro related
    constructor
    · intro z member
      exact ⟨y, List.mem_singleton_self y, List.mem_singleton.mp member ▸ related⟩
    · intro z member
      exact ⟨x, List.mem_singleton_self x, List.mem_singleton.mp member ▸ related⟩

theorem Descriptor.args_boxed (d : Descriptor) : d.boxed.args = d.args := by
  cases d
  rfl

theorem Descriptor.ofAll_eq (ts : List TypeExpr) : ofAll ts = ts.map of := by
  induction ts with
  | nil => rfl
  | cons t ts ih => rw [ofAll, ih, List.map_cons]

namespace TypeExpr

mutual

/-- The alternatives of a type, through marks and through unions in unions. Generic classes stand under their own
names, and their arguments as unions of alternatives. -/
def branches : TypeExpr → List TypeExpr
  | .union _ ms => branchesAll ms
  | .marked t _ => branches t
  | .generic o ts v => [.generic o (spreadAll ts) v]
  | .aliased o ts => if ts.isEmpty then [.cls (.builtin o)] else [.generic o (spreadAll ts) false]
  | t => [t]

def branchesAll : List TypeExpr → List TypeExpr
  | [] => []
  | t :: ts => branches t ++ branchesAll ts

def spreadAll : List TypeExpr → List TypeExpr
  | [] => []
  | t :: ts => .union .bar (branches t) :: spreadAll ts

end

def spread (t : TypeExpr) : TypeExpr := .union .bar t.branches

/-- Both are one type, up to marks, the spelling of unions and the typing names of generic classes. -/
def SameType (a b : TypeExpr) : Prop := a.spread.same b.spread = true

instance (a b : TypeExpr) : Decidable (a.SameType b) := inferInstanceAs (Decidable (_ = true))

def orNull (t : TypeExpr) : TypeExpr := .union .bar [t, none]

/-- Every union in the type has at least two alternatives, none of them twice and none a union. -/
inductive WellBuilt : TypeExpr → Prop
  | cls (c : ClassRef) : WellBuilt (.cls c)
  | union {style : UnionStyle} {ms : List TypeExpr} :
    (TypeExpr.union style ms).Flat → (∀ m ∈ ms, WellBuilt m) → WellBuilt (.union style ms)
  | generic {o : Builtin} {ts : List TypeExpr} {v : Bool} : (∀ t ∈ ts, WellBuilt t) → WellBuilt (.generic o ts v)
  | aliased {o : Builtin} {ts : List TypeExpr} : (∀ t ∈ ts, WellBuilt t) → WellBuilt (.aliased o ts)
  | literal (vs : List Value) : WellBuilt (.literal vs)
  | marked {t : TypeExpr} {ms : List Mark} : WellBuilt t → WellBuilt (.marked t ms)
  | variable (name : String) (serial : Nat) : WellBuilt (.variable name serial)
  | unresolved (name : String) : WellBuilt (.unresolved name)

theorem WellBuilt.flat {t : TypeExpr} (built : t.WellBuilt) : t.Flat := by
  cases built with
  | union flat _ => exact flat
  | _ => trivial

theorem WellBuilt.alternatives {t : TypeExpr} (built : t.WellBuilt) : ∀ m ∈ t.alternatives, m.WellBuilt := by
  cases built with
  | union _ each => exact each
  | _ =>
    intro m member
    rw [List.mem_singleton.mp member]
    constructor <;> assumption

theorem wellBuilt_unite (style : UnionStyle) {ts : List TypeExpr} (built : ∀ t ∈ ts, t.WellBuilt) :
    (unite style ts).WellBuilt := by
  have each : ∀ m ∈ distinct (ts.flatMap alternatives), m.WellBuilt := by
    intro m member
    obtain ⟨t, given, own⟩ := List.mem_flatMap.mp (distinct_subset _ m member)
    exact (built t given).alternatives m own
  have flat := flat_unite style fun t given => (built t given).flat
  unfold unite at flat ⊢
  cases united : distinct (ts.flatMap alternatives) with
  | nil => exact .cls _
  | cons m ms =>
    rw [united] at each flat
    cases ms with
    | nil => exact each m List.mem_cons_self
    | cons n ns => exact .union flat each

end TypeExpr

/-- What a descriptor does not keep of a type that it is made of: whether brackets follow a class and whether an
ellipsis ends them, and of which classes the values of a literal type are. -/
inductive Unkept where
  | bare
  | brackets (variadic : Bool)
  | literal (values : List Value)
  | nothing

namespace Unkept

def same : Unkept → Unkept → Bool
  | .bare, .bare => true
  | .brackets v, .brackets w => v = w
  | .literal vs, .literal ws => TypeExpr.sameLiterals vs ws
  | .nothing, .nothing => true
  | _, _ => false

end Unkept

inductive Details where
  | mk (own : Unkept) (args : List Details)

namespace Details

mutual

def same : Details → Details → Bool
  | .mk a xs, .mk b ys => a.same b && sameAll xs ys

def sameAll : List Details → List Details → Bool
  | [], [] => true
  | x :: xs, y :: ys => same x y && sameAll xs ys
  | _, _ => false

end

theorem sameAll_iff {xs ys : List Details} :
    sameAll xs ys = true ↔ List.Forall₂ (fun x y => x.same y = true) xs ys := by
  induction xs generalizing ys with
  | nil => cases ys <;> simp [sameAll]
  | cons x xs ih => cases ys <;> simp [sameAll, ih]

theorem same_iff {a b : Unkept} {xs ys : List Details} : (mk a xs).same (mk b ys) = true ↔
    a.same b = true ∧ List.Forall₂ (fun x y => x.same y = true) xs ys := by
  rw [same, Bool.and_eq_true, sameAll_iff]

end Details

namespace TypeExpr

mutual

/-- What descriptors do not keep of a type. A union of several types they keep as it is written. -/
def details : TypeExpr → Details
  | .cls _ => .mk .bare []
  | .union _ ms =>
    match detailsOfAlternatives ms with
    | [d] => d
    | _ => .mk .nothing []
  | .generic _ ts v => .mk (.brackets v) (detailsAll ts)
  | .aliased _ ts => .mk (if ts.isEmpty then .bare else .brackets false) (detailsAll ts)
  | .literal vs => .mk (.literal vs) []
  | .marked t _ => details t
  | .variable _ _ => .mk .nothing []
  | .unresolved _ => .mk .nothing []

def detailsAll : List TypeExpr → List Details
  | [] => []
  | t :: ts => details t :: detailsAll ts

def detailsOfAlternatives : List TypeExpr → List Details
  | [] => []
  | t :: ts => if t.isNone then detailsOfAlternatives ts else details t :: detailsOfAlternatives ts

end

theorem branchesAll_eq (ts : List TypeExpr) : branchesAll ts = ts.flatMap branches := by
  induction ts with
  | nil => rfl
  | cons t ts ih => rw [branchesAll, ih, List.flatMap_cons]

theorem spreadAll_eq (ts : List TypeExpr) : spreadAll ts = ts.map spread := by
  induction ts with
  | nil => rfl
  | cons t ts ih => rw [spreadAll, ih, List.map_cons, spread]

theorem detailsAll_eq (ts : List TypeExpr) : detailsAll ts = ts.map details := by
  induction ts with
  | nil => rfl
  | cons t ts ih => rw [detailsAll, ih, List.map_cons]

theorem detailsOfAlternatives_eq (ts : List TypeExpr) :
    detailsOfAlternatives ts = (ts.filter (!·.isNone)).map details := by
  induction ts with
  | nil => rfl
  | cons t ts ih =>
    rw [detailsOfAlternatives, List.filter_cons, ih]
    cases t.isNone <;> rfl

theorem sameType_iff {a b : TypeExpr} :
    a.SameType b ↔ Covers (fun x y => x.same y = true) a.branches b.branches := by
  rw [SameType, spread, spread, same_union]
  constructor
  · rintro ⟨_, _, ⟨⟩, covers⟩
    exact covers
  · intro covers
    exact ⟨_, _, rfl, covers⟩

theorem sameType_of_one {a b x y : TypeExpr} (ha : a.branches = [x]) (hb : b.branches = [y]) :
    a.SameType b ↔ x.same y = true := by
  rw [sameType_iff, ha, hb, covers_one]

theorem forall₂_spread {ts us : List TypeExpr} :
    List.Forall₂ (fun x y => x.same y = true) (spreadAll ts) (spreadAll us) ↔ List.Forall₂ SameType ts us := by
  rw [spreadAll_eq, spreadAll_eq, List.forall₂_map_left_iff, List.forall₂_map_right_iff]
  rfl

theorem sameType_of_same {a b : TypeExpr} (same : a.same b = true) : a.SameType b := by
  induction a using induct_members generalizing b with
  | step a ih =>
  cases a
  case cls c =>
    obtain rfl := same_cls.mp same
    exact (sameType_of_one rfl rfl).mpr (same_cls.mpr rfl)
  case «variable» n s =>
    obtain ⟨m, rfl⟩ := same_variable.mp same
    exact (sameType_of_one rfl rfl).mpr same
  case unresolved n =>
    obtain rfl := same_unresolved.mp same
    exact (sameType_of_one rfl rfl).mpr same
  case literal vs =>
    obtain ⟨ws, rfl, _⟩ := same_literal.mp same
    exact (sameType_of_one rfl rfl).mpr same
  case union style ms =>
    obtain ⟨other, ns, rfl, covers⟩ := same_union.mp same
    -- Each alternative has its like in the other union, and so has each branch of it.
    rw [sameType_iff, branches, branches, branchesAll_eq, branchesAll_eq]
    constructor
    · intro x member
      obtain ⟨m, given, own⟩ := List.mem_flatMap.mp member
      obtain ⟨n, other, same⟩ := covers.1 m given
      obtain ⟨y, there, alike⟩ := (sameType_iff.mp (ih m given same)).1 x own
      exact ⟨y, List.mem_flatMap.mpr ⟨n, other, there⟩, alike⟩
    · intro y member
      obtain ⟨n, given, own⟩ := List.mem_flatMap.mp member
      obtain ⟨m, other, same⟩ := covers.2 n given
      obtain ⟨x, there, alike⟩ := (sameType_iff.mp (ih m other same)).2 y own
      exact ⟨x, List.mem_flatMap.mpr ⟨m, other, there⟩, alike⟩
  case generic o ts v =>
    obtain ⟨us, rfl, each⟩ := same_generic.mp same
    have args := (forall₂_congr_of each fun t member _ _ same => iff_of_true same (ih t member same)).mp each
    exact (sameType_of_one rfl rfl).mpr (same_generic.mpr ⟨_, rfl, forall₂_spread.mpr args⟩)
  case aliased o ts =>
    obtain ⟨us, rfl, each⟩ := same_aliased.mp same
    have args := (forall₂_congr_of each fun t member _ _ same => iff_of_true same (ih t member same)).mp each
    cases each with
    | nil => exact (sameType_of_one rfl rfl).mpr (same_cls.mpr rfl)
    | cons => exact (sameType_of_one rfl rfl).mpr (same_generic.mpr ⟨_, rfl, forall₂_spread.mpr args⟩)
  case marked t ms =>
    obtain ⟨u, rfl, base⟩ := same_marked.mp same
    exact show t.SameType u from ih t (List.mem_singleton_self t) base

end TypeExpr
end RowMapping
