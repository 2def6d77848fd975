import RowMapping.Types.Descriptor
import Mathlib.Data.List.Forall2
import Mathlib.Tactic.Ring

/-! Sameness of values, types and descriptors is symmetric and transitive. It is not reflexive: what
is not a number is not the same as itself. So look-ups by sameness agree on all that is the same. -/
namespace RowMapping

open Number Time

def Covers {α : Type} (R : α → α → Prop) (xs ys : List α) : Prop :=
  (∀ x ∈ xs, ∃ y ∈ ys, R x y) ∧ ∀ y ∈ ys, ∃ x ∈ xs, R x y

section Lists

variable {α : Type} {R : α → α → Prop} {xs ys zs : List α}

theorem Covers.symm (symm : ∀ x ∈ xs, ∀ y, R x y → R y x) (h : Covers R xs ys) :
    Covers R ys xs := by
  constructor
  · intro y hy
    obtain ⟨x, hx, hr⟩ := h.2 y hy
    exact ⟨x, hx, symm x hx y hr⟩
  · intro x hx
    obtain ⟨y, hy, hr⟩ := h.1 x hx
    exact ⟨y, hy, symm x hx y hr⟩

theorem Covers.trans (trans : ∀ x ∈ xs, ∀ y z, R x y → R y z → R x z) (h : Covers R xs ys)
    (k : Covers R ys zs) : Covers R xs zs := by
  constructor
  · intro x hx
    obtain ⟨y, hy, hr⟩ := h.1 x hx
    obtain ⟨z, hz, hs⟩ := k.1 y hy
    exact ⟨z, hz, trans x hx y z hr hs⟩
  · intro z hz
    obtain ⟨y, hy, hs⟩ := k.2 z hz
    obtain ⟨x, hx, hr⟩ := h.2 y hy
    exact ⟨x, hx, trans x hx y z hr hs⟩

theorem forall₂_symm (symm : ∀ x ∈ xs, ∀ y, R x y → R y x) (h : List.Forall₂ R xs ys) :
    List.Forall₂ R ys xs := by
  induction h with
  | nil => exact .nil
  | cons hr _ ih =>
    exact .cons (symm _ List.mem_cons_self _ hr) (ih fun x hx => symm x (List.mem_cons_of_mem _ hx))

theorem forall₂_trans (trans : ∀ x ∈ xs, ∀ y z, R x y → R y z → R x z) (h : List.Forall₂ R xs ys)
    (k : List.Forall₂ R ys zs) : List.Forall₂ R xs zs := by
  induction h generalizing zs with
  | nil => exact k
  | cons hr _ ih =>
    cases k with
    | cons hs k =>
      exact .cons (trans _ List.mem_cons_self _ _ hr hs)
        (ih (fun x hx => trans x (List.mem_cons_of_mem _ hx)) k)

end Lists

namespace Quantity

/-- Fractions over nothing are no numbers. -/
def Proper : Quantity → Prop
  | .ratio _ _ d => 0 < d
  | _ => True

theorem zero_of_cross {a b c d : Nat} (positive : 0 < b) (cross : a * d = c * b) (zero : a = 0) :
    c = 0 := by
  subst zero
  rcases Nat.mul_eq_zero.mp (cross.symm.trans (Nat.zero_mul d)) with h | h
  · exact h
  · omega

theorem same_symm {x y : Quantity} (properX : x.Proper) (h : x.same y = true) :
    y.same x = true := by
  cases x <;> cases y <;> simp_all [same, Proper]
  rename_i s a b t c d
  exact h.2.imp Eq.symm (zero_of_cross properX h.1)

theorem same_trans {x y z : Quantity} (properY : y.Proper) (h : x.same y = true)
    (k : y.same z = true) : x.same z = true := by
  cases x <;> cases y <;> cases z <;> simp_all [same, Proper]
  -- Fractions are compared crosswise, and the denominator in the middle cancels.
  rename_i s a b t c d u e f
  have cross : (a * f) * d = (e * b) * d := by
    calc (a * f) * d = (a * d) * f := by ring
      _ = (c * f) * b := by rw [h.1]; ring
      _ = (e * b) * d := by rw [k.1]; ring
  refine ⟨Nat.eq_of_mul_eq_mul_right properY cross, ?_⟩
  rcases h.2 with hs | hs
  · exact k.2.imp hs.trans (zero_of_cross properY h.1.symm)
  · exact Or.inr hs

theorem scaleTen_pos (n : Nat) (e : Int) : 0 < (scaleTen n 1 e).2 := by
  unfold scaleTen; split <;> simp

theorem scaleTwo_pos (n : Nat) (e : Int) : 0 < (scaleTwo n 1 e).2 := by
  unfold scaleTwo; split <;> simp

theorem ofBinary64_proper (x : Binary64) : (ofBinary64 x).Proper := by
  cases x <;> simp [ofBinary64, Proper, scaleTwo_pos]

theorem ofDecimal_proper (d : Decimal) : (ofDecimal d).Proper := by
  cases d <;> simp [ofDecimal, Proper, scaleTen_pos]

end Quantity

namespace Value

theorem quantity_proper {v : Value} {q : Quantity} (h : v.quantity? = some q) : q.Proper := by
  unfold quantity? at h
  split at h <;> simp at h <;> subst h
  · exact Nat.one_pos
  · exact Nat.one_pos
  · exact Quantity.ofBinary64_proper _
  · exact Quantity.ofDecimal_proper _
  · exact Nat.one_pos

theorem sameTime_symm {a b : TimeOfDay} (h : sameTime a b = true) : sameTime b a = true := by
  unfold sameTime at *
  grind

theorem sameTime_trans {a b c : TimeOfDay} (h : sameTime a b = true) (k : sameTime b c = true) :
    sameTime a c = true := by
  unfold sameTime at *
  grind

theorem sameMoment_symm {a b : DateTime} (h : sameMoment a b = true) : sameMoment b a = true := by
  unfold sameMoment at *
  grind

theorem sameMoment_trans {a b c : DateTime} (h : sameMoment a b = true)
    (k : sameMoment b c = true) : sameMoment a c = true := by
  unfold sameMoment at *
  grind

theorem samePlain_symm {a b : Value} (h : a.samePlain b = true) : b.samePlain a = true := by
  fun_cases samePlain a b <;> simp_all [samePlain]
  · exact sameTime_symm h
  · exact sameMoment_symm h

theorem samePlain_trans {a b c : Value} (h : a.samePlain b = true) (k : b.samePlain c = true) :
    a.samePlain c = true := by
  fun_cases samePlain a b <;> cases c <;> simp_all [samePlain]
  · exact sameTime_trans h k
  · exact sameMoment_trans h k

theorem sameAtom_symm {a b : Value} (h : a.sameAtom b = true) : b.sameAtom a = true := by
  unfold sameAtom at *
  cases qa : a.quantity? <;> cases qb : b.quantity? <;> simp only [qa, qb] at h ⊢
  · cases ta : a.text? <;> cases tb : b.text? <;> simp only [ta, tb] at h ⊢
    · cases ba : a.bytes? <;> cases bb : b.bytes? <;> simp only [ba, bb] at h ⊢
      · exact samePlain_symm h
      · exact absurd h (by simp)
      · exact absurd h (by simp)
      · grind
    · exact absurd h (by simp)
    · exact absurd h (by simp)
    · grind
  · exact absurd h (by simp)
  · exact absurd h (by simp)
  · exact Quantity.same_symm (quantity_proper qa) h

theorem sameAtom_trans {a b c : Value} (h : a.sameAtom b = true) (k : b.sameAtom c = true) :
    a.sameAtom c = true := by
  unfold sameAtom at *
  cases qa : a.quantity? <;> cases qb : b.quantity? <;> cases qc : c.quantity? <;>
    simp only [qa, qb, qc] at h k ⊢ <;> try contradiction
  · cases ta : a.text? <;> cases tb : b.text? <;> cases tc : c.text? <;>
      simp only [ta, tb, tc] at h k ⊢ <;> try contradiction
    · cases ba : a.bytes? <;> cases bb : b.bytes? <;> cases bc : c.bytes? <;>
        simp only [ba, bb, bc] at h k ⊢ <;> try contradiction
      · exact samePlain_trans h k
      · grind
    · grind
  · exact Quantity.same_trans (quantity_proper qb) h k

def isAtom : Value → Bool
  | .list _ | .tuple _ | .set _ | .frozenset _ | .dict _ | .object .. | .made .. => false
  | _ => true

theorem same_of_atom {a b : Value} (h : a.isAtom = true) : a.same b = a.sameAtom b := by
  cases a <;> simp_all [isAtom, same]

theorem quantity_of_container {v : Value} (h : v.isAtom = false) : v.quantity? = none := by
  cases v <;> simp_all [isAtom, quantity?]

theorem text_of_container {v : Value} (h : v.isAtom = false) : v.text? = none := by
  cases v <;> simp_all [isAtom, text?]

theorem bytes_of_container {v : Value} (h : v.isAtom = false) : v.bytes? = none := by
  cases v <;> simp_all [isAtom, bytes?]

theorem samePlain_container {a b : Value} (h : a.isAtom = false ∨ b.isAtom = false) :
    a.samePlain b = false := by
  fun_cases samePlain a b <;> simp_all [isAtom]

theorem sameAtom_container {a b : Value} (h : a.isAtom = false ∨ b.isAtom = false) :
    a.sameAtom b = false := by
  unfold sameAtom
  rw [samePlain_container h]
  rcases h with h | h
  · rw [quantity_of_container h, text_of_container h, bytes_of_container h]
    cases b.quantity? <;> cases b.text? <;> cases b.bytes? <;> rfl
  · rw [quantity_of_container h, text_of_container h, bytes_of_container h]
    cases a.quantity? <;> cases a.text? <;> cases a.bytes? <;> rfl

theorem atoms_of_sameAtom {a b : Value} (h : a.sameAtom b = true) :
    a.isAtom = true ∧ b.isAtom = true := by
  constructor
  · by_contra hn
    simp [sameAtom_container (.inl (Bool.eq_false_iff.mpr hn))] at h
  · by_contra hn
    simp [sameAtom_container (.inr (Bool.eq_false_iff.mpr hn))] at h

theorem sameAll_iff {xs ys : List Value} :
    sameAll xs ys = true ↔ List.Forall₂ (fun x y => x.same y = true) xs ys := by
  induction xs generalizing ys with
  | nil => cases ys <;> simp [sameAll]
  | cons x xs ih => cases ys <;> simp [sameAll, ih]

theorem sameFields_iff {xs ys : List (String × Value)} :
    sameFields xs ys = true ↔ List.Forall₂ (fun x y => x.1 = y.1 ∧ x.2.same y.2 = true) xs ys := by
  induction xs generalizing ys with
  | nil => cases ys <;> simp [sameFields]
  | cons x xs ih =>
    cases ys with
    | nil => simp [sameFields]
    | cons y ys => simp [sameFields.eq_def (x :: xs), ih]

theorem within_iff {xs ys : List Value} :
    within xs ys = true ↔ ∀ x ∈ xs, ∃ y ∈ ys, x.same y = true := by
  induction xs with
  | nil => simp [within]
  | cons x xs ih => simp [within, ih]

theorem found_iff {xs : List Value} {y : Value} :
    found xs y = true ↔ ∃ x ∈ xs, x.same y = true := by
  induction xs with
  | nil => simp [found]
  | cons x xs ih => simp [found, ih]

theorem entriesWithin_iff {xs ys : List (Value × Value)} :
    entriesWithin xs ys = true ↔ ∀ x ∈ xs, ∃ y ∈ ys, x.1.same y.1 = true ∧ x.2.same y.2 = true := by
  induction xs with
  | nil => simp [entriesWithin]
  | cons x xs ih =>
    obtain ⟨k, v⟩ := x
    simp only [entriesWithin, List.forall_mem_cons, Bool.and_eq_true, List.any_eq_true, ih]

theorem entryFound_iff {xs : List (Value × Value)} {y : Value × Value} :
    entryFound xs y = true ↔ ∃ x ∈ xs, x.1.same y.1 = true ∧ x.2.same y.2 = true := by
  induction xs with
  | nil => simp [entryFound]
  | cons x xs ih =>
    obtain ⟨k, v⟩ := x
    simp only [entryFound, List.exists_mem_cons_iff, Bool.or_eq_true, Bool.and_eq_true, ih]

def elements? : Value → Option (List Value)
  | .set xs | .frozenset xs => some xs
  | _ => none

theorem same_list {xs : List Value} {b : Value} :
    (list xs).same b = true ↔
      ∃ ys, b = .list ys ∧ List.Forall₂ (fun x y => x.same y = true) xs ys := by
  cases b <;> simp [same, sameAll_iff, sameAtom_container, isAtom]

theorem same_tuple {xs : List Value} {b : Value} :
    (tuple xs).same b = true ↔
      ∃ ys, b = .tuple ys ∧ List.Forall₂ (fun x y => x.same y = true) xs ys := by
  cases b <;> simp [same, sameAll_iff, sameAtom_container, isAtom]

theorem same_set {xs : List Value} {b : Value} :
    (set xs).same b = true ↔
      ∃ ys, b.elements? = some ys ∧ Covers (fun x y => x.same y = true) xs ys := by
  cases b with
  | set ys | frozenset ys => simp [same, within_iff, found_iff, Covers, elements?]
  | _ => simp [same, sameAtom_container, isAtom, elements?]

theorem same_frozenset {xs : List Value} {b : Value} :
    (frozenset xs).same b = true ↔
      ∃ ys, b.elements? = some ys ∧ Covers (fun x y => x.same y = true) xs ys := by
  cases b with
  | set ys | frozenset ys => simp [same, within_iff, found_iff, Covers, elements?]
  | _ => simp [same, sameAtom_container, isAtom, elements?]

theorem same_elements {a b : Value} {xs : List Value} (h : a.elements? = some xs) :
    a.same b = true ↔
      ∃ ys, b.elements? = some ys ∧ Covers (fun x y => x.same y = true) xs ys := by
  unfold elements? at h
  split at h
  · cases h; exact same_set
  · cases h; exact same_frozenset
  · contradiction

theorem same_dict {xs : List (Value × Value)} {b : Value} :
    (dict xs).same b = true ↔
      ∃ ys, b = .dict ys ∧
        Covers (fun x y => x.1.same y.1 = true ∧ x.2.same y.2 = true) xs ys := by
  cases b with
  | dict ys =>
    simp only [same, Bool.and_eq_true, entriesWithin_iff, List.all_eq_true, entryFound_iff, Covers,
      dict.injEq, exists_eq_left']
  | _ => simp [same, sameAtom_container, isAtom]

theorem same_object {c : String} {r : Bool} {xs : List (String × Value)} {b : Value} :
    (object c r xs).same b = true ↔
      ∃ q ys, b = .object c q ys ∧
        List.Forall₂ (fun x y => x.1 = y.1 ∧ x.2.same y.2 = true) xs ys := by
  cases b <;> simp [same, sameFields_iff, sameAtom_container, isAtom]
  grind

theorem same_made {t : String} {xs : List (String × Value)} {b : Value} :
    (made t xs).same b = true ↔
      ∃ ys, b = .made t ys ∧
        List.Forall₂ (fun x y => x.1 = y.1 ∧ x.2.same y.2 = true) xs ys := by
  cases b <;> simp [same, sameFields_iff, sameAtom_container, isAtom]
  grind

def members : Value → List Value
  | .list xs | .tuple xs | .set xs | .frozenset xs => xs
  | .dict es => es.flatMap fun e => [e.1, e.2]
  | .object _ _ fs | .made _ fs => fs.map (·.2)
  | _ => []

theorem sizeOf_snd_lt {α : Type} [SizeOf α] {x : α × Value} {xs : List (α × Value)} (h : x ∈ xs) :
    sizeOf x.2 < sizeOf xs := by
  have := List.sizeOf_lt_of_mem h
  rcases x with ⟨k, v⟩
  simp only [Prod.mk.sizeOf_spec] at this
  dsimp only
  omega

theorem sizeOf_fst_lt {x : Value × Value} {xs : List (Value × Value)} (h : x ∈ xs) :
    sizeOf x.1 < sizeOf xs := by
  have := List.sizeOf_lt_of_mem h
  rcases x with ⟨k, v⟩
  simp only [Prod.mk.sizeOf_spec] at this
  dsimp only
  omega

theorem sizeOf_member_lt {a x : Value} (h : x ∈ a.members) : sizeOf x < sizeOf a := by
  cases a <;> simp only [members, List.not_mem_nil, List.mem_flatMap, List.mem_map] at h
  case list xs | tuple xs | set xs | frozenset xs =>
    have := List.sizeOf_lt_of_mem h
    simp
    omega
  case dict es =>
    obtain ⟨e, he, hx⟩ := h
    have := sizeOf_fst_lt he
    have := sizeOf_snd_lt he
    simp only [List.mem_cons, List.not_mem_nil, or_false] at hx
    rcases hx with rfl | rfl <;> simp <;> omega
  case object c r fs | made t fs =>
    obtain ⟨e, he, rfl⟩ := h
    have := sizeOf_snd_lt he
    simp
    omega

theorem induct_members {P : Value → Prop} (step : ∀ a, (∀ x ∈ a.members, P x) → P a) (a : Value) :
    P a :=
  step a fun x _ => induct_members step x
termination_by sizeOf a
decreasing_by exact sizeOf_member_lt ‹_›

theorem same_symm {a b : Value} (h : a.same b = true) : b.same a = true := by
  induction a using induct_members generalizing b with
  | step a ih =>
  by_cases atom : a.isAtom = true
  · rw [same_of_atom atom] at h
    rw [same_of_atom (atoms_of_sameAtom h).2]
    exact sameAtom_symm h
  cases a <;> simp only [isAtom, not_true_eq_false] at atom
  case list xs =>
    obtain ⟨ys, rfl, hs⟩ := same_list.mp h
    exact same_list.mpr ⟨xs, rfl, forall₂_symm (fun x hx _ => ih x hx) hs⟩
  case tuple xs =>
    obtain ⟨ys, rfl, hs⟩ := same_tuple.mp h
    exact same_tuple.mpr ⟨xs, rfl, forall₂_symm (fun x hx _ => ih x hx) hs⟩
  case set xs | frozenset xs =>
    obtain ⟨ys, hb, hs⟩ := (same_elements rfl).mp h
    exact (same_elements hb).mpr ⟨xs, rfl, hs.symm fun x hx _ => ih x hx⟩
  case dict xs =>
    obtain ⟨ys, rfl, hs⟩ := same_dict.mp h
    refine same_dict.mpr ⟨xs, rfl, hs.symm fun x hx _ e => ⟨ih _ ?_ e.1, ih _ ?_ e.2⟩⟩
    · exact List.mem_flatMap.mpr ⟨x, hx, by simp⟩
    · exact List.mem_flatMap.mpr ⟨x, hx, by simp⟩
  case object c r xs =>
    obtain ⟨q, ys, rfl, hs⟩ := same_object.mp h
    exact same_object.mpr ⟨r, xs, rfl,
      forall₂_symm (fun x hx _ e => ⟨e.1.symm, ih _ (List.mem_map_of_mem hx) e.2⟩) hs⟩
  case made t xs =>
    obtain ⟨ys, rfl, hs⟩ := same_made.mp h
    exact same_made.mpr ⟨xs, rfl,
      forall₂_symm (fun x hx _ e => ⟨e.1.symm, ih _ (List.mem_map_of_mem hx) e.2⟩) hs⟩

theorem same_trans {a b c : Value} (h : a.same b = true) (k : b.same c = true) :
    a.same c = true := by
  induction a using induct_members generalizing b c with
  | step a ih =>
  by_cases atom : a.isAtom = true
  · rw [same_of_atom atom] at h
    rw [same_of_atom (atoms_of_sameAtom h).2] at k
    rw [same_of_atom atom]
    exact sameAtom_trans h k
  cases a <;> simp only [isAtom, not_true_eq_false] at atom
  case list xs =>
    obtain ⟨ys, rfl, hs⟩ := same_list.mp h
    obtain ⟨zs, rfl, ks⟩ := same_list.mp k
    exact same_list.mpr ⟨zs, rfl, forall₂_trans (fun x hx _ _ => ih x hx) hs ks⟩
  case tuple xs =>
    obtain ⟨ys, rfl, hs⟩ := same_tuple.mp h
    obtain ⟨zs, rfl, ks⟩ := same_tuple.mp k
    exact same_tuple.mpr ⟨zs, rfl, forall₂_trans (fun x hx _ _ => ih x hx) hs ks⟩
  case set xs | frozenset xs =>
    obtain ⟨ys, hb, hs⟩ := (same_elements rfl).mp h
    obtain ⟨zs, hc, ks⟩ := (same_elements hb).mp k
    exact (same_elements rfl).mpr ⟨zs, hc, hs.trans (fun x hx _ _ => ih x hx) ks⟩
  case dict xs =>
    obtain ⟨ys, rfl, hs⟩ := same_dict.mp h
    obtain ⟨zs, rfl, ks⟩ := same_dict.mp k
    refine same_dict.mpr ⟨zs, rfl,
      hs.trans (fun x hx _ _ e f => ⟨ih _ ?_ e.1 f.1, ih _ ?_ e.2 f.2⟩) ks⟩
    · exact List.mem_flatMap.mpr ⟨x, hx, by simp⟩
    · exact List.mem_flatMap.mpr ⟨x, hx, by simp⟩
  case object n r xs =>
    obtain ⟨q, ys, rfl, hs⟩ := same_object.mp h
    obtain ⟨p, zs, rfl, ks⟩ := same_object.mp k
    exact same_object.mpr ⟨p, zs, rfl, forall₂_trans
      (fun x hx _ _ e f => ⟨e.1.trans f.1, ih _ (List.mem_map_of_mem hx) e.2 f.2⟩) hs ks⟩
  case made t xs =>
    obtain ⟨ys, rfl, hs⟩ := same_made.mp h
    obtain ⟨zs, rfl, ks⟩ := same_made.mp k
    exact same_made.mpr ⟨zs, rfl, forall₂_trans
      (fun x hx _ _ e f => ⟨e.1.trans f.1, ih _ (List.mem_map_of_mem hx) e.2 f.2⟩) hs ks⟩

end Value

namespace TypeExpr

theorem sameAll_iff {as bs : List TypeExpr} :
    sameAll as bs = true ↔ List.Forall₂ (fun a b => a.same b = true) as bs := by
  induction as generalizing bs with
  | nil => cases bs <;> simp [sameAll]
  | cons a as ih => cases bs <;> simp [sameAll, ih]

theorem within_iff {as bs : List TypeExpr} :
    within as bs = true ↔ ∀ a ∈ as, ∃ b ∈ bs, a.same b = true := by
  induction as with
  | nil => simp [within]
  | cons a as ih => simp [within, ih]

theorem found_iff {as : List TypeExpr} {b : TypeExpr} :
    found as b = true ↔ ∃ a ∈ as, a.same b = true := by
  induction as with
  | nil => simp [found]
  | cons a as ih => simp [found, ih]

theorem sameLiteral_trans {u v w : Value} (h : sameLiteral u v = true)
    (k : sameLiteral v w = true) : sameLiteral u w = true := by
  simp only [sameLiteral, Bool.and_eq_true, decide_eq_true_eq] at *
  exact ⟨Value.same_trans h.1 k.1, h.2.trans k.2⟩

theorem sameLiterals_symm {vs ws : List Value} (h : sameLiterals vs ws = true) :
    sameLiterals ws vs = true := by
  rw [sameLiterals, Bool.and_comm]
  exact h

theorem sameLiterals_trans {us vs ws : List Value} (h : sameLiterals us vs = true)
    (k : sameLiterals vs ws = true) : sameLiterals us ws = true := by
  simp only [sameLiterals, Bool.and_eq_true, List.all_eq_true, List.any_eq_true] at *
  constructor
  · intro u hu
    obtain ⟨v, hv, e⟩ := h.1 u hu
    obtain ⟨w, hw, f⟩ := k.1 v hv
    exact ⟨w, hw, sameLiteral_trans e f⟩
  · intro w hw
    obtain ⟨v, hv, e⟩ := k.2 w hw
    obtain ⟨u, hu, f⟩ := h.2 v hv
    exact ⟨u, hu, sameLiteral_trans e f⟩

def members : TypeExpr → List TypeExpr
  | .union _ ts | .generic _ ts _ | .aliased _ ts => ts
  | .marked t _ => [t]
  | _ => []

theorem sizeOf_member_lt {a t : TypeExpr} (h : t ∈ a.members) : sizeOf t < sizeOf a := by
  cases a <;> simp only [members, List.not_mem_nil, List.mem_singleton] at h
  case union s ts | generic o ts v | aliased o ts =>
    have := List.sizeOf_lt_of_mem h
    simp
    omega
  case marked base ms =>
    subst h
    simp
    omega

theorem induct_members {P : TypeExpr → Prop} (step : ∀ a, (∀ t ∈ a.members, P t) → P a)
    (a : TypeExpr) : P a :=
  step a fun t _ => induct_members step t
termination_by sizeOf a
decreasing_by exact sizeOf_member_lt ‹_›

theorem same_cls {c : ClassRef} {b : TypeExpr} : (cls c).same b = true ↔ b = .cls c := by
  cases b <;> simp [same, eq_comm]

theorem same_variable {n : String} {s : Nat} {b : TypeExpr} :
    (TypeExpr.variable n s).same b = true ↔ ∃ m, b = .variable m s := by
  cases b <;> simp [same, eq_comm]

theorem same_unresolved {n : String} {b : TypeExpr} :
    (unresolved n).same b = true ↔ b = .unresolved n := by
  cases b <;> simp [same, eq_comm]

theorem same_union {s : UnionStyle} {ms : List TypeExpr} {b : TypeExpr} :
    (union s ms).same b = true ↔
      ∃ t ns, b = .union t ns ∧ Covers (fun m n => m.same n = true) ms ns := by
  cases b with
  | union t ns =>
    simp only [same, Bool.and_eq_true, within_iff, List.all_eq_true, found_iff, Covers]
    constructor
    · intro h
      exact ⟨t, ns, rfl, h⟩
    · rintro ⟨_, _, e, h⟩
      cases e
      exact h
  | _ => simp [same]

theorem same_generic {o : Builtin} {as : List TypeExpr} {v : Bool} {b : TypeExpr} :
    (generic o as v).same b = true ↔
      ∃ bs, b = .generic o bs v ∧ List.Forall₂ (fun x y => x.same y = true) as bs := by
  cases b <;> simp [same, sameAll_iff]
  grind

theorem same_aliased {o : Builtin} {as : List TypeExpr} {b : TypeExpr} :
    (aliased o as).same b = true ↔
      ∃ bs, b = .aliased o bs ∧ List.Forall₂ (fun x y => x.same y = true) as bs := by
  cases b <;> simp [same, sameAll_iff]
  grind

theorem same_marked {t : TypeExpr} {ms : List Mark} {b : TypeExpr} :
    (marked t ms).same b = true ↔ ∃ u, b = .marked u ms ∧ t.same u = true := by
  cases b <;> simp [same]
  grind

theorem same_literal {vs : List Value} {b : TypeExpr} :
    (literal vs).same b = true ↔ ∃ ws, b = .literal ws ∧ sameLiterals vs ws = true := by
  cases b <;> simp [same]

theorem same_symm {a b : TypeExpr} (h : a.same b = true) : b.same a = true := by
  induction a using induct_members generalizing b with
  | step a ih =>
  cases a
  case cls c =>
    rw [same_cls.mp h]
    exact same_cls.mpr rfl
  case «variable» n s =>
    obtain ⟨m, rfl⟩ := same_variable.mp h
    exact same_variable.mpr ⟨n, rfl⟩
  case unresolved n =>
    rw [same_unresolved.mp h]
    exact same_unresolved.mpr rfl
  case union s ms =>
    obtain ⟨t, ns, rfl, hs⟩ := same_union.mp h
    exact same_union.mpr ⟨s, ms, rfl, hs.symm fun m hm _ => ih m hm⟩
  case generic o as v =>
    obtain ⟨bs, rfl, hs⟩ := same_generic.mp h
    exact same_generic.mpr ⟨as, rfl, forall₂_symm (fun x hx _ => ih x hx) hs⟩
  case aliased o as =>
    obtain ⟨bs, rfl, hs⟩ := same_aliased.mp h
    exact same_aliased.mpr ⟨as, rfl, forall₂_symm (fun x hx _ => ih x hx) hs⟩
  case literal vs =>
    obtain ⟨ws, rfl, hs⟩ := same_literal.mp h
    exact same_literal.mpr ⟨vs, rfl, sameLiterals_symm hs⟩
  case marked t ms =>
    obtain ⟨u, rfl, hs⟩ := same_marked.mp h
    exact same_marked.mpr ⟨t, rfl, ih t (List.mem_singleton.mpr rfl) hs⟩

theorem same_trans {a b c : TypeExpr} (h : a.same b = true) (k : b.same c = true) :
    a.same c = true := by
  induction a using induct_members generalizing b c with
  | step a ih =>
  cases a
  case cls d =>
    rw [same_cls.mp h] at k
    exact k
  case «variable» n s =>
    obtain ⟨m, rfl⟩ := same_variable.mp h
    obtain ⟨l, rfl⟩ := same_variable.mp k
    exact same_variable.mpr ⟨l, rfl⟩
  case unresolved n =>
    rw [same_unresolved.mp h] at k
    exact k
  case union s ms =>
    obtain ⟨t, ns, rfl, hs⟩ := same_union.mp h
    obtain ⟨u, os, rfl, ks⟩ := same_union.mp k
    exact same_union.mpr ⟨u, os, rfl, hs.trans (fun m hm _ _ => ih m hm) ks⟩
  case generic o as v =>
    obtain ⟨bs, rfl, hs⟩ := same_generic.mp h
    obtain ⟨cs, rfl, ks⟩ := same_generic.mp k
    exact same_generic.mpr ⟨cs, rfl, forall₂_trans (fun x hx _ _ => ih x hx) hs ks⟩
  case aliased o as =>
    obtain ⟨bs, rfl, hs⟩ := same_aliased.mp h
    obtain ⟨cs, rfl, ks⟩ := same_aliased.mp k
    exact same_aliased.mpr ⟨cs, rfl, forall₂_trans (fun x hx _ _ => ih x hx) hs ks⟩
  case literal us =>
    obtain ⟨vs, rfl, hs⟩ := same_literal.mp h
    obtain ⟨ws, rfl, ks⟩ := same_literal.mp k
    exact same_literal.mpr ⟨ws, rfl, sameLiterals_trans hs ks⟩
  case marked t ms =>
    obtain ⟨u, rfl, hs⟩ := same_marked.mp h
    obtain ⟨v, rfl, ks⟩ := same_marked.mp k
    exact same_marked.mpr ⟨v, rfl, ih t (List.mem_singleton.mpr rfl) hs ks⟩

end TypeExpr

namespace RawType

theorem same_symm {r s : RawType} (h : r.same s = true) : s.same r = true := by
  cases r <;> cases s <;> simp_all [same]
  · exact TypeExpr.same_symm h
  · exact Value.same_symm h

theorem same_trans {r s t : RawType} (h : r.same s = true) (k : s.same t = true) :
    r.same t = true := by
  cases r <;> cases s <;> cases t <;> simp_all [same]
  · exact TypeExpr.same_trans h k
  · exact Value.same_trans h k

end RawType

namespace Descriptor

theorem sameAll_iff {as bs : List Descriptor} :
    sameAll as bs = true ↔ List.Forall₂ (fun a b => a.same b = true) as bs := by
  induction as generalizing bs with
  | nil => cases bs <;> simp [sameAll]
  | cons a as ih => cases bs <;> simp [sameAll, ih]

theorem same_iff {a b : Descriptor} :
    a.same b = true ↔ a.raw.same b.raw = true ∧ a.nullable = b.nullable ∧
      List.Forall₂ (fun x y => x.same y = true) a.args b.args := by
  cases a; cases b
  simp [same, sameAll_iff, raw, nullable, args, and_assoc]

theorem sizeOf_arg_lt {a d : Descriptor} (h : d ∈ a.args) : sizeOf d < sizeOf a := by
  cases a
  have := List.sizeOf_lt_of_mem h
  simp [args] at *
  omega

theorem induct_args {P : Descriptor → Prop} (step : ∀ a, (∀ d ∈ a.args, P d) → P a)
    (a : Descriptor) : P a :=
  step a fun d _ => induct_args step d
termination_by sizeOf a
decreasing_by exact sizeOf_arg_lt ‹_›

theorem same_symm {a b : Descriptor} (h : a.same b = true) : b.same a = true := by
  induction a using induct_args generalizing b with
  | step a ih =>
  obtain ⟨hr, hn, hs⟩ := same_iff.mp h
  exact same_iff.mpr ⟨RawType.same_symm hr, hn.symm, forall₂_symm (fun d hd _ => ih d hd) hs⟩

theorem same_trans {a b c : Descriptor} (h : a.same b = true) (k : b.same c = true) :
    a.same c = true := by
  induction a using induct_args generalizing b c with
  | step a ih =>
  obtain ⟨hr, hn, hs⟩ := same_iff.mp h
  obtain ⟨kr, kn, ks⟩ := same_iff.mp k
  exact same_iff.mpr ⟨RawType.same_trans hr kr, hn.trans kn,
    forall₂_trans (fun d hd _ _ => ih d hd) hs ks⟩

theorem same_boxed {a b : Descriptor} (h : a.same b = true) : a.boxed.same b.boxed = true := by
  obtain ⟨hr, _, hs⟩ := same_iff.mp h
  cases a; cases b
  exact same_iff.mpr ⟨hr, rfl, hs⟩

/-- Look-ups by sameness do not tell apart what is the same. -/
theorem same_congr {a b : Descriptor} (h : a.same b = true) (c : Descriptor) :
    a.same c = b.same c := by
  rw [Bool.eq_iff_iff]
  exact ⟨same_trans (same_symm h), same_trans h⟩

end Descriptor

end RowMapping
