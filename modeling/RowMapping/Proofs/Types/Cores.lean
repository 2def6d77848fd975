import RowMapping.Proofs.Types.Alternatives

/-! What equal descriptors tell of types. Without marks at the top, without a union with null only and under its own
name, a type is of the kind that its descriptor says. By induction on their arguments, types of equal descriptors are
one type up to marks, the spelling of unions and typing names if and only if they agree in what descriptors do not
keep. -/
namespace RowMapping.TypeExpr

/-- The second type is what is left of the first without marks at the top, without a union with null only and under
its own name. -/
inductive Peels : TypeExpr → TypeExpr → Prop
  | cls (c : ClassRef) : Peels (.cls c) (.cls c)
  | generic (o : Builtin) (ts : List TypeExpr) (v : Bool) : Peels (.generic o ts v) (.generic o ts v)
  | name (o : Builtin) : Peels (.aliased o []) (.cls (.builtin o))
  | aliased (o : Builtin) (t : TypeExpr) (ts : List TypeExpr) :
    Peels (.aliased o (t :: ts)) (.generic o (t :: ts) false)
  | literal (vs : List Value) : Peels (.literal vs) (.literal vs)
  | variable (name : String) (serial : Nat) : Peels (.variable name serial) (.variable name serial)
  | unresolved (name : String) : Peels (.unresolved name) (.unresolved name)
  | several {style : UnionStyle} {ms : List TypeExpr} : (ms.filter (!·.isNone)).length ≠ 1 →
    Peels (.union style ms) (.union style ms)
  | optional {style : UnionStyle} {ms : List TypeExpr} {t u : TypeExpr} : ms.filter (!·.isNone) = [t] → Peels t u →
    Peels (.union style ms) u
  | marked {t u : TypeExpr} (ms : List Mark) : Peels t u → Peels (.marked t ms) u

theorem exists_peels (a : TypeExpr) : ∃ u, a.Peels u := by
  induction a using induct_members with
  | step a ih =>
  cases a
  case cls c => exact ⟨_, .cls c⟩
  case generic o ts v => exact ⟨_, .generic o ts v⟩
  case aliased o ts =>
    cases ts with
    | nil => exact ⟨_, .name o⟩
    | cons t ts => exact ⟨_, .aliased o t ts⟩
  case literal vs => exact ⟨_, .literal vs⟩
  case «variable» n s => exact ⟨_, .variable n s⟩
  case unresolved n => exact ⟨_, .unresolved n⟩
  case marked t ms =>
    obtain ⟨u, peels⟩ := ih t (List.mem_singleton_self t)
    exact ⟨u, .marked ms peels⟩
  case union style ms =>
    by_cases one : (ms.filter (!·.isNone)).length = 1
    · obtain ⟨t, alone⟩ := List.length_eq_one_iff.mp one
      have member : t ∈ ms := List.mem_of_mem_filter (alone ▸ List.mem_singleton_self t)
      obtain ⟨u, peels⟩ := ih t member
      exact ⟨u, .optional alone peels⟩
    · exact ⟨_, .several one⟩

theorem isNone_iff {t : TypeExpr} : t.isNone = true ↔ t = none := by
  rw [← same_none]
  constructor
  · intro same
    exact same_cls.mp (same_symm same)
  · rintro rfl
    rw [same_none]
    rfl

section Peels

variable {a u : TypeExpr}

theorem Peels.wellBuilt (peels : a.Peels u) (built : a.WellBuilt) : u.WellBuilt := by
  induction peels with
  | cls | generic | literal | «variable» | unresolved | several => exact built
  | name o => exact .cls _
  | aliased o t ts =>
    cases built with
    | aliased each => exact .generic each
  | optional alone _ ih =>
    cases built with
    | union _ each => exact ih (each _ (List.mem_of_mem_filter (alone ▸ List.mem_singleton_self _)))
  | marked ms _ ih =>
    cases built with
    | marked base => exact ih base

theorem Peels.smaller (peels : a.Peels u) : ∀ t ∈ u.members, sizeOf t < sizeOf a := by
  induction peels with
  | cls | generic | literal | «variable» | unresolved | several => exact fun t => sizeOf_member_lt
  | name o => nofun
  | aliased o t ts => exact fun t member => sizeOf_member_lt (a := .aliased o (_ :: ts)) member
  | @optional style ms t u alone _ ih =>
    have inside : t ∈ (TypeExpr.union style ms).members := List.mem_of_mem_filter (alone ▸ List.mem_singleton_self t)
    exact fun x member => (ih x member).trans (sizeOf_member_lt inside)
  | @marked t u ms _ ih =>
    have inside : t ∈ (TypeExpr.marked t ms).members := List.mem_singleton_self t
    exact fun x member => (ih x member).trans (sizeOf_member_lt inside)

theorem Peels.details (peels : a.Peels u) : a.details = u.details := by
  induction peels with
  | cls | generic | name | aliased | literal | «variable» | unresolved | several => rfl
  | optional alone _ ih =>
    rw [TypeExpr.details, detailsOfAlternatives_eq, alone]
    exact ih
  | marked ms _ ih => exact ih

theorem of_alone {style : UnionStyle} {ms : List TypeExpr} {t : TypeExpr} (alone : ms.filter (!·.isNone) = [t]) :
    Descriptor.of (.union style ms) = (Descriptor.of t).boxed := by
  have one : Descriptor.ofAlternatives ms = [Descriptor.of t] := by
    rw [Descriptor.ofAlternatives_eq, alone]
    rfl
  rw [Descriptor.of, one]

theorem of_several {style : UnionStyle} {ms : List TypeExpr} (more : (ms.filter (!·.isNone)).length ≠ 1) :
    Descriptor.of (.union style ms) = .mk (.union style ms) [] ((ms.filter (!·.isNone)).length < ms.length) := by
  have described : (Descriptor.ofAlternatives ms).length = (ms.filter (!·.isNone)).length := by
    rw [Descriptor.ofAlternatives_eq, List.length_map]
  rcases Descriptor.of_union_cases style ms with ⟨d, alone, _⟩ | ⟨written, _⟩
  · rw [alone] at described
    exact absurd described.symm more
  · rw [written, described]

theorem details_several {style : UnionStyle} {ms : List TypeExpr} (more : (ms.filter (!·.isNone)).length ≠ 1) :
    (TypeExpr.union style ms).details = .mk .nothing [] := by
  have kept : (detailsOfAlternatives ms).length = (ms.filter (!·.isNone)).length := by
    rw [detailsOfAlternatives_eq, List.length_map]
  rw [details]
  split
  · next d alone =>
    rw [alone] at kept
    exact absurd kept.symm more
  · rfl

theorem null_of_fewer {ms : List TypeExpr} (fewer : (ms.filter (!·.isNone)).length < ms.length) : none ∈ ms := by
  obtain ⟨m, member, null⟩ := List.length_filter_lt_length_iff_exists.mp fewer
  rw [Bool.not_eq_true', Bool.not_eq_false, isNone_iff] at null
  exact null ▸ member

theorem Peels.descriptor (peels : a.Peels u) :
    (Descriptor.of a).raw = (Descriptor.of u).raw ∧ (Descriptor.of a).args = (Descriptor.of u).args := by
  induction peels with
  | cls | generic | name | aliased | literal | «variable» | unresolved | several => exact ⟨rfl, rfl⟩
  | @optional style ms t u alone _ ih =>
    rw [of_alone alone]
    cases of : Descriptor.of t with
    | mk raw args nullable =>
      rw [of] at ih
      exact ih
  | marked ms _ ih => exact ih

/-- The alternatives of a type are those of what is left of it, and null where its descriptor admits null. -/
theorem Peels.branches (peels : a.Peels u) (built : a.WellBuilt) (x : TypeExpr) :
    x ∈ a.branches ↔ x ∈ u.branches ∨ (Descriptor.of a).nullable = true ∧ x = none := by
  induction peels with
  | cls | generic | name | aliased | literal | «variable» | unresolved =>
    exact (or_iff_left fun null => Bool.false_ne_true null.1).symm
  | @several style ms more =>
    refine (or_iff_left_of_imp ?_).symm
    rintro ⟨nullable, rfl⟩
    rw [of_several more] at nullable
    rw [TypeExpr.branches, branchesAll_eq]
    have null := null_of_fewer (of_decide_eq_true nullable)
    exact List.mem_flatMap.mpr ⟨none, null, List.mem_singleton_self none⟩
  | @optional style ms t u alone _ ih =>
    -- One alternative is left beside null.
    obtain ⟨flat, each⟩ : (TypeExpr.union style ms).Flat ∧ ∀ m ∈ ms, m.WellBuilt := by
      cases built with
      | union flat each => exact ⟨flat, each⟩
    have inside : t ∈ ms := List.mem_of_mem_filter (alone ▸ List.mem_singleton_self t)
    have null : none ∈ ms := null_of_fewer (by rw [alone]; exact flat.1)
    have nullable : (Descriptor.of (.union style ms)).nullable = true := by
      rw [of_alone alone]
      cases Descriptor.of t
      rfl
    have base := ih (each t inside)
    rw [TypeExpr.branches, branchesAll_eq, List.mem_flatMap]
    constructor
    · rintro ⟨m, member, own⟩
      by_cases absent : m.isNone = true
      · rw [isNone_iff.mp absent] at own
        exact .inr ⟨nullable, List.mem_singleton.mp own⟩
      · have kept : m ∈ ms.filter (!·.isNone) := List.mem_filter.mpr ⟨member, by simpa using absent⟩
        rw [alone, List.mem_singleton] at kept
        exact (base.mp (kept ▸ own)).imp_right fun null => ⟨nullable, null.2⟩
    · rintro (own | ⟨_, rfl⟩)
      · exact ⟨t, inside, base.mpr (.inl own)⟩
      · exact ⟨none, null, List.mem_singleton_self none⟩
  | @marked t u ms _ ih =>
    cases built with
    | marked base => exact ih base

end Peels

inductive Core : TypeExpr → Prop
  | cls (c : ClassRef) : Core (.cls c)
  | generic (o : Builtin) (ts : List TypeExpr) (v : Bool) : Core (.generic o ts v)
  | literal (vs : List Value) : Core (.literal vs)
  | variable (name : String) (serial : Nat) : Core (.variable name serial)
  | unresolved (name : String) : Core (.unresolved name)
  | several {style : UnionStyle} {ms : List TypeExpr} : (ms.filter (!·.isNone)).length ≠ 1 → Core (.union style ms)

theorem Peels.core {a u : TypeExpr} (peels : a.Peels u) : u.Core := by
  induction peels with
  | cls c => exact .cls c
  | generic o ts v => exact .generic o ts v
  | name o => exact .cls _
  | aliased o t ts => exact .generic o (t :: ts) false
  | literal vs => exact .literal vs
  | «variable» n s => exact .variable n s
  | unresolved n => exact .unresolved n
  | several more => exact .several more
  | optional _ _ ih => exact ih
  | marked _ _ ih => exact ih

/-- Types of one kind, which descriptors of equal raw types may belong to. -/
inductive Paired : TypeExpr → TypeExpr → Prop
  | cls (c : ClassRef) : Paired (.cls c) (.cls c)
  | opened (o : Builtin) (us : List TypeExpr) (w : Bool) : Paired (.cls (.builtin o)) (.generic o us w)
  | closed (o : Builtin) (ts : List TypeExpr) (v : Bool) : Paired (.generic o ts v) (.cls (.builtin o))
  | generic (o : Builtin) (ts us : List TypeExpr) (v w : Bool) : Paired (.generic o ts v) (.generic o us w)
  | literal (vs ws : List Value) : Paired (.literal vs) (.literal ws)
  | written {u t : TypeExpr} : u.same t = true → u.details = .mk .nothing [] → t.details = .mk .nothing [] → Paired u t

theorem Core.paired {u t : TypeExpr} (hu : u.Core) (ht : t.Core)
    (raw : (Descriptor.of u).raw.same (Descriptor.of t).raw = true) : u.Paired t := by
  -- One raw type is that of a class and of the generic types of it. No other kinds share one.
  cases hu with
  | cls c =>
    cases ht with
    | cls d =>
      obtain rfl : c = d := of_decide_eq_true raw
      exact .cls c
    | generic o us w =>
      obtain rfl : c = .builtin o := of_decide_eq_true raw
      exact .opened o us w
    | several more => rw [of_several more] at raw; contradiction
    | _ => contradiction
  | generic o ts v =>
    cases ht with
    | cls d =>
      obtain rfl : ClassRef.builtin o = d := of_decide_eq_true raw
      exact .closed o ts v
    | generic p us w =>
      have same : ClassRef.builtin o = .builtin p := of_decide_eq_true raw
      cases same
      exact .generic o ts us v w
    | several more => rw [of_several more] at raw; contradiction
    | _ => contradiction
  | literal vs =>
    cases ht with
    | literal ws => exact .literal vs ws
    | several more => rw [of_several more] at raw; contradiction
    | _ => contradiction
  | «variable» n s =>
    cases ht with
    | «variable» m r =>
      obtain rfl : s = r := of_decide_eq_true raw
      exact .written (same_variable.mpr ⟨m, rfl⟩) rfl rfl
    | several more => rw [of_several more] at raw; contradiction
    | _ => contradiction
  | unresolved n =>
    cases ht with
    | unresolved m =>
      obtain rfl : n = m := of_decide_eq_true raw
      exact .written (same_unresolved.mpr rfl) rfl rfl
    | several more => rw [of_several more] at raw; contradiction
    | _ => contradiction
  | several more =>
    rw [of_several more] at raw
    cases ht with
    | several more' =>
      rw [of_several more'] at raw
      exact .written raw (details_several more) (details_several more')
    | _ => contradiction

theorem Paired.narrow {u t : TypeExpr} (paired : u.Paired t) :
    (∃ x y, u.branches = [x] ∧ t.branches = [y]) ∨ u.SameType t := by
  cases paired with
  | cls | opened | closed | generic | literal => exact .inl ⟨_, _, rfl, rfl⟩
  | written same => exact .inr (sameType_of_same same)

/-- Types of one kind are one type if they agree in what descriptors do not keep, provided that their arguments are
so. -/
theorem Paired.sameType_iff {u t : TypeExpr} (paired : u.Paired t)
    (args : List.Forall₂ (fun d e => d.same e = true) (Descriptor.of u).args (Descriptor.of t).args)
    (each : ∀ x ∈ u.members, ∀ y ∈ t.members, (Descriptor.of x).same (.of y) = true →
      (x.SameType y ↔ x.details.same y.details = true)) :
    u.SameType t ↔ u.details.same t.details = true := by
  cases paired with
  | cls c => exact iff_of_true ((sameType_of_one rfl rfl).mpr (same_cls.mpr rfl)) rfl
  | opened o us w =>
    refine iff_of_false (fun same => ?_) nofun
    exact nomatch same_cls.mp ((sameType_of_one rfl rfl).mp same)
  | closed o ts v =>
    refine iff_of_false (fun same => ?_) nofun
    obtain ⟨_, ⟨⟩, _⟩ := same_generic.mp ((sameType_of_one rfl rfl).mp same)
  | generic o ts us v w =>
    have related : List.Forall₂ (fun x y => (Descriptor.of x).same (.of y) = true) ts us := by
      have mapped : List.Forall₂ _ (Descriptor.ofAll ts) (Descriptor.ofAll us) := args
      rwa [Descriptor.ofAll_eq, Descriptor.ofAll_eq, List.forall₂_map_left_iff, List.forall₂_map_right_iff] at mapped
    have arguments := forall₂_congr_of related each
    have alike : (TypeExpr.generic o (spreadAll ts) v).same (.generic o (spreadAll us) w) = true ↔
        v = w ∧ List.Forall₂ SameType ts us := by
      rw [same_generic, ← forall₂_spread]
      constructor
      · rintro ⟨_, ⟨⟩, spreads⟩
        exact ⟨rfl, spreads⟩
      · rintro ⟨rfl, spreads⟩
        exact ⟨_, rfl, spreads⟩
    rw [sameType_of_one rfl rfl, alike, arguments, details, details, Details.same_iff, detailsAll_eq, detailsAll_eq,
      List.forall₂_map_left_iff, List.forall₂_map_right_iff, Unkept.same, decide_eq_true_eq]
  | literal vs ws =>
    have alike : (TypeExpr.literal vs).same (.literal ws) = true ↔ sameLiterals vs ws = true := by
      rw [same_literal]
      constructor
      · rintro ⟨_, ⟨⟩, same⟩
        exact same
      · intro same
        exact ⟨ws, rfl, same⟩
    rw [sameType_of_one rfl rfl, alike, details, details, Details.same_iff, Unkept.same]
    exact (and_iff_left .nil).symm
  | written same hu ht => exact iff_of_true (sameType_of_same same) (by rw [hu, ht]; rfl)

/-- Null beside the alternatives of two types makes no difference to whether they are one. -/
theorem covers_null {xs ys us ts : List TypeExpr} {null : Bool} (hx : ∀ x, x ∈ xs ↔ x ∈ us ∨ null = true ∧ x = none)
    (hy : ∀ y, y ∈ ys ↔ y ∈ ts ∨ null = true ∧ y = none)
    (narrow : (∃ x y, us = [x] ∧ ts = [y]) ∨ Covers (fun x y => x.same y = true) us ts) :
    Covers (fun x y => x.same y = true) xs ys ↔ Covers (fun x y => x.same y = true) us ts := by
  constructor
  · intro covers
    rcases narrow with ⟨x, y, rfl, rfl⟩ | narrow
    · refine covers_one.mpr ?_
      obtain ⟨z, member, same⟩ := covers.1 x ((hx x).mpr (.inl (List.mem_singleton_self x)))
      rcases (hy z).mp member with own | ⟨_, rfl⟩
      · exact List.mem_singleton.mp own ▸ same
      -- The first is null itself, and so is what the second is the same as.
      · obtain rfl := same_cls.mp (same_symm same)
        obtain ⟨w, member, same⟩ := covers.2 y ((hy y).mpr (.inl (List.mem_singleton_self y)))
        rcases (hx w).mp member with own | ⟨_, rfl⟩
        · exact List.mem_singleton.mp own ▸ same
        · exact same
    · exact narrow
  · intro covers
    have itself : none.same none = true := same_cls.mpr rfl
    constructor
    · intro x member
      rcases (hx x).mp member with own | ⟨admitted, rfl⟩
      · obtain ⟨y, there, same⟩ := covers.1 x own
        exact ⟨y, (hy y).mpr (.inl there), same⟩
      · exact ⟨none, (hy none).mpr (.inr ⟨admitted, rfl⟩), itself⟩
    · intro y member
      rcases (hy y).mp member with own | ⟨admitted, rfl⟩
      · obtain ⟨x, there, same⟩ := covers.2 y own
        exact ⟨x, (hx x).mpr (.inl there), same⟩
      · exact ⟨none, (hx none).mpr (.inr ⟨admitted, rfl⟩), itself⟩

theorem WellBuilt.members {a : TypeExpr} (built : a.WellBuilt) : ∀ t ∈ a.members, t.WellBuilt := by
  cases built with
  | union _ each => exact each
  | generic each => exact each
  | aliased each => exact each
  | marked base => exact fun t member => List.mem_singleton.mp member ▸ base
  | _ => nofun

/-- What is left of types whose descriptors differ in null at most is of one kind, and one type if the types agree in
what descriptors do not keep. -/
theorem exists_paired {a b : TypeExpr} (ha : a.WellBuilt) (hb : b.WellBuilt)
    (raw : (Descriptor.of a).raw.same (Descriptor.of b).raw = true)
    (args : List.Forall₂ (fun d e => d.same e = true) (Descriptor.of a).args (Descriptor.of b).args)
    (each : ∀ x y, sizeOf x < sizeOf a → x.WellBuilt → y.WellBuilt → (Descriptor.of x).same (.of y) = true →
      (x.SameType y ↔ x.details.same y.details = true)) :
    ∃ u t, a.Peels u ∧ b.Peels t ∧ ((∃ x y, u.branches = [x] ∧ t.branches = [y]) ∨ u.SameType t) ∧
      (u.SameType t ↔ a.details.same b.details = true) := by
  obtain ⟨u, hu⟩ := exists_peels a
  obtain ⟨t, ht⟩ := exists_peels b
  rw [hu.descriptor.1, ht.descriptor.1] at raw
  rw [hu.descriptor.2, ht.descriptor.2] at args
  have paired := hu.core.paired ht.core raw
  refine ⟨u, t, hu, ht, paired.narrow, ?_⟩
  rw [hu.details, ht.details]
  refine paired.sameType_iff args fun x hx y hy same => ?_
  exact each x y (hu.smaller x hx) ((hu.wellBuilt ha).members x hx) ((ht.wellBuilt hb).members y hy) same

/-- Types of equal descriptors are one type if and only if they agree in what descriptors do not keep. -/
theorem sameType_iff_details {a b : TypeExpr} (ha : a.WellBuilt) (hb : b.WellBuilt)
    (same : (Descriptor.of a).same (.of b) = true) :
    a.SameType b ↔ a.details.same b.details = true := by
  obtain ⟨raw, nullable, args⟩ := Descriptor.same_iff.mp same
  obtain ⟨u, t, hu, ht, narrow, told⟩ := exists_paired ha hb raw args fun x y smaller hx hy same =>
    sameType_iff_details hx hy same
  rw [sameType_iff] at narrow
  rw [← told, sameType_iff, sameType_iff]
  exact covers_null (hu.branches ha) (fun y => nullable ▸ ht.branches hb y) narrow
termination_by sizeOf a

theorem sameType_orNull_iff_details {a b : TypeExpr} (ha : a.WellBuilt) (hb : b.WellBuilt)
    (same : (Descriptor.of a).boxed.same (Descriptor.of b).boxed = true) :
    a.orNull.SameType b.orNull ↔ a.details.same b.details = true := by
  obtain ⟨raw, _, args⟩ := Descriptor.same_iff.mp same
  rw [Descriptor.raw_boxed, Descriptor.raw_boxed] at raw
  rw [Descriptor.args_boxed, Descriptor.args_boxed] at args
  obtain ⟨u, t, hu, ht, narrow, told⟩ := exists_paired ha hb raw args fun x y _ hx hy same =>
    sameType_iff_details hx hy same
  rw [sameType_iff] at narrow
  rw [← told, sameType_iff, sameType_iff]
  have admitted : ∀ {c v : TypeExpr}, c.WellBuilt → c.Peels v → ∀ x,
      x ∈ c.orNull.branches ↔ x ∈ v.branches ∨ true = true ∧ x = none := by
    intro c v built peels x
    have listed : c.orNull.branches = c.branches ++ [none] := rfl
    rw [listed, List.mem_append, List.mem_singleton, peels.branches built, or_assoc, or_iff_right_of_imp And.right]
    exact or_congr_right (and_iff_right rfl).symm
  exact covers_null (admitted ha hu) (admitted hb ht) narrow

end RowMapping.TypeExpr
