import Mathlib.Data.List.Nodup
import RowMapping.Schema.Signature

/-! Keywords that are set one after another. Under distinct names they come out as given, whatever their
order, and those that were there before stay where none of the names is theirs. -/
namespace RowMapping.Keywords

variable {ks ls : Keywords} {name other : String} {v w : Value}

theorem mem_put {k : String} {u : Value} :
    (k, u) ∈ ks.put name v ↔ k = name ∧ u = v ∨ k ≠ name ∧ (k, u) ∈ ks := by
  unfold put
  split
  · next known =>
    obtain ⟨e, he, same⟩ := List.any_eq_true.mp known
    rw [List.mem_map]
    constructor
    · rintro ⟨a, ha, eq⟩
      split at eq
      · cases eq
        exact .inl ⟨rfl, rfl⟩
      · next different =>
        subst eq
        exact .inr ⟨different, ha⟩
    · rintro (⟨rfl, rfl⟩ | ⟨different, old⟩)
      · exact ⟨e, he, if_pos (of_decide_eq_true same)⟩
      · exact ⟨(k, u), old, if_neg different⟩
  · next new =>
    simp only [List.mem_append, List.mem_singleton, Prod.mk.injEq]
    constructor
    · rintro (old | here)
      · refine .inr ⟨?_, old⟩
        rintro rfl
        exact new (List.any_eq_true.mpr ⟨_, old, decide_eq_true rfl⟩)
      · exact .inl here
    · rintro (here | ⟨_, old⟩)
      · exact .inr here
      · exact .inl old

theorem put_perm (perm : ks.Perm ls) : (ks.put name v).Perm (ls.put name v) := by
  unfold put
  rw [perm.any_eq]
  split
  · exact perm.map _
  · exact perm.append_right _

theorem any_put (different : other ≠ name) :
    (ks.put name v).any (·.1 = other) = ks.any (·.1 = other) := by
  rw [Bool.eq_iff_iff, List.any_eq_true, List.any_eq_true]
  constructor
  · rintro ⟨⟨k, u⟩, he, same⟩
    cases of_decide_eq_true same
    rcases mem_put.mp he with ⟨rfl, _⟩ | ⟨_, old⟩
    · exact absurd rfl different
    · exact ⟨_, old, same⟩
  · rintro ⟨⟨k, u⟩, he, same⟩
    cases of_decide_eq_true same
    exact ⟨_, mem_put.mpr (.inr ⟨different, he⟩), same⟩

theorem put_comm (different : name ≠ other) :
    ((ks.put name v).put other w).Perm ((ks.put other w).put name v) := by
  have swap : ∀ k : String × Value,
      (if (if k.1 = name then (name, v) else k).1 = other then (other, w)
        else if k.1 = name then (name, v) else k) =
      if (if k.1 = other then (other, w) else k).1 = name then (name, v)
        else if k.1 = other then (other, w) else k := by
    intro k
    by_cases here : k.1 = name
    · have elsewhere : k.1 ≠ other := fun there => different (here.symm.trans there)
      simp [here, different]
    · by_cases there : k.1 = other
      · simp [there, Ne.symm different]
      · simp [here, there]
  rw [put, any_put different.symm, put.eq_1 (ks.put other w), any_put different]
  unfold put
  by_cases first : ks.any (·.1 = name) = true
  · by_cases second : ks.any (·.1 = other) = true
    · simp only [first, second, if_true, List.map_map]
      exact List.Perm.of_eq (List.map_congr_left fun k _ => swap k)
    · simp [first, second, Ne.symm different]
  · by_cases second : ks.any (·.1 = other) = true
    · simp [first, second, different]
    · simp only [first, second, Bool.false_eq_true, if_false, List.append_assoc]
      exact (List.Perm.swap _ _ []).append_left ks

def putAll (ks : Keywords) (given : List (String × Value)) : Keywords :=
  given.foldl (fun ks e => ks.put e.1 e.2) ks

theorem mem_putAll {given : List (String × Value)} (distinct : (given.map (·.1)).Nodup) {k : String}
    {u : Value} :
    (k, u) ∈ ks.putAll given ↔ (k, u) ∈ given ∨ (k, u) ∈ ks ∧ k ∉ given.map (·.1) := by
  induction given generalizing ks with
  | nil => simp [putAll]
  | cons e es ih =>
    obtain ⟨name, v⟩ := e
    rw [List.map_cons, List.nodup_cons] at distinct
    have rest := @ih (ks.put name v) distinct.2
    rw [putAll, List.foldl_cons]
    refine rest.trans ?_
    rw [mem_put, List.mem_cons, List.map_cons, List.mem_cons, Prod.mk.injEq]
    constructor
    · rintro (later | ⟨⟨rfl, rfl⟩ | ⟨different, old⟩, none⟩)
      · exact .inl (.inr later)
      · exact .inl (.inl ⟨rfl, rfl⟩)
      · exact .inr ⟨old, fun known => known.elim different none⟩
    · rintro ((⟨rfl, rfl⟩ | later) | ⟨old, none⟩)
      · exact .inr ⟨.inl ⟨rfl, rfl⟩, distinct.1⟩
      · exact .inl later
      · have different : k ≠ name := fun same => none (.inl same)
        exact .inr ⟨.inr ⟨different, old⟩, fun known => none (.inr known)⟩

theorem putAll_perm_start (given : List (String × Value)) (perm : ks.Perm ls) :
    (ks.putAll given).Perm (ls.putAll given) := by
  induction given generalizing ks ls with
  | nil => exact perm
  | cons e es ih => exact ih (put_perm perm)

/-- Under distinct names the order of setting shows only in the order of the keywords. -/
theorem putAll_perm {given others : List (String × Value)} (perm : given.Perm others)
    (distinct : (given.map (·.1)).Nodup) (ks : Keywords) :
    (ks.putAll given).Perm (ks.putAll others) := by
  -- Neighbours may be swapped as their names differ. What is set after them starts from the same
  -- keywords in another order.
  induction perm generalizing ks with
  | nil => exact .refl _
  | cons e _ ih => exact ih (List.nodup_cons.mp distinct).2 _
  | swap a b es =>
    have different : b.1 ≠ a.1 := by
      intro same
      exact (List.nodup_cons.mp distinct).1 (List.mem_cons.mpr (.inl same))
    exact putAll_perm_start es (put_comm different)
  | trans first _ ih ih' =>
    exact (ih distinct ks).trans (ih' ((first.map _).nodup_iff.mp distinct) ks)

theorem mem_of_find {k : String} (found : ks.find? k = some v) : (k, v) ∈ ks := by
  obtain ⟨e, known, rfl⟩ := Option.map_eq_some_iff.mp found
  have same : e.1 = k := by simpa using List.find?_some known
  exact same ▸ List.mem_of_find?_eq_some known

theorem find_of_mem {values : List (String × Value)} (within : ∀ e ∈ ks, e ∈ values)
    (distinct : (values.map (·.1)).Nodup) {e : String × Value} (member : e ∈ ks) :
    ks.find? e.1 = some e.2 := by
  cases found : ks.find? e.1 with
  | none =>
    have missing := List.find?_eq_none.mp (Option.map_eq_none_iff.mp found) _ member
    exact absurd (decide_eq_true rfl) missing
  | some u =>
    have same := List.inj_on_of_nodup_map distinct (within _ (mem_of_find found)) (within _ member) rfl
    exact congrArg some (congrArg Prod.snd same)

theorem find_put : (ks.put name v).find? other = if other = name then some v else ks.find? other := by
  have replaced : List.find? (·.1 = other) (ks.map fun k => if k.1 = name then (name, v) else k) =
      if other = name then (List.find? (·.1 = name) ks).map fun _ => (name, v)
      else List.find? (·.1 = other) ks := by
    induction ks with
    | nil => simp
    | cons e es ih => grind
  unfold put Keywords.find?
  split
  · next known =>
    have found := List.find?_isSome.mpr (List.any_eq_true.mp known)
    obtain ⟨e, found⟩ := Option.isSome_iff_exists.mp found
    rw [replaced]
    split <;> simp [found]
  · next new =>
    have missing : List.find? (·.1 = name) ks = none :=
      List.find?_eq_none.mpr fun e member same => new (List.any_eq_true.mpr ⟨e, member, same⟩)
    rw [List.find?_append]
    split
    · next same => simp [same, missing]
    · next different => simp [Ne.symm different]

/-- Under distinct names one finds what was set last, or else what was there. -/
theorem find_putAll {given : List (String × Value)} (distinct : (given.map (·.1)).Nodup) (k : String) :
    (ks.putAll given).find? k = (Keywords.find? given k).or (ks.find? k) := by
  induction given generalizing ks with
  | nil => rfl
  | cons e es ih =>
    obtain ⟨name, v⟩ := e
    rw [List.map_cons, List.nodup_cons] at distinct
    have rest := @ih (ks.put name v) distinct.2
    rw [putAll, List.foldl_cons]
    refine rest.trans ?_
    rw [find_put]
    by_cases here : k = name
    · subst here
      have later : List.find? (·.1 = k) es = none := List.find?_eq_none.mpr fun e member same =>
        distinct.1 (List.mem_map.mpr ⟨e, member, of_decide_eq_true same⟩)
      simp [Keywords.find?, later]
    · simp [Keywords.find?, here, Ne.symm here]

theorem find_putAll_other {given : List (String × Value)} {k : String} (other : k ∉ given.map (·.1)) :
    (ks.putAll given).find? k = ks.find? k := by
  induction given generalizing ks with
  | nil => rfl
  | cons e es ih =>
    rw [List.map_cons, List.mem_cons, not_or] at other
    rw [putAll, List.foldl_cons]
    refine (ih other.2).trans ?_
    rw [find_put, if_neg other.1]

theorem mem_of_putAll {given : List (String × Value)} {k : String} {u : Value} (member : (k, u) ∈ ks.putAll given) :
    (k, u) ∈ given ∨ (k, u) ∈ ks := by
  induction given generalizing ks with
  | nil => exact .inr member
  | cons e es ih =>
    rcases ih member with later | before
    · exact .inl (List.mem_cons_of_mem _ later)
    · rcases mem_put.mp before with ⟨rfl, rfl⟩ | ⟨_, old⟩
      · exact .inl List.mem_cons_self
      · exact .inr old

theorem find_isSome {k : String} : (ks.find? k).isSome = true ↔ ∃ v, (k, v) ∈ ks := by
  simp [Keywords.find?, List.find?_isSome]

end RowMapping.Keywords
