import RowMapping.Proofs.Column.Searched
import RowMapping.Row

/-! Rows with their columns rearranged, and others added. A column that alone passes a test is found with
the same value where the columns stand in another order, if none of the added ones passes it. -/
namespace RowMapping

/-- Exactly one element passes the test, and it is the one at this position. -/
def Sole {α : Type} (test : α → Bool) (as : List α) (k : Nat) (a : α) : Prop :=
  as[k]? = some a ∧ test a = true ∧ ∀ j b, as[j]? = some b → j ≠ k → test b = false

theorem Sole.filter {α : Type} {test : α → Bool} {as : List α} {k : Nat} {a : α} (sole : Sole test as k a) :
    as.filter test = [a] := by
  obtain ⟨here, passes, others⟩ := sole
  induction as generalizing k with
  | nil => contradiction
  | cons b bs ih =>
    cases k with
    | zero =>
      cases here
      have none : bs.filter test = [] := by
        refine List.filter_eq_nil_iff.mpr fun c member => ?_
        obtain ⟨j, there⟩ := List.getElem?_of_mem member
        rw [others (j + 1) c there (Nat.succ_ne_zero j)]
        exact Bool.false_ne_true
      rw [List.filter_cons_of_pos passes, none]
    | succ k =>
      have first := others 0 b rfl (Nat.succ_ne_zero k).symm
      rw [List.filter_cons_of_neg (by rw [first]; exact Bool.false_ne_true)]
      exact ih here fun j c there other => others (j + 1) c there fun same => other (Nat.succ.inj same)

theorem sole_of_filter {α : Type} {test : α → Bool} {as : List α} {a : α} (filtered : as.filter test = [a]) :
    ∃ k, Sole test as k a := by
  induction as with
  | nil => contradiction
  | cons b bs ih =>
    cases passes : test b with
    | true =>
      rw [List.filter_cons_of_pos passes] at filtered
      obtain ⟨rfl, none⟩ := List.cons.inj filtered
      refine ⟨0, rfl, passes, fun j c there other => ?_⟩
      cases j with
      | zero => exact absurd rfl other
      | succ j => exact eq_false_of_ne_true (List.filter_eq_nil_iff.mp none c (List.mem_of_getElem? there))
    | false =>
      rw [List.filter_cons_of_neg (by rw [passes]; exact Bool.false_ne_true)] at filtered
      obtain ⟨k, here, own, others⟩ := ih filtered
      refine ⟨k + 1, here, own, fun j c there other => ?_⟩
      cases j with
      | zero => exact Option.some.inj there ▸ passes
      | succ j => exact others j c there fun same => other (congrArg (· + 1) same)

theorem Sole.moved {α : Type} {test : α → Bool} {as bs cs : List α} {k : Nat} {a : α}
    (sole : Sole test as k a) (moved : bs.Perm (as ++ cs)) (refused : ∀ c ∈ cs, test c = false) :
    ∃ j, Sole test bs j a := by
  have added : cs.filter test = [] := by
    refine List.filter_eq_nil_iff.mpr fun c member => ?_
    rw [refused c member]
    exact Bool.false_ne_true
  have filtered := moved.filter test
  rw [List.filter_append, sole.filter, added, List.append_nil] at filtered
  exact sole_of_filter (List.perm_singleton.mp filtered)

namespace Row

/-- The second row has the columns of the first and `extra` ones, each with its value, in any order. Neither
was read more than the other. -/
structure Rearranged (extra : List (String × Value)) (r r' : Row) : Prop where
  cells : (r'.columns.zip r'.values).Perm (r.columns.zip r.values ++ extra)
  whole : r.columns.length = r.values.length
  whole' : r'.columns.length = r'.values.length
  wasNull : r'.wasNull = r.wasNull

variable {extra : List (String × Value)} {r r' : Row}

theorem Rearranged.columns (moved : Rearranged extra r r') :
    r'.columns.Perm (r.columns ++ extra.map (·.1)) := by
  have names := moved.cells.map Prod.fst
  rwa [List.map_append, List.map_fst_zip (Nat.le_of_eq moved.whole),
    List.map_fst_zip (Nat.le_of_eq moved.whole')] at names

theorem Rearranged.sole (moved : Rearranged extra r r') {test : String → Bool}
    (refused : ∀ e ∈ extra, test e.1 = false) {k : Nat} {c : String} (sole : Sole test r.columns k c) :
    ∃ j v, Sole test r'.columns j c ∧ r.values[k]? = some v ∧ r'.values[j]? = some v := by
  obtain ⟨here, passes, others⟩ := sole
  have inside : k < r.values.length := moved.whole ▸ (List.getElem?_eq_some_iff.mp here).1
  have value := List.getElem?_eq_getElem inside
  have paired : Sole (fun e : String × Value => test e.1) (r.columns.zip r.values) k (c, r.values[k]) := by
    refine ⟨List.getElem?_zip_eq_some.mpr ⟨here, value⟩, passes, fun j e there other => ?_⟩
    exact others j e.1 (List.getElem?_zip_eq_some.mp there).1 other
  obtain ⟨j, there, own, rest⟩ := paired.moved moved.cells refused
  obtain ⟨column, value'⟩ := List.getElem?_zip_eq_some.mp there
  refine ⟨j, _, ⟨column, own, fun i d known other => ?_⟩, value, value'⟩
  have within : i < r'.values.length := moved.whole' ▸ (List.getElem?_eq_some_iff.mp known).1
  exact rest i (d, r'.values[i]) (List.getElem?_zip_eq_some.mpr ⟨known, List.getElem?_eq_getElem within⟩) other

/-- No more than one column is the marker. -/
def Single (columns : List String) (marker : String) : Prop :=
  ∀ (i j : Nat) (c d : String), columns[i]? = some c → columns[j]? = some d → Text.lower c = Text.lower marker →
    Text.lower d = Text.lower marker → i = j

theorem Rearranged.named (moved : Rearranged extra r r') {marker : String} (single : Single r.columns marker)
    (unmarked : ∀ e ∈ extra, Text.lower e.1 ≠ Text.lower marker) {i : Nat}
    (named : named? r.columns marker = some i) :
    ∃ j v, named? r'.columns marker = some j ∧ r.values[i]? = some v ∧ r'.values[j]? = some v := by
  obtain ⟨inside, own, _⟩ := List.findIdx?_eq_some_iff_getElem.mp named
  have here := List.getElem?_eq_getElem inside
  have sole : Sole (fun c => decide (Text.lower c = Text.lower marker)) r.columns i r.columns[i] := by
    refine ⟨here, own, fun j d there other => decide_eq_false fun same => other ?_⟩
    exact single j i d _ there here same (of_decide_eq_true own)
  obtain ⟨j, v, ⟨there, own', others⟩, value, value'⟩ :=
    moved.sole (fun e member => decide_eq_false (unmarked e member)) sole
  refine ⟨j, v, List.findIdx?_eq_some_iff_getElem.mpr ?_, value, value'⟩
  obtain ⟨within, same⟩ := List.getElem?_eq_some_iff.mp there
  refine ⟨within, same ▸ own', fun j' before => ?_⟩
  have known := List.getElem?_eq_getElem (show j' < r'.columns.length by omega)
  exact ne_true_of_eq_false (others j' _ known (by omega))

end Row

namespace MatcherChain

variable {chain : MatcherChain} (unbroken : chain.broken = false)
include unbroken

theorem accepts_unbroken (column name : String) :
    chain.accepts column name = .ok (chain.usable.any (·.accepts column name)) := by
  rw [accepts_eq, unbroken]
  cases chain.usable.any (·.accepts column name) <;> rfl

theorem liesUnder_unbroken (column lead : String) :
    chain.liesUnder column lead = .ok (chain.usable.any (·.liesUnder column lead)) := by
  rw [liesUnder_eq, unbroken]
  cases chain.usable.any (·.liesUnder column lead) <;> rfl

theorem anyUnder_unbroken (lead : String) (columns : List String) :
    chain.anyUnder lead columns =
      .ok (columns.any fun c => chain.usable.any (·.liesUnder c lead)) := by
  induction columns with
  | nil => rfl
  | cons c cs ih =>
    simp only [anyUnder, liesUnder_unbroken unbroken, List.any_cons]
    cases chain.usable.any (·.liesUnder c lead) with
    | true => rfl
    | false => exact ih

theorem find_moved {extra : List (String × Value)} {r r' : Row} (moved : r.Rearranged extra r') {name : String}
    (refused : ∀ e ∈ extra, chain.accepts e.1 name = .ok false) (label label' : Option String) {o : Option Nat}
    (found : chain.find name r.columns label = .ok o) :
    ∃ o', chain.find name r'.columns label' = .ok o' ∧
      (o = none ∧ o' = none ∨ ∃ i j v, o = some i ∧ o' = some j ∧ r.values[i]? = some v ∧ r'.values[j]? = some v) := by
  have tested := accepts_unbroken unbroken
  cases o with
  | none =>
    refine ⟨none, find_refused (fun c member => ?_) _, .inl ⟨rfl, rfl⟩⟩
    rcases List.mem_append.mp (moved.columns.mem_iff.mp member) with own | added
    · exact find_none found c own
    · obtain ⟨e, he, rfl⟩ := List.mem_map.mp added
      exact refused e he
  | some i =>
    obtain ⟨c, here, accepted, others⟩ := find_some found
    have only : Sole (fun c => chain.usable.any (·.accepts c name)) r.columns i c :=
      ⟨here, Except.ok.inj ((tested c name).symm.trans accepted),
        fun j d there other => Except.ok.inj ((tested d name).symm.trans (others j d there other))⟩
    obtain ⟨j, v, ⟨there, passes, rest⟩, value, value'⟩ :=
      moved.sole (fun e member => Except.ok.inj ((tested e.1 name).symm.trans (refused e member))) only
    have found' : chain.Only name r'.columns j := ⟨c, there, (tested c name).trans (congrArg _ passes),
      fun k d known other => (tested d name).trans (congrArg _ (rest k d known other))⟩
    exact ⟨some j, found'.find _, .inr ⟨i, j, v, rfl, rfl, value, value'⟩⟩

theorem anyUnder_moved {extra : List (String × Value)} {r r' : Row} (moved : r.Rearranged extra r') {lead : String}
    (outside : ∀ e ∈ extra, chain.liesUnder e.1 lead = .ok false) :
    chain.anyUnder lead r'.columns = chain.anyUnder lead r.columns := by
  have added : (extra.map (·.1)).any (fun c => chain.usable.any (·.liesUnder c lead)) = false := by
    refine List.any_eq_false.mpr fun c member => ?_
    obtain ⟨e, he, rfl⟩ := List.mem_map.mp member
    exact ne_true_of_eq_false (Except.ok.inj ((liesUnder_unbroken unbroken e.1 lead).symm.trans (outside e he)))
  rw [anyUnder_unbroken unbroken, anyUnder_unbroken unbroken, moved.columns.any_eq, List.any_append, added,
    Bool.or_false]

end MatcherChain
end RowMapping
