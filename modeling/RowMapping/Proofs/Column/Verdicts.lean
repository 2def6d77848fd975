import Mathlib.Data.List.OfFn
import Mathlib.Data.List.Range
import RowMapping.Proofs.Column.Rearranged

/-! Searches told in full. What a search comes to is read off the columns that some matcher takes for the name, each
with its position: none, the only one, or the first two of several. So neither the order of the matchers counts nor
how often one is listed, and where the columns change places, a column that was found is found at its new place. -/
namespace RowMapping.MatcherChain

def Taken (ms : List Matcher) (name : String) (columns : List String) (i : Nat) : Prop :=
  ∃ c, columns[i]? = some c ∧ ∃ m ∈ ms, m.accepts c name = true

structure FirstTwo (ms : List Matcher) (name : String) (columns : List String) (i j : Nat) : Prop where
  first : Taken ms name columns i
  second : Taken ms name columns j
  ordered : i < j
  between : ∀ k, Taken ms name columns k → k < j → k = i

def rearranged (columns : List String) (σ : Equiv.Perm (Fin columns.length)) : List String :=
  List.ofFn fun k => columns[σ.symm k]

def reportedAs (name : String) (label : Option String) : String := (label.filter (!·.isEmpty)).getD name

def allTaken (ms : List Matcher) (name : String) (columns : List String) (start : Nat) : List (String × Nat) :=
  (columns.zipIdx start).filter fun p => ms.any (·.accepts p.1 name)

def verdict (label : String) : List (String × Nat) → Except Failure (Option Nat)
  | [] => .ok none
  | [(_, i)] => .ok (some i)
  | (first, _) :: (second, _) :: _ => .error (.ambiguousColumn label first second)

section Verdicts

variable {label : String} {cs : List (String × Nat)}

theorem verdict_none : verdict label cs = .ok none ↔ cs = [] := by
  fun_cases verdict label cs <;> simp

theorem verdict_some {i : Nat} : verdict label cs = .ok (some i) ↔ ∃ c, cs = [(c, i)] := by
  fun_cases verdict label cs <;> simp

theorem verdict_error {e : Failure} : verdict label cs = .error e ↔
    ∃ a i b j rest, cs = (a, i) :: (b, j) :: rest ∧ e = .ambiguousColumn label a b := by
  match cs with
  | [] => exact ⟨nofun, nofun⟩
  | [p] => exact ⟨nofun, nofun⟩
  | (a, i) :: (b, j) :: rest =>
    constructor
    · intro told
      exact ⟨a, i, b, j, rest, rfl, (Except.error.inj told).symm⟩
    · rintro ⟨_, _, _, _, _, ⟨⟩, rfl⟩
      rfl

end Verdicts

section Taken

variable {ms : List Matcher} {name : String} {columns : List String}

/-- A search tells what there is to tell of the column found before and of those that are taken from here on. -/
theorem searchFrom_eq (label : String) (start : Nat) (found : Option (Nat × String)) :
    (of ms).searchFrom name label columns start found =
      verdict label ((found.map Prod.swap).toList ++ allTaken ms name columns start) := by
  induction columns generalizing start found with
  | nil => cases found <;> rfl
  | cons c cs ih =>
    have asked : (of ms).accepts c name = .ok (ms.any (·.accepts c name)) := accepts_unbroken rfl c name
    simp only [searchFrom, asked, allTaken, List.zipIdx_cons, List.filter_cons]
    cases ms.any (·.accepts c name) with
    | false => exact ih (start + 1) found
    | true =>
      cases found with
      | none => exact ih (start + 1) (some (start, c))
      | some first => rfl

theorem find_eq (label : Option String) : (of ms).find name columns label =
    verdict (reportedAs name label) (allTaken ms name columns 0) :=
  searchFrom_eq _ 0 none

theorem mem_allTaken {c : String} {i : Nat} :
    (c, i) ∈ allTaken ms name columns 0 ↔ columns[i]? = some c ∧ ∃ m ∈ ms, m.accepts c name = true := by
  rw [allTaken, List.mem_filter, List.mk_mem_zipIdx_iff_getElem?, List.any_eq_true]

theorem taken_iff {i : Nat} : Taken ms name columns i ↔ ∃ c, (c, i) ∈ allTaken ms name columns 0 := by
  simp only [mem_allTaken, Taken]

theorem allTaken_ordered : (allTaken ms name columns 0).Pairwise fun p q => p.2 < q.2 := by
  refine List.Pairwise.filter _ (List.pairwise_map.mp ?_)
  rw [List.zipIdx_map_snd]
  exact List.pairwise_lt_range'

theorem allTaken_congr {ns : List Matcher} (same : ∀ m, m ∈ ns ↔ m ∈ ms) :
    allTaken ns name columns 0 = allTaken ms name columns 0 := by
  refine List.filter_congr fun p _ => ?_
  rw [Bool.eq_iff_iff, List.any_eq_true, List.any_eq_true]
  simp only [same]

theorem find_none_iff (label : Option String) :
    (of ms).find name columns label = .ok none ↔ ∀ i, ¬ Taken ms name columns i := by
  rw [find_eq, verdict_none, List.eq_nil_iff_forall_not_mem]
  constructor
  · intro none i there
    obtain ⟨c, member⟩ := taken_iff.mp there
    exact none (c, i) member
  · intro none p member
    exact none p.2 (taken_iff.mpr ⟨p.1, member⟩)

theorem find_some_iff (label : Option String) (i : Nat) : (of ms).find name columns label = .ok (some i) ↔
    Taken ms name columns i ∧ ∀ j, Taken ms name columns j → j = i := by
  rw [find_eq, verdict_some]
  constructor
  · rintro ⟨c, alone⟩
    refine ⟨taken_iff.mpr ⟨c, alone ▸ List.mem_singleton_self _⟩, fun j there => ?_⟩
    obtain ⟨d, member⟩ := taken_iff.mp there
    rw [alone, List.mem_singleton] at member
    exact congrArg Prod.snd member
  · rintro ⟨here, only⟩
    obtain ⟨c, member⟩ := taken_iff.mp here
    have ordered : (allTaken ms name columns 0).Pairwise fun p q => p.2 < q.2 := allTaken_ordered
    have others : ∀ p ∈ allTaken ms name columns 0, p.2 = i := fun p other => only p.2 (taken_iff.mpr ⟨p.1, other⟩)
    -- Two that are taken would stand at one position, though one stands before the other.
    match listed : allTaken ms name columns 0 with
    | [] => rw [listed] at member; contradiction
    | [p] => rw [listed, List.mem_singleton] at member; exact ⟨c, by rw [member]⟩
    | p :: q :: rest =>
      rw [listed] at ordered others
      have before := (List.pairwise_cons.mp ordered).1 q List.mem_cons_self
      rw [others p List.mem_cons_self, others q (List.mem_cons_of_mem _ List.mem_cons_self)] at before
      exact absurd before (Nat.lt_irrefl i)

theorem find_refused_iff (label : Option String) : (∃ e, (of ms).find name columns label = .error e) ↔
    (of ms).find name columns label ≠ .ok none ∧ ∀ i, (of ms).find name columns label ≠ .ok (some i) := by
  cases (of ms).find name columns label with
  | error e => exact ⟨fun _ => ⟨nofun, nofun⟩, fun _ => ⟨e, rfl⟩⟩
  | ok o =>
    refine ⟨nofun, fun ⟨missed, found⟩ => ?_⟩
    cases o with
    | none => exact absurd rfl missed
    | some i => exact absurd rfl (found i)

theorem FirstTwo.unique {i j k l : Nat} (two : FirstTwo ms name columns i j) (other : FirstTwo ms name columns k l) :
    i = k ∧ j = l := by
  have notBefore {i j k l : Nat} (two : FirstTwo ms name columns i j) (other : FirstTwo ms name columns k l) :
      l ≤ j := by
    by_contra before
    rw [Nat.not_le] at before
    have one := other.between i two.first (Nat.lt_trans two.ordered before)
    have also := other.between j two.second before
    exact absurd two.ordered (by omega)
  have last : j = l := Nat.le_antisymm (notBefore other two) (notBefore two other)
  exact ⟨other.between i two.first (last ▸ two.ordered), last⟩

theorem firstTwo_of_error {label : Option String} {e : Failure}
    (failed : (of ms).find name columns label = .error e) :
    ∃ i j a b, FirstTwo ms name columns i j ∧ columns[i]? = some a ∧ columns[j]? = some b ∧
      e = .ambiguousColumn (reportedAs name label) a b := by
  rw [find_eq, verdict_error] at failed
  obtain ⟨a, i, b, j, rest, listed, rfl⟩ := failed
  have ordered : (allTaken ms name columns 0).Pairwise fun p q => p.2 < q.2 := allTaken_ordered
  have first : (a, i) ∈ allTaken ms name columns 0 := listed ▸ List.mem_cons_self
  have second : (b, j) ∈ allTaken ms name columns 0 := listed ▸ List.mem_cons_of_mem _ List.mem_cons_self
  rw [listed] at ordered
  obtain ⟨afterFirst, ordered⟩ := List.pairwise_cons.mp ordered
  refine ⟨i, j, a, b, ⟨taken_iff.mpr ⟨a, first⟩, taken_iff.mpr ⟨b, second⟩, afterFirst _ List.mem_cons_self, ?_⟩,
    (mem_allTaken.mp first).1, (mem_allTaken.mp second).1, rfl⟩
  intro k there before
  obtain ⟨c, member⟩ := taken_iff.mp there
  rw [listed, List.mem_cons, List.mem_cons] at member
  rcases member with same | same | later
  · exact congrArg Prod.snd same
  · cases same
    exact absurd before (Nat.lt_irrefl _)
  · exact absurd ((List.pairwise_cons.mp ordered).1 _ later) (Nat.lt_asymm before)

theorem find_error_iff (label : Option String) (e : Failure) : (of ms).find name columns label = .error e ↔
    ∃ i j a b, FirstTwo ms name columns i j ∧ columns[i]? = some a ∧ columns[j]? = some b ∧
      e = .ambiguousColumn (reportedAs name label) a b := by
  refine ⟨firstTwo_of_error, ?_⟩
  rintro ⟨i, j, a, b, two, here, there, rfl⟩
  have refused : ∃ e, (of ms).find name columns label = .error e := by
    refine (find_refused_iff label).mpr ⟨fun missed => ?_, fun k found => ?_⟩
    · exact (find_none_iff label).mp missed i two.first
    · have only := ((find_some_iff label k).mp found).2
      exact absurd two.ordered (by rw [only i two.first, only j two.second]; exact Nat.lt_irrefl k)
  obtain ⟨e, failed⟩ := refused
  obtain ⟨k, l, c, d, other, known, also, rfl⟩ := firstTwo_of_error failed
  obtain ⟨rfl, rfl⟩ := two.unique other
  cases here.symm.trans known
  cases there.symm.trans also
  exact failed

end Taken

section Rearranged

variable {columns : List String} (σ : Equiv.Perm (Fin columns.length))

theorem length_rearranged : (rearranged columns σ).length = columns.length := List.length_ofFn

theorem rearranged_at (i : Fin columns.length) : (rearranged columns σ)[(σ i : Nat)]? = columns[(i : Nat)]? := by
  rw [rearranged, List.getElem?_ofFn, dif_pos (σ i).isLt, List.getElem?_eq_getElem i.isLt]
  simp only [Fin.eta, Equiv.symm_apply_apply, Fin.getElem_fin]

theorem exists_placed {j : Nat} (inside : j < columns.length) : ∃ i, (σ i : Nat) = j :=
  ⟨σ.symm ⟨j, inside⟩, by rw [Equiv.apply_symm_apply]⟩

variable {ms : List Matcher} {name : String}

theorem taken_rearranged (i : Fin columns.length) :
    Taken ms name (rearranged columns σ) (σ i) ↔ Taken ms name columns i := by
  rw [Taken, rearranged_at, Taken]

theorem Taken.lt {i : Nat} (there : Taken ms name columns i) : i < columns.length := by
  obtain ⟨c, known, _⟩ := there
  exact (List.getElem?_eq_some_iff.mp known).1

theorem forall_taken_rearranged {P : Nat → Prop} : (∀ j, Taken ms name (rearranged columns σ) j → P j) ↔
    ∀ i : Fin columns.length, Taken ms name columns i → P (σ i) := by
  constructor
  · intro all i there
    exact all (σ i) ((taken_rearranged σ i).mpr there)
  · intro all j there
    obtain ⟨i, rfl⟩ := exists_placed σ (length_rearranged σ ▸ there.lt)
    exact all i ((taken_rearranged σ i).mp there)

theorem find_none_rearranged (label : Option String) :
    (of ms).find name (rearranged columns σ) label = .ok none ↔ (of ms).find name columns label = .ok none := by
  rw [find_none_iff, find_none_iff]
  refine (forall_taken_rearranged (P := fun _ => False) σ).trans ⟨fun none i there => ?_, fun none i => none i⟩
  exact none ⟨i, there.lt⟩ there

theorem find_some_rearranged (label : Option String) (i : Fin columns.length) :
    (of ms).find name (rearranged columns σ) label = .ok (some (σ i : Nat)) ↔
      (of ms).find name columns label = .ok (some (i : Nat)) := by
  rw [find_some_iff, find_some_iff, taken_rearranged]
  refine and_congr_right fun _ => (forall_taken_rearranged (P := (· = (σ i : Nat))) σ).trans ?_
  constructor
  · intro only j there
    have same : σ ⟨j, there.lt⟩ = σ i := Fin.ext (only ⟨j, there.lt⟩ there)
    exact congrArg Fin.val (σ.injective same)
  · intro only j there
    rw [Fin.ext (only j there)]

theorem find_refused_rearranged (label : Option String) :
    (∃ e, (of ms).find name (rearranged columns σ) label = .error e) ↔
      ∃ e, (of ms).find name columns label = .error e := by
  rw [find_refused_iff, find_refused_iff, ne_eq, find_none_rearranged]
  refine and_congr_right fun _ => ⟨fun refused i known => ?_, fun refused j known => ?_⟩
  · have inside := ((find_some_iff label i).mp known).1.lt
    exact refused _ ((find_some_rearranged σ label ⟨i, inside⟩).mpr known)
  · have inside := ((find_some_iff label j).mp known).1.lt
    obtain ⟨i, rfl⟩ := exists_placed σ (length_rearranged σ ▸ inside)
    exact refused i ((find_some_rearranged σ label i).mp known)

end Rearranged

/-- A search returns a position if and only if the column there, and no other, is taken by some matcher, and nothing
if and only if no column is taken. Otherwise it tells of the first two columns that are taken, in row order. Other
lists of the same matchers come to the same. Where the columns change places, what was found is found at its new
place, and none of the three outcomes becomes another. -/
theorem column_search_exact (ms : List Matcher) (name : String) (columns : List String) (label : Option String) :
    (∀ i, (of ms).find name columns label = .ok (some i) ↔
      Taken ms name columns i ∧ ∀ j, Taken ms name columns j → j = i) ∧
    ((of ms).find name columns label = .ok none ↔ ∀ i, ¬ Taken ms name columns i) ∧
    (∀ e, (of ms).find name columns label = .error e ↔
      ∃ i j a b, FirstTwo ms name columns i j ∧ columns[i]? = some a ∧ columns[j]? = some b ∧
        e = .ambiguousColumn (reportedAs name label) a b) ∧
    (∀ ns, (∀ m, m ∈ ns ↔ m ∈ ms) → (of ns).find name columns label = (of ms).find name columns label) ∧
    ∀ σ : Equiv.Perm (Fin columns.length),
      (∀ i : Fin columns.length, (of ms).find name (rearranged columns σ) label = .ok (some (σ i : Nat)) ↔
        (of ms).find name columns label = .ok (some (i : Nat))) ∧
      ((of ms).find name (rearranged columns σ) label = .ok none ↔ (of ms).find name columns label = .ok none) ∧
      ((∃ e, (of ms).find name (rearranged columns σ) label = .error e) ↔
        ∃ e, (of ms).find name columns label = .error e) := by
  refine ⟨find_some_iff label, find_none_iff label, find_error_iff label, fun ns same => ?_, fun σ => ?_⟩
  · rw [find_eq, find_eq, allTaken_congr same]
  · exact ⟨find_some_rearranged σ label, find_none_rearranged σ label, find_refused_rearranged σ label⟩

/-- A column is found by the standard matchers in the other order, one of them listed twice. -/
theorem column_search_exact_reordered :
    (∀ m, m ∈ [Matcher.snakeCase, .caseInsensitive, .snakeCase] ↔ m ∈ Matcher.standard) ∧
    (of [.snakeCase, .caseInsensitive, .snakeCase]).find "userId" ["id", "USER_ID"] none = .ok (some 1) := by
  have members : ∀ m, m ∈ [Matcher.snakeCase, .caseInsensitive, .snakeCase] ↔ m ∈ Matcher.standard := by
    intro m
    simp only [Matcher.standard, List.mem_cons, List.not_mem_nil, or_false]
    tauto
  obtain ⟨_, _, _, reordered, _⟩ := column_search_exact Matcher.standard "userId" ["id", "USER_ID"] none
  exact ⟨members, (reordered _ members).trans rfl⟩

end RowMapping.MatcherChain
