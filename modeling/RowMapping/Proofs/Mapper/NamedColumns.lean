import RowMapping.Proofs.Column.Verdicts
import RowMapping.Proofs.Mapper.OwnColumn
import RowMapping.Proofs.Mapper.Reading

/-! Columns by name without regard to case. Named access to a row and the null marker of a class compare small
letters, the matcher that ignores case compares case-free forms. Texts of equal small letters have equal case-free
forms, but not the other way round: so the first two find no column but such as the matcher takes, and miss those
that are equal to the name in the case-free form only. -/
namespace RowMapping

open Text

namespace Text

/-- Each letter has for its case-free form its small letter, wherever it stands. -/
def Level (s : String) : Prop := ∀ c ∈ s.toList, foldChar c = lowerChar c ∧ c.toNat ≠ 0x3A3

instance (s : String) : Decidable (Level s) :=
  List.decidableBAll (fun c : Char => foldChar c = lowerChar c ∧ c.toNat ≠ 0x3A3) s.toList

theorem lowerFrom_level {cs : List Char} (level : ∀ c ∈ cs, foldChar c = lowerChar c ∧ c.toNat ≠ 0x3A3)
    (after : Bool) : lowerFrom after cs = cs.flatMap foldChar := by
  induction cs generalizing after with
  | nil => rfl
  | cons c cs ih =>
    obtain ⟨own, other⟩ := level c List.mem_cons_self
    rw [lowerFrom, ih fun d member => level d (List.mem_cons_of_mem _ member), List.flatMap_cons, own]
    simp only [other, decide_false, Bool.false_and, Bool.false_eq_true, if_false]

theorem toList_lower {s : String} (level : Level s) : (lower s).toList = fold s := by
  rw [lower, String.toList_ofList, lowerFrom_level level, fold]

theorem fold_of_lower {s t : String} (same : lower s = lower t) : fold s = fold t := by
  rw [← fold_lower s, same, fold_lower]

theorem lower_of_fold {s t : String} (hs : Level s) (ht : Level t) (same : fold s = fold t) : lower s = lower t := by
  rw [← String.toList_inj, toList_lower hs, toList_lower ht, same]

end Text

namespace Row

/-- Every look-up by name comes to the column at this position: its index, its value, and whether that is null for
the marker of a class. -/
def Finds (row : Row) (name : String) (i : Nat) : Prop :=
  ∃ v, row.values[i]? = some v ∧ row.indexOf name = .ok i ∧
    row.getNamed name = .ok (v, { row with wasNull := v.isNull }) ∧
    ∀ w, ((isNullMarked (some name)).run row).run w = (.ok (v.isNull, { row with wasNull := v.isNull }), w)

def Misses (row : Row) (name : String) : Prop :=
  row.indexOf name = .error (.missingColumn name row.columns) ∧
    row.getNamed name = .error (.missingColumn name row.columns) ∧
    ∀ w, ((isNullMarked (some name)).run row).run w = (.error (.missingColumn name row.columns), w)

def lone (column : String) : Row := ⟨[column], [.null], false⟩

def Matches (name column : String) : Prop := Matcher.caseInsensitive.accepts column name = true

/-- The look-ups by name and the matcher agree: on each column by itself, on whether there is one, and on the one
that the matcher finds. -/
structure NamedAlike (row : Row) (name : String) : Prop where
  each : ∀ c ∈ row.columns, (lone c).Finds name 0 ↔ Matches name c
  missing : row.Misses name ↔ ∀ c ∈ row.columns, ¬ Matches name c
  found : ∀ i, (MatcherChain.of [.caseInsensitive]).find name row.columns none = .ok (some i) → row.Finds name i

theorem matches_iff {name column : String} : Matches name column ↔ fold column = fold name := by
  rw [Matches, Matcher.accepts, decide_eq_true_eq]

section Named

variable {row : Row} {name : String}

theorem get_at {i : Nat} {v : Value} (here : row.values[i]? = some v) :
    row.get i = .ok (v, { row with wasNull := v.isNull }) := by
  have positive : ¬ ((i : Int) < 0) := by omega
  simp only [get, positive, if_false, Int.toNat_natCast, here]

theorem finds_of_named (whole : row.columns.length = row.values.length) {i : Nat}
    (named : named? row.columns name = some i) : row.Finds name i := by
  have inside : i < row.values.length := by
    obtain ⟨inside, _⟩ := List.findIdx?_eq_some_iff_getElem.mp named
    exact whole ▸ inside
  have here := List.getElem?_eq_getElem inside
  have indexed : row.indexOf name = .ok i := by rw [indexOf, named]
  refine ⟨_, here, indexed, ?_, fun w => ?_⟩
  · rw [getNamed, indexed]
    exact get_at here
  · have read : Reads w.schema (isNullMarked (some name)) row row.values[i].isNull
        { row with wasNull := row.values[i].isNull } := by
      refine reads_bind (reads_pure row row) ?_
      simp only [named]
      exact reads_bind (reads_column here) reads_wasNull
    exact read w rfl

theorem misses_of_unnamed (unnamed : named? row.columns name = none) : row.Misses name := by
  have missing : row.indexOf name = .error (.missingColumn name row.columns) := by rw [indexOf, unnamed]
  refine ⟨missing, ?_, fun w => ?_⟩
  · rw [getNamed, missing]
    rfl
  · have known : ((MonadState.get : Reading Row).run row).run w = (.ok (row, row), w) := rfl
    refine (runs_bind known).trans ?_
    simp only [unnamed]
    rfl

theorem named?_of_finds {i : Nat} (found : row.Finds name i) : named? row.columns name = some i := by
  obtain ⟨v, _, indexed, _⟩ := found
  rw [indexOf] at indexed
  split at indexed
  · next named => exact Except.ok.inj indexed ▸ named
  · contradiction

theorem unnamed_of_misses (missed : row.Misses name) : named? row.columns name = none := by
  have indexed := missed.1
  rw [indexOf] at indexed
  split at indexed
  · contradiction
  · next unnamed => exact unnamed

theorem misses_iff : row.Misses name ↔ ∀ c ∈ row.columns, lower c ≠ lower name := by
  constructor
  · intro missed c member same
    have unnamed := List.findIdx?_eq_none_iff.mp (unnamed_of_misses missed) c member
    exact of_decide_eq_false unnamed same
  · intro other
    exact misses_of_unnamed (List.findIdx?_eq_none_iff.mpr fun c member => decide_eq_false (other c member))

theorem lone_finds {column : String} : (lone column).Finds name 0 ↔ lower column = lower name := by
  constructor
  · intro found
    obtain ⟨_, same, _⟩ := List.findIdx?_eq_some_iff_getElem.mp (named?_of_finds found)
    exact of_decide_eq_true same
  · intro same
    refine finds_of_named rfl (List.findIdx?_eq_some_iff_getElem.mpr ⟨Nat.one_pos, decide_eq_true same, nofun⟩)

theorem finds_or_misses (whole : row.columns.length = row.values.length) (name : String) :
    (∃ i c, row.columns[i]? = some c ∧ lower c = lower name ∧ row.Finds name i) ∨ row.Misses name := by
  cases named : named? row.columns name with
  | none => exact .inr (misses_of_unnamed named)
  | some i =>
    obtain ⟨inside, same, _⟩ := List.findIdx?_eq_some_iff_getElem.mp named
    exact .inl ⟨i, _, List.getElem?_eq_getElem inside, of_decide_eq_true same, finds_of_named whole named⟩

theorem finds_or_misses_of_found (whole : row.columns.length = row.values.length) {i : Nat}
    (found : (MatcherChain.of [.caseInsensitive]).find name row.columns none = .ok (some i)) :
    row.Finds name i ∨ row.Misses name := by
  obtain ⟨_, only⟩ := (MatcherChain.find_some_iff none i).mp found
  refine (finds_or_misses whole name).imp_left ?_
  rintro ⟨j, c, here, same, finds⟩
  have taken : MatcherChain.Taken [.caseInsensitive] name row.columns j :=
    ⟨c, here, _, List.mem_singleton_self _, matches_iff.mpr (fold_of_lower same)⟩
  exact only j taken ▸ finds

theorem namedAlike_iff (whole : row.columns.length = row.values.length) :
    row.NamedAlike name ↔ ∀ c ∈ row.columns, fold c = fold name → lower c = lower name := by
  constructor
  · intro alike c member same
    exact lone_finds.mp ((alike.each c member).mpr (matches_iff.mpr same))
  · intro level
    have each : ∀ c ∈ row.columns, Matches name c ↔ lower c = lower name := fun c member =>
      matches_iff.trans ⟨level c member, fold_of_lower⟩
    refine ⟨fun c member => lone_finds.trans (each c member).symm, misses_iff.trans ?_, fun i found => ?_⟩
    · exact forall₂_congr fun c member => not_congr (each c member).symm
    · obtain ⟨⟨c, here, m, member, accepted⟩, _⟩ := (MatcherChain.find_some_iff none i).mp found
      rw [List.mem_singleton] at member
      subst member
      refine (finds_or_misses_of_found whole found).resolve_right fun missed => ?_
      have present := List.mem_of_getElem? here
      exact misses_iff.mp missed c present ((each c present).mp accepted)

end Named

/-- Index, named access and null marker come to one column of every row, which the matcher that ignores case takes
as well, or all tell that it is missing, as they do where the matcher takes none. Where it takes one column alone,
they find that one or none. They agree with it if and only if every column that is the name in the case-free form is
the name in small letters; so they do where case-free forms are small letters. -/
theorem named_lookups {row : Row} (whole : row.columns.length = row.values.length) (name : String) :
    ((∃ i c, row.columns[i]? = some c ∧ Matches name c ∧ row.Finds name i) ∨ row.Misses name) ∧
    ((∀ c ∈ row.columns, ¬ Matches name c) → row.Misses name) ∧
    (∀ i, (MatcherChain.of [.caseInsensitive]).find name row.columns none = .ok (some i) →
      row.Finds name i ∨ row.Misses name) ∧
    (row.NamedAlike name ↔ ∀ c ∈ row.columns, fold c = fold name → lower c = lower name) ∧
    (Level name → (∀ c ∈ row.columns, Level c) → row.NamedAlike name) := by
  refine ⟨?_, fun unmatched => ?_, fun i => finds_or_misses_of_found whole, namedAlike_iff whole, ?_⟩
  · refine (finds_or_misses whole name).imp_left ?_
    rintro ⟨i, c, here, same, finds⟩
    exact ⟨i, c, here, matches_iff.mpr (fold_of_lower same), finds⟩
  · exact misses_iff.mpr fun c member same => unmatched c member (matches_iff.mpr (fold_of_lower same))
  · intro plain level
    exact (namedAlike_iff whole).mpr fun c member => lower_of_fold (level c member) plain

/-- An accented name is found in either case. -/
theorem named_lookups_accented : (Row.mk ["id", "\u00e9tat"] [.int 1, .null] false).NamedAlike "\u00c9TAT" ∧
    (Row.mk ["id", "\u00e9tat"] [.int 1, .null] false).Finds "\u00c9TAT" 1 := by
  have whole : (Row.mk ["id", "\u00e9tat"] [.int 1, .null] false).columns.length = 2 := rfl
  obtain ⟨_, _, _, _, alike⟩ := named_lookups whole "\u00c9TAT"
  have agrees := alike (by decide +kernel) (by decide +kernel)
  exact ⟨agrees, agrees.found 1 rfl⟩

/-- The matcher takes a column with a sharp s for its name in capitals, and neither named access nor a null marker
finds it. -/
theorem sharp_s_missed : (MatcherChain.of [.caseInsensitive]).find "STRASSE" ["stra\u00dfe"] none = .ok (some 0) ∧
    (Row.mk ["stra\u00dfe"] [.int 1] false).Misses "STRASSE" ∧
    ¬ (Row.mk ["stra\u00dfe"] [.int 1] false).NamedAlike "STRASSE" := by
  have missed : (Row.mk ["stra\u00dfe"] [.int 1] false).Misses "STRASSE" := misses_iff.mpr (by decide +kernel)
  refine ⟨by rfl, missed, fun alike => ?_⟩
  have unmatched := alike.missing.mp missed "stra\u00dfe" List.mem_cons_self
  exact unmatched (matches_iff.mpr (by decide +kernel))

end Row
end RowMapping
