import RowMapping.Column.Search
import RowMapping.Proofs.Text.Folded

/-! Searches among columns of ASCII text that differ by more than case and underscores. The standard
matchers then accept one column at most, and small letters in the name make no difference. -/
namespace RowMapping

namespace Text

def Ascii (s : String) : Prop := ∀ c ∈ s.toList, c.toNat < 128

instance (s : String) : Decidable (Ascii s) :=
  List.decidableBAll (fun c : Char => c.toNat < 128) s.toList

/-- Small letters take one character, to which the capital ones are folded; only the underscore is folded
to an underscore. -/
theorem ascii_table : ∀ n < 128, ∃ d, lowerChar (Char.ofNat n) = [d] ∧ d.toNat < 128 ∧
    (d = '_' ↔ Char.ofNat n = '_') ∧ foldChar (Char.ofNat n) = [d] ∧ Char.ofNat n ≠ Char.ofNat 0x3A3 := by
  -- The test goes through the letters in the list; a quantifier over characters could be decided by trying all.
  have table : ∀ n < 128, ((lowerChar (Char.ofNat n)).any fun d => decide (lowerChar (Char.ofNat n) = [d] ∧
      d.toNat < 128 ∧ (d = '_' ↔ Char.ofNat n = '_') ∧
      foldChar (Char.ofNat n) = [d] ∧ Char.ofNat n ≠ Char.ofNat 0x3A3)) = true := by
    decide +kernel
  intro n below
  obtain ⟨d, _, found⟩ := List.any_eq_true.mp (table n below)
  exact ⟨d, of_decide_eq_true found⟩

theorem ascii_lowerChar {c : Char} (ascii : c.toNat < 128) :
    ∃ d, lowerChar c = [d] ∧ d.toNat < 128 ∧ (d = '_' ↔ c = '_') ∧ foldChar c = [d] ∧ c.toNat ≠ 0x3A3 := by
  have found := ascii_table c.toNat ascii
  rw [Char.ofNat_toNat] at found
  obtain ⟨d, small, low, score, folded, _⟩ := found
  exact ⟨d, small, low, score, folded, by omega⟩

theorem ascii_append {s t : String} : Ascii (s ++ t) ↔ Ascii s ∧ Ascii t := by
  simp only [Ascii, String.toList_append, List.mem_append]
  constructor
  · intro both
    exact ⟨fun c hc => both c (.inl hc), fun c hc => both c (.inr hc)⟩
  · rintro ⟨first, second⟩ c (hc | hc)
    · exact first c hc
    · exact second c hc

/-- The two spell one name, in small letters and capitals: they are squashed to one text, and as long. -/
structure Respelled (s t : String) : Prop where
  ascii : Ascii s
  squash : squash s = squash t
  length : s.length = t.length

theorem lowerFrom_ascii {cs : List Char} (ascii : ∀ c ∈ cs, c.toNat < 128) (after : Bool) :
    (∀ d ∈ lowerFrom after cs, d.toNat < 128) ∧ (lowerFrom after cs).length = cs.length := by
  induction cs generalizing after with
  | nil => simp [lowerFrom]
  | cons c cs ih =>
    obtain ⟨d, small, low, _, _, other⟩ := ascii_lowerChar (ascii c List.mem_cons_self)
    obtain ⟨rest, length⟩ :=
      ih (fun c hc => ascii c (List.mem_cons_of_mem _ hc))
        (if isCaseIgnorable c then after else isCased c)
    simp only [lowerFrom, other, decide_false, Bool.false_and, Bool.false_eq_true, if_false, small,
      List.singleton_append]
    refine ⟨?_, by simp [length]⟩
    intro x hx
    rcases List.mem_cons.mp hx with rfl | hx
    · exact low
    · exact rest x hx

theorem respelled_lower {s : String} (ascii : Ascii s) : Respelled (lower s) s := by
  obtain ⟨low, length⟩ := lowerFrom_ascii ascii false
  refine ⟨?_, squash_lower s, ?_⟩
  · simpa only [Ascii, lower, String.toList_ofList] using low
  · simpa only [lower, String.length_ofList, String.length_toList] using length

theorem Respelled.append {s t u : String} (same : Respelled s t) (ascii : Ascii u) :
    Respelled (s ++ u) (t ++ u) := by
  refine ⟨ascii_append.mpr ⟨same.ascii, ascii⟩, ?_, ?_⟩
  · rw [squash_append, squash_append, same.squash]
  · rw [String.length_append, String.length_append, same.length]

theorem Respelled.lower {s t : String} (same : Respelled s t) : Respelled (lower s) t := by
  have small := respelled_lower same.ascii
  exact ⟨small.ascii, small.squash.trans same.squash, small.length.trans same.length⟩

theorem squash_of_fold {s t : String} (hs : Ascii s) (ht : Ascii t) (same : fold s = fold t) :
    squash s = squash t := by
  have filtered : ∀ cs : List Char, (∀ c ∈ cs, c.toNat < 128) →
      (cs.filter (· != '_')).flatMap foldChar = (cs.flatMap foldChar).filter (· != '_') := by
    intro cs ascii
    induction cs with
    | nil => rfl
    | cons c cs ih =>
      obtain ⟨d, _, _, score, folded, _⟩ := ascii_lowerChar (ascii c List.mem_cons_self)
      have rest := ih fun c hc => ascii c (List.mem_cons_of_mem _ hc)
      by_cases here : c = '_'
      · simp [here, rest, show foldChar '_' = ['_'] from rfl]
      · have there : d ≠ '_' := fun eq => here (score.mp eq)
        simp [here, there, folded, rest]
  rw [squash, squash, filtered _ hs, filtered _ ht]
  exact congrArg _ same

end Text

open Text

abbrev standardChain : MatcherChain := .ofEntries (Matcher.standard.map some)

theorem standard_accepts {column name : String} (hc : Ascii column) (hn : Ascii name) :
    standardChain.accepts column name = .ok (decide (squash column = squash name)) := by
  have asked : standardChain.accepts column name =
      if (decide (fold column = fold name) || (decide (squash column = squash name) || false)) = true
      then .ok true else .ok false := rfl
  rw [asked]
  by_cases same : squash column = squash name
  · simp [same]
  · have unfolded : fold column ≠ fold name := fun folds => same (squash_of_fold hc hn folds)
    simp [same, unfolded]

theorem standard_liesUnder (column lead : String) :
    ∃ b, standardChain.liesUnder column lead = .ok b ∧
      (squash lead <+: squash column → b = true) := by
  have asked : standardChain.liesUnder column lead =
      if ((fold lead).isPrefixOf (fold column) || ((squash lead).isPrefixOf (squash column) || false))
        = true then .ok true else .ok false := rfl
  rw [asked]
  by_cases under : squash lead <+: squash column
  · exact ⟨true, by simp [List.isPrefixOf_iff_prefix, under], fun _ => rfl⟩
  · by_cases folds : (fold lead).isPrefixOf (fold column) = true
    · exact ⟨true, by simp [folds], fun _ => rfl⟩
    · exact ⟨false, by simp [folds, List.isPrefixOf_iff_prefix, under], fun h => absurd h under⟩

theorem standard_anyUnder {columns : List String} {lead column : String} (member : column ∈ columns)
    (under : squash lead <+: squash column) : standardChain.anyUnder lead columns = .ok true := by
  induction columns with
  | nil => exact absurd member List.not_mem_nil
  | cons c cs ih =>
    obtain ⟨b, asked, found⟩ := standard_liesUnder c lead
    simp only [MatcherChain.anyUnder, asked]
    cases b with
    | true => rfl
    | false =>
      rcases List.mem_cons.mp member with rfl | later
      · exact absurd (found under) Bool.false_ne_true
      · exact ih later

theorem searchFrom_refused {chain : MatcherChain} {name label : String} {columns : List String}
    (refused : ∀ c ∈ columns, chain.accepts c name = .ok false) (i : Nat)
    (found : Option (Nat × String)) :
    chain.searchFrom name label columns i found = .ok (found.map (·.1)) := by
  induction columns generalizing i with
  | nil => rfl
  | cons c cs ih =>
    simp only [MatcherChain.searchFrom, refused c List.mem_cons_self]
    exact ih (fun c hc => refused c (List.mem_cons_of_mem _ hc)) (i + 1)

theorem searchFrom_single {chain : MatcherChain} {name label : String} {columns : List String}
    {index : Nat} {column : String} (here : columns[index]? = some column)
    (accepted : chain.accepts column name = .ok true)
    (refused : ∀ j c, columns[j]? = some c → j ≠ index → chain.accepts c name = .ok false) (i : Nat) :
    chain.searchFrom name label columns i none = .ok (some (i + index)) := by
  induction columns generalizing index i with
  | nil => simp at here
  | cons c cs ih =>
    cases index with
    | zero =>
      cases here
      have rest : ∀ d ∈ cs, chain.accepts d name = .ok false := by
        intro d hd
        obtain ⟨j, known⟩ := List.getElem?_of_mem hd
        exact refused (j + 1) d known (Nat.succ_ne_zero j)
      simp only [MatcherChain.searchFrom, accepted]
      exact searchFrom_refused rest (i + 1) _
    | succ index =>
      have first := refused 0 c rfl (Nat.succ_ne_zero index).symm
      have rest := ih here (fun j d known other =>
        refused (j + 1) d known (fun eq => other (Nat.succ.inj eq))) (i + 1)
      simp only [MatcherChain.searchFrom, first]
      rw [show i + (index + 1) = i + 1 + index by omega]
      exact rest

/-- The columns are ASCII texts, and no two are equal but for case and underscores. -/
structure Apart (columns : List String) : Prop where
  ascii : ∀ c ∈ columns, Ascii c
  distinct : (columns.map squash).Nodup

theorem Apart.find {columns : List String} (apart : Apart columns) {index : Nat} {name spelled : String}
    (here : columns[index]? = some name) (same : Respelled spelled name) (label : Option String) :
    standardChain.find spelled columns label = .ok (some index) := by
  have accepts : ∀ j c, columns[j]? = some c →
      standardChain.accepts c spelled = .ok (decide (squash c = squash spelled)) :=
    fun j c known => standard_accepts (apart.ascii c (List.mem_of_getElem? known)) same.ascii
  have accepted : standardChain.accepts name spelled = .ok true := by
    rw [accepts index name here, same.squash, decide_eq_true rfl]
  have refused : ∀ j c, columns[j]? = some c → j ≠ index →
      standardChain.accepts c spelled = .ok false := by
    intro j c known other
    have different : squash c ≠ squash spelled := by
      intro equal
      have one : (columns.map squash)[j]? = (columns.map squash)[index]? := by
        rw [List.getElem?_map, List.getElem?_map, known, here, Option.map_some, Option.map_some, equal,
          same.squash]
      have inside : j < (columns.map squash).length := by
        rw [List.length_map]
        exact (List.getElem?_eq_some_iff.mp known).1
      exact other (List.getElem?_inj inside apart.distinct |>.mp one)
    rw [accepts j c known, decide_eq_false different]
  rw [MatcherChain.find, searchFrom_single here accepted refused 0, Nat.zero_add]

end RowMapping
