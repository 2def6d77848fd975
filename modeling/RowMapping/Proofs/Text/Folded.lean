import RowMapping.Proofs.Text.Lowered

/-! A text and its small letters are one without case: folding takes no notice of them, nor of underscores
where those do not count. -/
namespace RowMapping.Text

def squashChar (c : Char) : List Char := if c != '_' then foldChar c else []

theorem squash_eq (s : String) : squash s = s.toList.flatMap squashChar := by
  unfold squash
  induction s.toList with
  | nil => rfl
  | cons c cs ih =>
    rw [List.flatMap_cons, ← ih, List.filter_cons, squashChar]
    split
    · rfl
    · rfl

/-- A character and its small letters have one case-free form, and only an underscore has one for a small letter. -/
theorem lowerChar_forms (c : Char) :
    (lowerChar c).flatMap foldChar = foldChar c ∧ ('_' ∈ lowerChar c → c = '_') := by
  constructor
  · have same : (lowerChar c).map foldChar = (lowerChar c).map caseFree := by
      refine List.map_congr_left fun d member => ?_
      rw [foldChar, (small_lowerChar c d member).1, List.flatMap_singleton]
    rw [List.flatMap_def, same, ← List.flatMap_def, foldChar]
  · intro member
    rcases lowerChar_cases c with two | own | ⟨d, other, _, beyond⟩
    · rw [lowerChar, if_pos two] at member
      exact absurd member (by decide)
    · rw [own.1, List.mem_singleton] at member
      exact member.symm
    · rw [other, List.mem_singleton] at member
      exact absurd member beyond

theorem squashChar_lowerChar (c : Char) : (lowerChar c).flatMap squashChar = squashChar c := by
  by_cases mark : c = '_'
  · subst mark
    rfl
  · obtain ⟨folded, marked⟩ := lowerChar_forms c
    have kept : (lowerChar c).map squashChar = (lowerChar c).map foldChar := by
      refine List.map_congr_left fun d member => if_pos (bne_iff_ne.mpr ?_)
      rintro rfl
      exact mark (marked member)
    rw [List.flatMap_def, kept, ← List.flatMap_def, folded, squashChar, if_pos (bne_iff_ne.mpr mark)]

/-- What does not tell characters from their small letters, nor the small sigmas from each other, does not tell a
text from its small letters. -/
theorem flatMap_lowerFrom {form : Char → List Char} (each : ∀ c, (lowerChar c).flatMap form = form c)
    (sigma : form (Char.ofNat 0x3C2) = form (Char.ofNat 0x3A3)) (cs : List Char) (after : Bool) :
    (lowerFrom after cs).flatMap form = cs.flatMap form := by
  induction cs generalizing after with
  | nil => rfl
  | cons c cs ih =>
    rw [lowerFrom, List.flatMap_append, ih, List.flatMap_cons]
    split
    · next final =>
      have capital : c = Char.ofNat 0x3A3 := by
        rw [← Char.ofNat_toNat c]
        simp only [Bool.and_eq_true, decide_eq_true_eq] at final
        rw [final.1.1]
      rw [List.flatMap_singleton, sigma, capital]
    · rw [each]

theorem fold_lower (s : String) : fold (lower s) = fold s := by
  simp only [fold, lower, String.toList_ofList]
  exact flatMap_lowerFrom (fun c => (lowerChar_forms c).1) (by decide) s.toList false

theorem squash_lower (s : String) : squash (lower s) = squash s := by
  simp only [squash_eq, lower, String.toList_ofList]
  exact flatMap_lowerFrom squashChar_lowerChar (by decide) s.toList false

theorem fold_append (s t : String) : fold (s ++ t) = fold s ++ fold t := by
  rw [fold, String.toList_append, List.flatMap_append, fold, fold]

theorem squash_append (s t : String) : squash (s ++ t) = squash s ++ squash t := by
  rw [squash_eq, String.toList_append, List.flatMap_append, ← squash_eq, ← squash_eq]

end RowMapping.Text
