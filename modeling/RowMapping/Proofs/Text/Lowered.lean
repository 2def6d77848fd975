import RowMapping.Text.Case

/-! Small letters stay as they are when a text is written in small letters again, whatever follows them.
So a lead that was written in small letters is the beginning of every lead that it is part of. -/
namespace RowMapping.Text

namespace LetterRun

variable {r q : LetterRun} {rs : List LetterRun} {n m : Nat}

def last (r : LetterRun) : Nat := r.image + (r.high - r.low)

/-- The forms in `r` are no letters of `q`: they lie apart, or the two take turns. -/
def avoids (r q : LetterRun) : Bool :=
  r.last < q.low || q.high < r.image || r.step = 2 && q.step = 2 && r.image % 2 != q.low % 2

theorem covers_iff : r.covers n = true ↔ r.low ≤ n ∧ n ≤ r.high ∧ (n - r.low) % r.step = 0 := by
  simp [covers, and_assoc]

theorem avoids_iff : r.avoids q = true ↔
    r.last < q.low ∨ q.high < r.image ∨ r.step = 2 ∧ q.step = 2 ∧ r.image % 2 ≠ q.low % 2 := by
  simp [avoids, or_assoc, and_assoc]

theorem le_last (covered : r.covers n = true) : r.image + (n - r.low) ≤ r.last := by
  have inside := covers_iff.mp covered
  rw [last]
  omega

theorem not_covers (avoids : r.avoids q = true) (covered : r.covers n = true) :
    q.covers (r.image + (n - r.low)) = false := by
  have below := le_last covered
  rw [covers_iff] at covered
  refine Bool.eq_false_iff.mpr fun covered' => ?_
  rw [covers_iff] at covered'
  rcases avoids_iff.mp avoids with apart | apart | ⟨two, two', turns⟩
  · omega
  · omega
  · rw [two] at covered
    rw [two'] at covered'
    omega

theorem covered_of_image (found : imageOf? rs n = some m) :
    ∃ r ∈ rs, r.covers n = true ∧ m = r.image + (n - r.low) := by
  induction rs with
  | nil => cases found
  | cons r rs ih =>
    unfold imageOf? at found
    split at found
    · contradiction
    · split at found
      · next covered =>
        cases found
        exact ⟨r, List.mem_cons_self, covered, rfl⟩
      · obtain ⟨q, member, known⟩ := ih found
        exact ⟨q, List.mem_cons_of_mem r member, known⟩

theorem no_image (uncovered : ∀ r ∈ rs, r.covers n = false) : imageOf? rs n = none := by
  induction rs with
  | nil => rfl
  | cons r rs ih =>
    unfold imageOf?
    rw [uncovered r List.mem_cons_self, ih fun q member => uncovered q (List.mem_cons_of_mem r member)]
    split <;> rfl

end LetterRun

def Small (c : Char) : Prop := lowerChar c = [c] ∧ c.toNat ≠ 0x3A3

instance (c : Char) : Decidable (Small c) :=
  inferInstanceAs (Decidable (lowerChar c = [c] ∧ c.toNat ≠ 0x3A3))

/-- No small letter of a capital one is a capital letter itself. -/
theorem forms_avoid : (capitals.all fun r => capitals.all r.avoids) = true := by decide +kernel

/-- Small letters of capital ones are characters beyond the underscore, and other than the capital with two. -/
theorem forms_placed : ∀ r ∈ capitals, 0x5F < r.image ∧ (r.last < 0x130 ∨ 0x130 < r.image) ∧
    (r.last < 0xD800 ∨ 0xDFFF < r.image ∧ r.last < 0x110000) := by decide +kernel

theorem small_of_unlisted {c : Char} (single : c.toNat ≠ 0x130)
    (unlisted : LetterRun.imageOf? capitals c.toNat = none) : Small c := by
  refine ⟨?_, fun sigma => ?_⟩
  · rw [lowerChar, if_neg single, unlisted]
  · have listed : LetterRun.imageOf? capitals 0x3A3 = some 0x3C3 := by decide +kernel
    rw [sigma, listed] at unlisted
    contradiction

theorem small_form {r : LetterRun} (member : r ∈ capitals) {n : Nat} (covered : r.covers n = true) :
    Small (Char.ofNat (r.image + (n - r.low))) ∧ '_' ≠ Char.ofNat (r.image + (n - r.low)) := by
  obtain ⟨beyond, other, valid⟩ := forms_placed r member
  have below := LetterRun.le_last covered
  have code : (Char.ofNat (r.image + (n - r.low))).toNat = r.image + (n - r.low) := by
    rw [Char.ofNat, dif_pos (show Nat.isValidChar _ by rw [Nat.isValidChar]; omega)]
    rfl
  constructor
  · refine small_of_unlisted (by omega) (LetterRun.no_image fun q member' => ?_)
    rw [code]
    exact LetterRun.not_covers (List.all_eq_true.mp (List.all_eq_true.mp forms_avoid r member) q member') covered
  · intro same
    have mark := congrArg Char.toNat same
    rw [code, show '_'.toNat = 0x5F from rfl] at mark
    omega

theorem lowerChar_cases (c : Char) : c.toNat = 0x130 ∨ Small c ∨ ∃ d, lowerChar c = [d] ∧ Small d ∧ '_' ≠ d := by
  by_cases two : c.toNat = 0x130
  · exact .inl two
  cases listed : LetterRun.imageOf? capitals c.toNat with
  | none => exact .inr (.inl (small_of_unlisted two listed))
  | some n =>
    obtain ⟨r, member, covered, rfl⟩ := LetterRun.covered_of_image listed
    exact .inr (.inr ⟨_, by rw [lowerChar, if_neg two, listed], small_form member covered⟩)

theorem small_lowerChar (c : Char) : ∀ d ∈ lowerChar c, Small d := by
  intro d member
  rcases lowerChar_cases c with two | own | ⟨e, other, small, _⟩
  · have letter : Small 'i' := by decide +kernel
    have dot : Small (Char.ofNat 0x307) := by decide +kernel
    rw [lowerChar, if_pos two, List.mem_cons, List.mem_singleton] at member
    rcases member with rfl | rfl
    · exact letter
    · exact dot
  · rw [own.1, List.mem_singleton] at member
    exact member ▸ own
  · rw [other, List.mem_singleton] at member
    exact member ▸ small

theorem small_lowerFrom (cs : List Char) (after : Bool) : ∀ d ∈ lowerFrom after cs, Small d := by
  induction cs generalizing after with
  | nil => simp [lowerFrom]
  | cons c cs ih =>
    intro d member
    rcases List.mem_append.mp member with own | rest
    · split at own
      · have final : Small (Char.ofNat 0x3C2) := by decide +kernel
        rw [List.mem_singleton.mp own]
        exact final
      · exact small_lowerChar c d own
    · exact ih _ d rest

theorem lowerFrom_append {cs : List Char} (small : ∀ c ∈ cs, Small c) (ds : List Char) (after : Bool) :
    ∃ rest, lowerFrom after (cs ++ ds) = cs ++ rest := by
  induction cs generalizing after with
  | nil => exact ⟨_, rfl⟩
  | cons c cs ih =>
    obtain ⟨own, other⟩ := small c List.mem_cons_self
    obtain ⟨rest, same⟩ := ih (fun c member => small c (List.mem_cons_of_mem _ member))
      (if isCaseIgnorable c then after else isCased c)
    refine ⟨rest, ?_⟩
    simp only [List.cons_append, lowerFrom, other, own, same, decide_false, Bool.false_and,
      Bool.false_eq_true, if_false, List.nil_append]

theorem prefix_lower_append (s t : String) :
    (lower s).toList <+: (lower (lower s ++ t)).toList := by
  obtain ⟨rest, same⟩ := lowerFrom_append (small_lowerFrom s.toList false) t.toList false
  refine ⟨rest, ?_⟩
  simp only [lower, String.toList_append, String.toList_ofList, same]

end RowMapping.Text
