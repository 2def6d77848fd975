import Mathlib.Data.List.Forall2

/-! Lists that are computed member by member, where the first failure ends it. -/
namespace RowMapping

variable {α β γ ε : Type} {f g : α → Except ε β} {as : List α}

theorem mapM_each {bs : List β} (mapped : as.mapM f = .ok bs) : List.Forall₂ (fun a b => f a = .ok b) as bs := by
  induction as generalizing bs with
  | nil =>
    cases mapped
    exact .nil
  | cons a as ih =>
    rw [List.mapM_cons] at mapped
    cases head : f a with
    | error e =>
      rw [head] at mapped
      contradiction
    | ok b =>
      cases tail : as.mapM f with
      | error e =>
        rw [head, tail] at mapped
        contradiction
      | ok cs =>
        rw [head, tail] at mapped
        cases mapped
        exact .cons head (ih tail)

theorem mapM_error {e : ε} (failed : as.mapM f = .error e) : ∃ a ∈ as, f a = .error e := by
  induction as with
  | nil => cases failed
  | cons a as ih =>
    rw [List.mapM_cons] at failed
    cases head : f a with
    | error e' =>
      rw [head] at failed
      cases failed
      exact ⟨a, List.mem_cons_self, head⟩
    | ok b =>
      cases tail : as.mapM f with
      | error e' =>
        rw [head, tail] at failed
        cases failed
        obtain ⟨a', member, refused⟩ := ih tail
        exact ⟨a', List.mem_cons_of_mem a member, refused⟩
      | ok bs =>
        rw [head, tail] at failed
        cases failed

theorem mapM_refused : (∃ e, as.mapM f = .error e) ↔ ∃ a ∈ as, ∃ e, f a = .error e := by
  constructor
  · rintro ⟨e, failed⟩
    obtain ⟨a, member, refused⟩ := mapM_error failed
    exact ⟨a, member, e, refused⟩
  · rintro ⟨a, member, e, refused⟩
    cases mapped : as.mapM f with
    | error e' => exact ⟨e', rfl⟩
    | ok bs =>
      obtain ⟨i, bound, rfl⟩ := List.getElem_of_mem member
      obtain ⟨lengths, each⟩ := List.forall₂_iff_get.mp (mapM_each mapped)
      cases refused.symm.trans (each i bound (lengths ▸ bound))

theorem mapM_congr (same : ∀ a ∈ as, f a = g a) : as.mapM f = as.mapM g := by
  induction as with
  | nil => rfl
  | cons a as ih =>
    rw [List.mapM_cons, List.mapM_cons, same a List.mem_cons_self,
      ih fun b member => same b (List.mem_cons_of_mem a member)]

theorem mapM_zip {k : γ × α → Except ε β} {cs : List γ} (lengths : as.length = cs.length)
    (same : ∀ p ∈ cs.zip as, k p = f p.2) : (cs.zip as).mapM k = as.mapM f := by
  have seconds : (cs.zip as).mapM (fun p => f p.2) = ((cs.zip as).map (·.2)).mapM f := List.mapM_map.symm
  rw [mapM_congr same, seconds, List.map_snd_zip (Nat.le_of_eq lengths)]

end RowMapping
