import RowMapping.Proofs.Registry.Solution
import RowMapping.Proofs.Schema.Tabled

/-! Computations that settle. What they come to is told beforehand, by approximations that say more the
deeper look-ups may be nested; whatever the world has been through, they come to that, or are cut short. -/
namespace RowMapping

open MappingM

/-- Worlds stay of the kind `I`. The outcome is what is come to where look-ups may be nested deep enough;
the computation may be cut short if `l` holds. -/
def Settles (I : World → Prop) (l : Prop) {α β : Type} (S : α → β → Prop) (x : MappingM α)
    (come : Nat → Except Failure β) : Prop :=
  ∀ u, I u → I (x.run u).2 ∧ (l ∧ (x.run u).1 = .error .exhausted ∨
    ∃ k, come k ≠ .error .exhausted ∧ Outcomes S (x.run u).1 (come k))

/-- Deeper look-ups come to the same, where the others are not cut short. -/
def Deepens {β : Type} (come : Nat → Except Failure β) : Prop := ∀ {m n}, m ≤ n → CutShort (come m) (come n)

namespace Settles

variable {I : World → Prop} {l : Prop} {α β γ δ : Type} {S : α → β → Prop} {T : γ → δ → Prop}
  {x : MappingM α} {come : Nat → Except Failure β}

protected theorem pure {a : α} {b : β} (related : S a b) : Settles I l S (pure a) fun _ => .ok b :=
  fun _ kind => ⟨kind, .inr ⟨0, nofun, related⟩⟩

protected theorem throw {e : Failure} (other : e ≠ .exhausted) :
    Settles I l S (throw e : MappingM α) fun _ => (.error e : Except Failure β) :=
  fun _ kind => ⟨kind, .inr ⟨0, fun same => other (Except.error.inj same), rfl⟩⟩

theorem exhausted (allowed : l) : Settles I l S (throw .exhausted) come :=
  fun _ kind => ⟨kind, .inl ⟨allowed, rfl⟩⟩

theorem of_outcome {told : Except Failure β} (whole : told ≠ .error .exhausted)
    (ran : ∀ u, I u → I (x.run u).2 ∧ Outcomes S (x.run u).1 told) : Settles I l S x fun _ => told :=
  fun u kind => (ran u kind).imp_right fun same => .inr ⟨0, whole, same⟩

theorem of_run {b : β} (ran : ∀ u, I u → ∃ a v, x.run u = (.ok a, v) ∧ I v ∧ S a b) :
    Settles I l S x fun _ => .ok b := by
  refine .of_outcome nofun fun u kind => ?_
  obtain ⟨a, v, ran, still, related⟩ := ran u kind
  rw [ran]
  exact ⟨still, related⟩

protected theorem bind {f : α → MappingM γ} {next : β → Nat → Except Failure δ}
    (first : Settles I l S x come) (deepens : Deepens come) (deeper : ∀ b, Deepens (next b))
    (rest : ∀ a b, S a b → (∃ k, come k = .ok b) → Settles I l T (f a) (next b)) :
    Settles I l T (x >>= f) fun k => come k >>= fun b => next b k := by
  intro u kind
  obtain ⟨still, settled⟩ := first u kind
  rcases ran : x.run u with ⟨e | a, v⟩ <;> rw [ran] at still settled
  · rw [run_bind_error ran]
    rcases settled with ⟨allowed, cut⟩ | ⟨k, whole, same⟩
    · exact ⟨still, .inl ⟨allowed, congrArg Except.error (Except.error.inj cut)⟩⟩
    · refine ⟨still, .inr ⟨k, ?_⟩⟩
      dsimp only
      rcases found : come k with e' | b <;> rw [found] at same whole
      · exact ⟨fun same => whole (congrArg Except.error (Except.error.inj same)), same⟩
      · contradiction
  · rw [run_bind_ok ran]
    rcases settled with ⟨_, never⟩ | ⟨k, _, related⟩
    · contradiction
    rcases found : come k with e | b <;> rw [found] at related
    · contradiction
    obtain ⟨still, settled⟩ := rest a b related ⟨k, found⟩ v still
    refine ⟨still, settled.imp_right fun ⟨k', whole, same⟩ => ⟨max k k', ?_⟩⟩
    have first := (deepens (le_max_left k k')).eq (found ▸ nofun)
    have second := (deeper b (le_max_right k k')).eq whole
    dsimp only
    rw [← first, found]
    show next b _ ≠ _ ∧ Outcomes T _ (next b _)
    rw [← second]
    exact ⟨whole, same⟩

theorem map {f : α → MappingM γ} {g : β → δ} (first : Settles I l S x come) (deepens : Deepens come)
    (rest : ∀ a b, S a b → Settles I l T (f a) fun _ => .ok (g b)) :
    Settles I l T (x >>= f) fun k => (come k).map g := by
  have bound : Settles I l T (x >>= f) fun k => come k >>= fun b => .ok (g b) :=
    first.bind deepens (fun b _ _ _ => .refl _) fun a b related _ => rest a b related
  have same : ∀ k, (come k >>= fun b => .ok (g b)) = (come k).map g := fun k => by cases come k <;> rfl
  simpa only [same] using bound

theorem keeping {f : α → MappingM PUnit} (first : Settles I l S x come) (deepens : Deepens come)
    (kept : ∀ a b k, S a b → come k = .ok b → ∀ u, I u →
      ((f a).run u).1 = .ok () ∧ I ((f a).run u).2) :
    Settles I l S (do let a ← x; f a; return a) come := by
  have bound : Settles I l S (do let a ← x; f a; return a) fun k => come k >>= fun b => .ok b := by
    refine first.bind deepens (fun _ _ _ _ => .refl _) fun a b related ⟨k, found⟩ => ?_
    refine .of_run fun u kind => ?_
    obtain ⟨done, still⟩ := kept a b k related found u kind
    exact ⟨a, _, run_bind_ok (Prod.ext done rfl), still, related⟩
  have same : ∀ k, (come k >>= fun b => .ok b) = come k := fun k => by cases come k <;> rfl
  simpa only [same] using bound

theorem scan {Factory Mapper : Type} {S : Option Mapper → Option Mapper → Prop}
    (kinds : ∀ a b, S a b → a.isSome = b.isSome) (none : S none none)
    {ask : Factory → MappingM (Option Mapper)} {answer : Nat → Factory → Except Failure (Option Mapper)}
    {fs : List Factory} (deepens : ∀ f, Deepens fun k => answer k f)
    (asked : ∀ f ∈ fs, Settles I l S (ask f) fun k => answer k f) :
    Settles I l S (Chain.scan ask fs) fun k => Chain.scan (answer k) fs := by
  induction fs with
  | nil => exact .pure none
  | cons f fs ih =>
    have rest := ih fun g member => asked g (List.mem_cons_of_mem f member)
    refine Settles.bind (asked f List.mem_cons_self) (deepens f) (fun b _ _ le => ?_) fun a b related _ => ?_
    · cases b with
      | none => exact .scan fun g _ => deepens g le
      | some m => exact .refl _
    · have kind := kinds a b related
      cases a <;> cases b
      · exact rest
      · contradiction
      · contradiction
      · exact .pure related

/-- Nothing is come to where no look-ups may be made. -/
theorem shift_iff (come : Nat → Except Failure β) (nothing : come 0 = .error .exhausted) :
    Settles I l S x (fun k => come (k + 1)) ↔ Settles I l S x come := by
  constructor
  · intro first u kind
    exact (first u kind).imp_right (·.imp_right fun ⟨k, settled⟩ => ⟨k + 1, settled⟩)
  · intro first u kind
    refine (first u kind).imp_right (·.imp_right fun ⟨k, whole, same⟩ => ?_)
    cases k with
    | zero => exact absurd nothing whole
    | succ k => exact ⟨k, whole, same⟩

theorem together {y : MappingM γ} {U : γ → β → Prop} {V : α → γ → Prop} (deepens : Deepens come)
    (first : Settles I l S x come) (second : Settles I l U y come)
    (joined : ∀ a c b, S a b → U c b → V a c) :
    Together ⟨fun e => l ∧ e = .exhausted, fun e => l ∧ e = .exhausted⟩ (fun u v => I u ∧ I v) V x y := by
  intro u v ⟨kindU, kindV⟩
  obtain ⟨stillU, settledU⟩ := first u kindU
  obtain ⟨stillV, settledV⟩ := second v kindV
  rcases settledU with ⟨allowed, cut⟩ | ⟨k, whole, one⟩
  · exact .inl (.inl ⟨_, cut, allowed, rfl⟩)
  rcases settledV with ⟨allowed, cut⟩ | ⟨k', whole', other⟩
  · exact .inl (.inr ⟨_, cut, allowed, rfl⟩)
  refine .inr ⟨?_, stillU, stillV⟩
  have same : come k = come k' := ((deepens (le_max_left k k')).eq whole).trans
    ((deepens (le_max_right k k')).eq whole').symm
  rw [← same] at other
  rcases hx : (x.run u).1 with e | a <;> rcases hy : (y.run v).1 with e' | a' <;>
    rcases hc : come k with f | b <;> rw [hx, hc] at one <;> rw [hy, hc] at other
  all_goals first
    | exact joined _ _ _ one other
    | exact (show _ = _ from one).trans (show _ = _ from other).symm
    | contradiction

end Settles
end RowMapping
