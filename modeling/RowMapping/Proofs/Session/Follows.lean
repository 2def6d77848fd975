import RowMapping.Proofs.Session.Together

/-! A computation that follows another one. Where the first returns something, the second returns what
belongs to it, from states and worlds that belong together to such states and worlds again. -/
namespace RowMapping

open MappingM

/-- Where `x` returns, `y` does, from a state that `T` relates, in worlds that `R` relates. -/
def Follows (R : World → World → Prop) {σ τ α β : Type} (T : σ → τ → Prop) (S : α → β → Prop)
    (x : StateT σ MappingM α) (y : StateT τ MappingM β) : Prop :=
  ∀ s t, T s t → ∀ w v, R w v → ∀ a s' w', (x.run s).run w = (.ok (a, s'), w') →
    ∃ b t' v', (y.run t).run v = (.ok (b, t'), v') ∧ S a b ∧ T s' t' ∧ R w' v'

namespace Follows

variable {R : World → World → Prop} {σ τ α β γ δ : Type} {T : σ → τ → Prop} {S : α → β → Prop}
  {U : γ → δ → Prop}

protected theorem pure {a : α} {b : β} (related : S a b) :
    Follows R T S (pure a : StateT σ MappingM α) (pure b : StateT τ MappingM β) := by
  rintro s t states w v worlds _ _ _ ⟨⟩
  exact ⟨b, t, v, rfl, related, states, worlds⟩

theorem throw (e : Failure) (y : StateT τ MappingM β) :
    Follows R T S (throw e : StateT σ MappingM α) y := nofun

protected theorem get : Follows R T T (get : StateT σ MappingM σ) (get : StateT τ MappingM τ) := by
  rintro s t states w v worlds _ _ _ ⟨⟩
  exact ⟨t, t, v, rfl, states, states, worlds⟩

theorem modify {f : σ → σ} {g : τ → τ} (keeps : ∀ s t, T s t → T (f s) (g t)) :
    Follows R T (fun _ _ => True) (modify f : StateT σ MappingM PUnit)
      (modify g : StateT τ MappingM PUnit) := by
  rintro s t states w v worlds _ _ _ ⟨⟩
  exact ⟨(), g t, v, rfl, trivial, keeps s t states, worlds⟩

theorem except {e : Except Failure α} {f : Except Failure β} (follows : ∀ a, e = .ok a → ∃ b, f = .ok b ∧ S a b) :
    Follows R T S (liftM (liftM e : MappingM α) : StateT σ MappingM α)
      (liftM (liftM f : MappingM β) : StateT τ MappingM β) := by
  rintro s t states w v worlds a s' w' ran
  cases e with
  | error e => cases ran
  | ok a =>
    cases ran
    obtain ⟨b, rfl, related⟩ := follows a rfl
    exact ⟨b, t, v, rfl, related, states, worlds⟩

theorem itself (e : Except Failure α) :
    Follows R T (· = ·) (liftM (liftM e : MappingM α) : StateT σ MappingM α)
      (liftM (liftM e : MappingM α) : StateT τ MappingM α) :=
  except fun a found => ⟨a, found, rfl⟩

theorem lift {l : Leniency} (never : ∀ e, ¬ l.second e) {x : MappingM α} {y : MappingM β}
    (together : Together l R S x y) :
    Follows R T S (liftM x : StateT σ MappingM α) (liftM y : StateT τ MappingM β) := by
  intro s t states w v worlds a s' w' ran
  have result := together w v worlds
  have ranLift : ((liftM x : StateT σ MappingM α).run s).run w =
      (x >>= fun a => (pure (a, s) : MappingM (α × σ))).run w := rfl
  rw [ranLift, run_bind] at ran
  rcases hx : x.run w with ⟨e | a', w''⟩ <;> rw [hx] at ran result
  · cases ran
  · cases ran
    rcases hy : y.run v with ⟨e | b, v'⟩ <;> rw [hy] at result
    · rcases result with (⟨_, other, _⟩ | ⟨e, _, passed⟩) | ⟨other, _⟩
      · contradiction
      · exact absurd passed (never e)
      · contradiction
    · rcases result with (⟨_, other, _⟩ | ⟨_, other, _⟩) | ⟨related, after⟩
      · contradiction
      · contradiction
      · exact ⟨b, t, v', run_bind_ok hy, related, states, after⟩

protected theorem bind {x : StateT σ MappingM α} {y : StateT τ MappingM β} {f : α → StateT σ MappingM γ}
    {g : β → StateT τ MappingM δ} (first : Follows R T S x y)
    (next : ∀ a b, S a b → Follows R T U (f a) (g b)) : Follows R T U (x >>= f) (y >>= g) := by
  intro s t states w v worlds c s' w' ran
  have split : ((x >>= f).run s).run w = (x.run s >>= fun p => (f p.1).run p.2).run w := rfl
  rw [split, run_bind] at ran
  rcases hx : (x.run s).run w with ⟨e | ⟨a, middle⟩, u⟩ <;> rw [hx] at ran
  · cases ran
  · obtain ⟨b, middle', u', hy, related, states', worlds'⟩ := first s t states w v worlds a middle u hx
    obtain ⟨d, t', v', hz, result⟩ := next a b related middle middle' states' u u' worlds' c s' w' ran
    exact ⟨d, t', v', (run_bind_ok hy).trans hz, result⟩

end Follows
end RowMapping
