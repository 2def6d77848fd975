import Mathlib.Data.List.Forall2
import RowMapping.Proofs.Session.Leads

/-! Two computations side by side, each in a world of its own. From worlds that belong together they
come to outcomes that belong together, and to such worlds again. A comparison may pass over some
failures: then nothing is said of what follows them. -/
namespace RowMapping

open MappingM

/-- The failures that a comparison passes over, those of the first computation and of the second. -/
structure Leniency where
  first : Failure → Prop
  second : Failure → Prop

namespace Leniency

def strict : Leniency := ⟨fun _ => False, fun _ => False⟩

def Excuses {α β : Type} (l : Leniency) (x : Except Failure α) (y : Except Failure β) : Prop :=
  (∃ e, x = .error e ∧ l.first e) ∨ ∃ e, y = .error e ∧ l.second e

theorem strict_excuses {α β : Type} {x : Except Failure α} {y : Except Failure β} :
    ¬ strict.Excuses x y := by
  rintro (⟨_, _, never⟩ | ⟨_, _, never⟩)
  · exact never
  · exact never

end Leniency

/-- Both outcomes are results that `S` relates, or both are the same failure. -/
def Outcomes {α β : Type} (S : α → β → Prop) : Except Failure α → Except Failure β → Prop
  | .ok a, .ok b => S a b
  | .error e, .error f => e = f
  | _, _ => False

section Outcomes

variable {α β : Type} {S : α → β → Prop}

theorem Outcomes.refl {S : α → α → Prop} (refl : ∀ a, S a a) (x : Except Failure α) :
    Outcomes S x x := by
  cases x with
  | error e => rfl
  | ok a => exact refl a

theorem Outcomes.eq {x y : Except Failure α} (same : Outcomes (· = ·) x y) : x = y := by
  cases x <;> cases y <;> simp_all [Outcomes]

theorem Outcomes.mono {T : α → β → Prop} {x : Except Failure α} {y : Except Failure β}
    (outcomes : Outcomes S x y) (weaker : ∀ a b, S a b → T a b) : Outcomes T x y := by
  cases x <;> cases y
  · exact outcomes
  · exact outcomes
  · exact outcomes
  · exact weaker _ _ outcomes

end Outcomes

/-- From worlds that `R` relates the computations come to outcomes that `S` relates and to worlds that
`R` relates, if neither fails in a way that is passed over. -/
def Together (l : Leniency) (R : World → World → Prop) {α β : Type} (S : α → β → Prop)
    (x : MappingM α) (y : MappingM β) : Prop :=
  ∀ w v, R w v → l.Excuses (x.run w).1 (y.run v).1 ∨
    Outcomes S (x.run w).1 (y.run v).1 ∧ R (x.run w).2 (y.run v).2

def TogetherOver (l : Leniency) (R : World → World → Prop) {σ α β : Type} (S : α → β → Prop)
    (x : StateT σ MappingM α) (y : StateT σ MappingM β) : Prop :=
  ∀ s, Together l R (fun a b => S a.1 b.1 ∧ a.2 = b.2) (x.run s) (y.run s)

namespace Together

variable {l : Leniency} {R : World → World → Prop} {σ α β γ δ : Type} {S : α → β → Prop}
  {T : γ → δ → Prop}

theorem related {x : MappingM α} {y : MappingM β} (together : Together .strict R S x y) {w v : World}
    (here : R w v) : Outcomes S (x.run w).1 (y.run v).1 ∧ R (x.run w).2 (y.run v).2 :=
  (together w v here).resolve_left Leniency.strict_excuses

protected theorem pure {a : α} {b : β} (related : S a b) :
    Together l R S (pure a : MappingM α) (pure b : MappingM β) :=
  fun _ _ worlds => .inr ⟨related, worlds⟩

protected theorem throw (e : Failure) :
    Together l R S (throw e : MappingM α) (throw e : MappingM β) :=
  fun _ _ worlds => .inr ⟨rfl, worlds⟩

protected theorem get : Together l R R (get : MappingM World) (get : MappingM World) :=
  fun _ _ worlds => .inr ⟨worlds, worlds⟩

theorem lift {e : Except Failure α} {f : Except Failure β} (outcomes : Outcomes S e f) :
    Together l R S (liftM e : MappingM α) (liftM f : MappingM β) := by
  cases e <;> cases f
  · cases outcomes
    exact .throw _
  · contradiction
  · contradiction
  · exact .pure outcomes

theorem liftSame (e : Except Failure α) :
    Together l R (· = ·) (liftM e : MappingM α) (liftM e : MappingM α) :=
  lift (.refl (fun _ => rfl) e)

protected theorem bind {x : MappingM α} {y : MappingM β} {f : α → MappingM γ} {g : β → MappingM δ}
    (first : Together l R S x y) (next : ∀ a b, S a b → Together l R T (f a) (g b)) :
    Together l R T (x >>= f) (y >>= g) := by
  intro w v worlds
  have result := first w v worlds
  rw [run_bind, run_bind]
  rcases hx : x.run w with ⟨e | a, w'⟩ <;> rcases hy : y.run v with ⟨e' | b, v'⟩ <;>
    rw [hx, hy] at result
  · rcases result with (⟨_, ⟨⟩, passed⟩ | ⟨_, ⟨⟩, passed⟩) | ⟨same, after⟩
    · exact .inl (.inl ⟨e, rfl, passed⟩)
    · exact .inl (.inr ⟨e', rfl, passed⟩)
    · exact .inr ⟨same, after⟩
  · rcases result with (⟨_, ⟨⟩, passed⟩ | ⟨_, never, _⟩) | ⟨never, _⟩
    · exact .inl (.inl ⟨e, rfl, passed⟩)
    · contradiction
    · contradiction
  · rcases result with (⟨_, never, _⟩ | ⟨_, ⟨⟩, passed⟩) | ⟨never, _⟩
    · contradiction
    · exact .inl (.inr ⟨e', rfl, passed⟩)
    · contradiction
  · rcases result with (⟨_, never, _⟩ | ⟨_, never, _⟩) | ⟨related, after⟩
    · contradiction
    · contradiction
    · exact next a b related w' v' after

theorem bind_same {x y : MappingM α} {f : α → MappingM γ} {g : α → MappingM δ}
    (first : Together l R (· = ·) x y) (next : ∀ a, Together l R T (f a) (g a)) :
    Together l R T (x >>= f) (y >>= g) := first.bind fun a _ same => same ▸ next a

theorem mono {U : α → β → Prop} {x : MappingM α} {y : MappingM β} (together : Together l R S x y)
    (weaker : ∀ a b, S a b → U a b) : Together l R U x y := by
  intro w v worlds
  rcases together w v worlds with passed | ⟨outcomes, after⟩
  · exact .inl passed
  · exact .inr ⟨outcomes.mono weaker, after⟩

/-- Where every failure of the first computation is passed over, nothing is asked where it fails. -/
theorem of_fails {x : MappingM α} {y : MappingM β} (lenient : ∀ e, l.first e)
    (fails : ∀ w, ∃ e, (x.run w).1 = .error e) : Together l R S x y := by
  intro w v _
  obtain ⟨e, failed⟩ := fails w
  exact .inl (.inl ⟨e, failed, lenient e⟩)

theorem of_refused {x : MappingM α} {y : MappingM β}
    (refused : ∀ v, ∃ e, (y.run v).1 = .error e ∧ l.second e) : Together l R S x y :=
  fun _ v _ => .inl (.inr (refused v))

theorem along {P : α → Prop} {x : MappingM α} {y : MappingM β} (together : Together l R S x y)
    (holds : ∀ w a, (x.run w).1 = .ok a → P a) : Together l R (fun a b => S a b ∧ P a) x y := by
  intro w v worlds
  rcases together w v worlds with passed | ⟨outcomes, after⟩
  · exact .inl passed
  · refine .inr ⟨?_, after⟩
    have own := holds w
    rcases hx : (x.run w).1 with e | a <;> rcases hy : (y.run v).1 with f | b <;> rw [hx, hy] at outcomes
    · exact outcomes
    · exact outcomes
    · exact outcomes
    · exact ⟨outcomes, own a hx⟩

protected theorem forM {f g : γ → MappingM PUnit} (each : ∀ a, Together l R (fun _ _ => True) (f a) (g a))
    (as : List γ) : Together l R (fun _ _ => True) (as.forM f) (as.forM g) := by
  induction as with
  | nil => exact .pure trivial
  | cons a as ih => exact (each a).bind fun _ _ _ => ih

protected theorem mapM {f : γ → MappingM α} {g : γ → MappingM β} (each : ∀ a, Together l R S (f a) (g a))
    (as : List γ) : Together l R (List.Forall₂ S) (as.mapM f) (as.mapM g) := by
  induction as with
  | nil => exact .pure .nil
  | cons a as ih =>
    rw [List.mapM_cons, List.mapM_cons]
    exact (each a).bind fun b c related => ih.bind fun bs cs rest => .pure (.cons related rest)

theorem scan {Factory Mapper Factory' Mapper' : Type} {S : Option Mapper → Option Mapper' → Prop}
    {ask : Factory → MappingM (Option Mapper)} {ask' : Factory' → MappingM (Option Mapper')}
    (kinds : ∀ x y, S x y → x.isSome = y.isSome) (none : S none none) {fs : List Factory}
    {gs : List Factory'} (each : List.Forall₂ (fun f g => Together l R S (ask f) (ask' g)) fs gs) :
    Together l R S (Chain.scan ask fs) (Chain.scan ask' gs) := by
  induction each with
  | nil => exact .pure none
  | cons asked _ ih =>
    refine asked.bind fun x y related => ?_
    have kind := kinds x y related
    cases x with
    | none =>
      have missing : y = Option.none := by simpa using kind.symm
      rw [missing]
      exact ih
    | some m =>
      obtain ⟨m', rfl⟩ : ∃ m', y = some m' := Option.isSome_iff_exists.mp kind.symm
      exact .pure related

end Together

namespace TogetherOver

variable {l : Leniency} {R : World → World → Prop} {σ α β γ δ : Type} {S : α → β → Prop}
  {T : γ → δ → Prop}

protected theorem pure {a : α} {b : β} (related : S a b) :
    TogetherOver l R S (pure a : StateT σ MappingM α) (pure b : StateT σ MappingM β) :=
  fun _ => .pure ⟨related, rfl⟩

protected theorem throw (e : Failure) :
    TogetherOver l R S (throw e : StateT σ MappingM α) (throw e : StateT σ MappingM β) :=
  fun _ => .throw e

protected theorem get :
    TogetherOver l R (· = ·) (get : StateT σ MappingM σ) (get : StateT σ MappingM σ) :=
  fun _ => .pure ⟨rfl, rfl⟩

protected theorem set (s : σ) :
    TogetherOver l R (fun _ _ => True) (set s : StateT σ MappingM PUnit)
      (set s : StateT σ MappingM PUnit) := fun _ => .pure ⟨trivial, rfl⟩

protected theorem modify (f : σ → σ) :
    TogetherOver l R (fun _ _ => True) (modify f : StateT σ MappingM PUnit)
      (modify f : StateT σ MappingM PUnit) := fun _ => .pure ⟨trivial, rfl⟩

theorem lift {x : MappingM α} {y : MappingM β} (together : Together l R S x y) :
    TogetherOver l R S (liftM x : StateT σ MappingM α) (liftM y : StateT σ MappingM β) :=
  fun _ => together.bind fun _ _ related => .pure ⟨related, rfl⟩

theorem liftSame (e : Except Failure α) :
    TogetherOver l R (· = ·) (liftM (liftM e : MappingM α) : StateT σ MappingM α)
      (liftM (liftM e : MappingM α) : StateT σ MappingM α) :=
  lift (Together.liftSame e)

protected theorem bind {x : StateT σ MappingM α} {y : StateT σ MappingM β}
    {f : α → StateT σ MappingM γ} {g : β → StateT σ MappingM δ} (first : TogetherOver l R S x y)
    (next : ∀ a b, S a b → TogetherOver l R T (f a) (g b)) :
    TogetherOver l R T (x >>= f) (y >>= g) := by
  intro s
  refine (first s).bind fun ⟨a, after⟩ ⟨b, _⟩ ⟨related, same⟩ => ?_
  cases same
  exact next a b related after

theorem bind_same {x y : StateT σ MappingM α} {f : α → StateT σ MappingM γ} {g : α → StateT σ MappingM δ}
    (first : TogetherOver l R (· = ·) x y) (next : ∀ a, TogetherOver l R T (f a) (g a)) :
    TogetherOver l R T (x >>= f) (y >>= g) := first.bind fun a _ same => same ▸ next a

protected theorem mapM {f : γ → StateT σ MappingM α} {g : γ → StateT σ MappingM β}
    (each : ∀ a, TogetherOver l R S (f a) (g a)) (as : List γ) :
    TogetherOver l R (List.Forall₂ S) (as.mapM f) (as.mapM g) := by
  induction as with
  | nil => exact .pure .nil
  | cons a as ih =>
    rw [List.mapM_cons, List.mapM_cons]
    exact (each a).bind fun b c related => ih.bind fun bs cs rest => .pure (.cons related rest)

end TogetherOver
end RowMapping
