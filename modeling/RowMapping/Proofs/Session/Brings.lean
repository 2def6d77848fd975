import RowMapping.Proofs.Session.Leads

/-! What a computation brings. It leads from one world to another that a relation admits, and what it
returns there, if it returns at all, has a property, which may be one of that world as well. -/
namespace RowMapping

open MappingM

/-- From `w` the computation leads to a world that `R` admits, and returns what satisfies `Q` there. -/
def Brings (R : World → World → Prop) {α : Type} (Q : World → α → Prop) (x : MappingM α) (w : World) : Prop :=
  R w (x.run w).2 ∧ ∀ a, (x.run w).1 = .ok a → Q (x.run w).2 a

def BringsOver (R : World → World → Prop) {σ α : Type} (Q : World → α → Prop) (x : StateT σ MappingM α)
    (w : World) : Prop :=
  ∀ s, Brings R (fun v r => Q v r.1) (x.run s) w

/-- A relation of worlds to later ones. The worlds that it admits at all, it admits in their own place. -/
structure Passage (R : World → World → Prop) : Prop where
  trans : ∀ {u v w}, R u v → R v w → R u w
  settled : ∀ {u v}, R u v → R v v

abbrev Anything {α : Type} : World → α → Prop := fun _ _ => True

/-- Nothing but reports, log, claims and the next number change. -/
structure World.Idles (w v : World) : Prop where
  rest : v = { w with claimed := v.claimed, next := v.next, reports := v.reports, log := v.log }
  next : w.next ≤ v.next

theorem World.Idles.refl (w : World) : w.Idles w := ⟨rfl, Nat.le_refl _⟩

theorem World.idles_log (level : LogLevel) (logger : Logger) (text : String) (w : World) :
    w.Idles ((MappingM.log level logger text).run w).2 := by
  show w.Idles (if _ then _ else _)
  split
  · exact ⟨rfl, Nat.le_refl _⟩
  · exact .refl w

variable {R : World → World → Prop} {σ α β : Type} {Q Q' : World → α → Prop} {S : World → β → Prop}
  {w : World}

namespace Brings

protected theorem pure (here : R w w) {a : α} (holds : Q w a) : Brings R Q (pure a : MappingM α) w := by
  refine ⟨here, ?_⟩
  rintro _ ⟨⟩
  exact holds

protected theorem throw (here : R w w) (e : Failure) : Brings R Q (throw e : MappingM α) w :=
  ⟨here, nofun⟩

protected theorem get (here : R w w) : Brings R (fun v a => a = v) (get : MappingM World) w := by
  refine ⟨here, ?_⟩
  rintro _ ⟨⟩
  rfl

theorem lift (here : R w w) (e : Except Failure α) :
    Brings R (fun _ a => e = .ok a) (liftM e : MappingM α) w := by
  cases e with
  | error r => exact .throw here r
  | ok a => exact .pure here rfl

theorem mono {x : MappingM α} (first : Brings R Q x w) (weaker : ∀ v a, R w v → Q v a → Q' v a) :
    Brings R Q' x w :=
  ⟨first.1, fun a returned => weaker _ a first.1 (first.2 a returned)⟩

protected theorem bind (passage : Passage R) {x : MappingM α} {f : α → MappingM β} (first : Brings R Q x w)
    (rest : ∀ v a, R w v → Q v a → Brings R S (f a) v) : Brings R S (x >>= f) w := by
  obtain ⟨led, returned⟩ := first
  rcases ran : x.run w with ⟨e | a, v⟩ <;> rw [ran] at led returned
  · rw [Brings, run_bind_error ran]
    exact ⟨led, nofun⟩
  · obtain ⟨next, holds⟩ := rest v a led (returned a rfl)
    rw [Brings, run_bind_ok ran]
    exact ⟨passage.trans led next, holds⟩

protected theorem mapM (passage : Passage R) {f : β → MappingM α} (here : R w w)
    (each : ∀ b v, R v v → Brings R Anything (f b) v) (bs : List β) :
    Brings R Anything (bs.mapM f) w := by
  induction bs generalizing w with
  | nil => exact .pure here trivial
  | cons b bs ih =>
    rw [List.mapM_cons]
    refine (each b w here).bind passage fun v _ on _ => ?_
    exact (ih (passage.settled on)).bind passage fun _ _ on _ => .pure (passage.settled on) trivial

theorem scan (passage : Passage R) {Factory Mapper : Type} {Q : World → Option Mapper → Prop}
    {ask : Factory → MappingM (Option Mapper)} {fs : List Factory} (none : ∀ v, Q v none) (here : R w w)
    (asked : ∀ f ∈ fs, ∀ v, R w v → Brings R Q (ask f) v) : Brings R Q (Chain.scan ask fs) w := by
  induction fs generalizing w with
  | nil => exact .pure here (none w)
  | cons f fs ih =>
    refine (asked f List.mem_cons_self w here).bind passage fun v found on holds => ?_
    cases found with
    | none =>
      exact ih (passage.settled on) fun g member v' on' =>
        asked g (List.mem_cons_of_mem f member) v' (passage.trans on on')
    | some m => exact .pure (passage.settled on) holds

end Brings

namespace BringsOver

protected theorem pure (here : R w w) {a : α} (holds : Q w a) :
    BringsOver R Q (pure a : StateT σ MappingM α) w := fun _ => .pure here holds

protected theorem throw (here : R w w) (e : Failure) : BringsOver R Q (throw e : StateT σ MappingM α) w :=
  fun _ => .throw here e

protected theorem get (here : R w w) : BringsOver R Anything (get : StateT σ MappingM σ) w :=
  fun _ => .pure here trivial

protected theorem set (here : R w w) (s : σ) : BringsOver R Anything (set s : StateT σ MappingM PUnit) w :=
  fun _ => .pure here trivial

protected theorem modify (here : R w w) (f : σ → σ) :
    BringsOver R Anything (modify f : StateT σ MappingM PUnit) w := fun _ => .pure here trivial

theorem lift (passage : Passage R) {x : MappingM α} (first : Brings R Q x w) :
    BringsOver R Q (liftM x : StateT σ MappingM α) w :=
  fun _ => first.bind passage fun _ _ on holds => .pure (passage.settled on) holds

protected theorem bind (passage : Passage R) {x : StateT σ MappingM α} {f : α → StateT σ MappingM β}
    (first : BringsOver R Q x w) (rest : ∀ v a, R w v → Q v a → BringsOver R S (f a) v) :
    BringsOver R S (x >>= f) w :=
  fun s => (first s).bind passage fun v r on holds => rest v r.1 on holds r.2

theorem mono {x : StateT σ MappingM α} (first : BringsOver R Q x w)
    (weaker : ∀ v a, R w v → Q v a → Q' v a) : BringsOver R Q' x w :=
  fun s => (first s).mono fun v r => weaker v r.1

protected theorem mapM (passage : Passage R) {f : β → StateT σ MappingM α} (here : R w w)
    (each : ∀ b v, R v v → BringsOver R Anything (f b) v) (bs : List β) :
    BringsOver R Anything (bs.mapM f) w := by
  induction bs generalizing w with
  | nil => exact .pure here trivial
  | cons b bs ih =>
    rw [List.mapM_cons]
    refine (each b w here).bind passage fun v _ on _ => ?_
    exact (ih (passage.settled on)).bind passage fun _ _ on _ => .pure (passage.settled on) trivial

end BringsOver
end RowMapping
