import RowMapping.Proofs.Session.Leads

/-! What computations come to. Run in a world of some kind, a computation leads to a world of that kind,
what it returns has a property, and so have the failures that it may end in. -/
namespace RowMapping

open MappingM

/-- Worlds stay of the kind `I`, what is returned satisfies `Q`, and every failure satisfies `E`. -/
def Comes (I : World → Prop) (E : Failure → Prop) {α : Type} (Q : α → Prop) (x : MappingM α) : Prop :=
  ∀ u, I u → I (x.run u).2 ∧ (∀ a, (x.run u).1 = .ok a → Q a) ∧ ∀ e, (x.run u).1 = .error e → E e

def ComesOver (I : World → Prop) (E : Failure → Prop) {σ α : Type} (T : σ → Prop) (Q : α → Prop)
    (x : StateT σ MappingM α) : Prop :=
  ∀ s, T s → Comes I E (fun r => Q r.1 ∧ T r.2) (x.run s)

variable {I : World → Prop} {E : Failure → Prop} {σ α β : Type} {T : σ → Prop} {Q : α → Prop} {S : β → Prop}

namespace Comes

theorem anything (x : MappingM α) : Comes (fun _ => True) (fun _ => True) (fun _ => True) x :=
  fun _ _ => ⟨trivial, fun _ _ => trivial, fun _ _ => trivial⟩

protected theorem pure {a : α} (holds : Q a) : Comes I E Q (pure a : MappingM α) := by
  refine fun u kind => ⟨kind, ?_, nofun⟩
  rintro _ ⟨⟩
  exact holds

protected theorem throw {e : Failure} (admitted : E e) : Comes I E Q (throw e : MappingM α) := by
  refine fun u kind => ⟨kind, nofun, ?_⟩
  rintro _ ⟨⟩
  exact admitted

protected theorem get : Comes I E I (get : MappingM World) := by
  refine fun u kind => ⟨kind, ?_, nofun⟩
  rintro _ ⟨⟩
  exact kind

theorem lift {e : Except Failure α} (admitted : ∀ f, e = .error f → E f) :
    Comes I E (fun a => e = .ok a) (liftM e : MappingM α) := by
  cases e with
  | error f => exact .throw (admitted f rfl)
  | ok a => exact .pure rfl

protected theorem bind {x : MappingM α} {f : α → MappingM β} (first : Comes I E Q x)
    (rest : ∀ a, Q a → Comes I E S (f a)) : Comes I E S (x >>= f) := by
  intro u kind
  obtain ⟨still, returns, fails⟩ := first u kind
  rcases ran : x.run u with ⟨e | a, v⟩ <;> rw [ran] at still returns fails
  · rw [run_bind_error ran]
    refine ⟨still, nofun, ?_⟩
    rintro _ ⟨⟩
    exact fails e rfl
  · rw [run_bind_ok ran]
    exact rest a (returns a rfl) v still

theorem mono {R : α → Prop} {x : MappingM α} (first : Comes I E Q x) (weaker : ∀ a, Q a → R a) :
    Comes I E R x :=
  fun u kind => ⟨(first u kind).1, fun a returned => weaker a ((first u kind).2.1 a returned),
    (first u kind).2.2⟩

theorem of_run {x : MappingM α} (keeps : ∀ u, I u → ∃ a v, x.run u = (.ok a, v) ∧ I v ∧ Q a) :
    Comes I E Q x := by
  intro u kind
  obtain ⟨a, v, ran, still, holds⟩ := keeps u kind
  rw [ran]
  refine ⟨still, ?_, nofun⟩
  rintro _ ⟨⟩
  exact holds

protected theorem forM {f : β → MappingM PUnit} {bs : List β}
    (each : ∀ b ∈ bs, Comes I E (fun _ => True) (f b)) : Comes I E (fun _ => True) (bs.forM f) := by
  induction bs with
  | nil => exact .pure trivial
  | cons b bs ih =>
    exact (each b List.mem_cons_self).bind fun _ _ => ih fun c member => each c (List.mem_cons_of_mem b member)

theorem scan {Factory Mapper : Type} {R : Option Mapper → Prop} {ask : Factory → MappingM (Option Mapper)}
    {fs : List Factory} (none : R none) (asked : ∀ f ∈ fs, Comes I E R (ask f)) :
    Comes I E R (Chain.scan ask fs) := by
  induction fs with
  | nil => exact .pure none
  | cons f fs ih =>
    refine (asked f List.mem_cons_self).bind fun found holds => ?_
    cases found with
    | none => exact ih fun g member => asked g (List.mem_cons_of_mem f member)
    | some m => exact .pure holds

theorem returned {x : MappingM α} (comes : Comes I E Q x) {w v : World} (kind : I w) {a : α}
    (ran : x.run w = (.ok a, v)) : Q a := by
  have holds := (comes w kind).2.1 a
  rw [ran] at holds
  exact holds rfl

end Comes

namespace ComesOver

theorem anything (x : StateT σ MappingM α) :
    ComesOver (fun _ => True) (fun _ => True) (fun _ => True) (fun _ => True) x :=
  fun _ _ => (Comes.anything _).mono fun _ _ => ⟨trivial, trivial⟩

protected theorem pure {a : α} (holds : Q a) : ComesOver I E T Q (pure a : StateT σ MappingM α) :=
  fun _ state => .pure ⟨holds, state⟩

protected theorem throw {e : Failure} (admitted : E e) : ComesOver I E T Q (throw e : StateT σ MappingM α) :=
  fun _ _ => .throw admitted

protected theorem get : ComesOver I E T T (get : StateT σ MappingM σ) := fun _ state => .pure ⟨state, state⟩

protected theorem set {s : σ} (kind : T s) : ComesOver I E T (fun _ => True) (set s : StateT σ MappingM PUnit) :=
  fun _ _ => .pure ⟨trivial, kind⟩

protected theorem modify {f : σ → σ} (keeps : ∀ s, T s → T (f s)) :
    ComesOver I E T (fun _ => True) (modify f : StateT σ MappingM PUnit) :=
  fun s state => .pure ⟨trivial, keeps s state⟩

theorem lift {x : MappingM α} (first : Comes I E Q x) :
    ComesOver I E T Q (liftM x : StateT σ MappingM α) :=
  fun _ state => first.bind fun _ holds => .pure ⟨holds, state⟩

theorem liftExcept {e : Except Failure α} (admitted : ∀ f, e = .error f → E f) :
    ComesOver I E T (fun a => e = .ok a) (liftM (liftM e : MappingM α) : StateT σ MappingM α) :=
  lift (Comes.lift admitted)

protected theorem bind {x : StateT σ MappingM α} {f : α → StateT σ MappingM β} (first : ComesOver I E T Q x)
    (rest : ∀ a, Q a → ComesOver I E T S (f a)) : ComesOver I E T S (x >>= f) :=
  fun s state => (first s state).bind fun r both => rest r.1 both.1 r.2 both.2

protected theorem mapM {f : β → StateT σ MappingM α} {bs : List β} (each : ∀ b ∈ bs, ComesOver I E T Q (f b)) :
    ComesOver I E T (fun as => ∀ a ∈ as, Q a) (bs.mapM f) := by
  induction bs with
  | nil => exact .pure nofun
  | cons b bs ih =>
    rw [List.mapM_cons]
    refine (each b List.mem_cons_self).bind fun a holds => ?_
    refine (ih fun c member => each c (List.mem_cons_of_mem b member)).bind fun as more => .pure ?_
    exact List.forall_mem_cons.mpr ⟨holds, more⟩

theorem mono {R : α → Prop} {x : StateT σ MappingM α} (first : ComesOver I E T Q x)
    (weaker : ∀ a, Q a → R a) : ComesOver I E T R x :=
  fun s state => (first s state).mono fun _ both => ⟨weaker _ both.1, both.2⟩

theorem returned {x : StateT σ MappingM α} (comes : ComesOver I E T Q x) {s r : σ} (state : T s) {w v : World}
    (kind : I w) {a : α} (ran : (x.run s).run w = (.ok (a, r), v)) : Q a ∧ T r :=
  (comes s state).returned kind ran

end ComesOver
end RowMapping
