import RowMapping.Proofs.Session.Leads
import RowMapping.Proofs.Types.Sameness

/-! What computations yield. Run in a world of some kind, a computation leads to a world of that kind,
and what it returns, if it returns at all, has a property. -/
namespace RowMapping

open MappingM

/-- Worlds stay of the kind `P`, and what is returned satisfies `Q`. -/
def Yields (P : World → Prop) {α : Type} (Q : α → Prop) (x : MappingM α) : Prop :=
  ∀ w, P w → P (x.run w).2 ∧ ∀ a, (x.run w).1 = .ok a → Q a

def YieldsOver (P : World → Prop) {σ α : Type} (Q : α → Prop) (x : StateT σ MappingM α) : Prop :=
  ∀ s, Yields P (fun r => Q r.1) (x.run s)

section Rules

variable {P : World → Prop} {σ α β : Type} {Q : α → Prop} {S : β → Prop}

theorem Yields.pure {a : α} (holds : Q a) : Yields P Q (pure a : MappingM α) := by
  intro w first
  refine ⟨first, ?_⟩
  rintro _ ⟨⟩
  exact holds

theorem Yields.throw (e : Failure) : Yields P Q (throw e : MappingM α) := by
  intro w first
  refine ⟨first, ?_⟩
  rintro _ ⟨⟩

theorem Yields.bind {x : MappingM α} {f : α → MappingM β} (hx : Yields P Q x)
    (hf : ∀ a, Q a → Yields P S (f a)) : Yields P S (x >>= f) := by
  intro w first
  have result := hx w first
  rw [run_bind]
  rcases e : x.run w with ⟨r | a, v⟩ <;> rw [e] at result
  · refine ⟨result.1, ?_⟩
    rintro _ ⟨⟩
  · exact hf a (result.2 a rfl) v result.1

theorem Yields.mono {R : α → Prop} {x : MappingM α} (hx : Yields P Q x) (weaker : ∀ a, Q a → R a) :
    Yields P R x := by
  intro w first
  have result := hx w first
  exact ⟨result.1, fun a ha => weaker a (result.2 a ha)⟩

theorem Leads.yields {x : MappingM α} (keeps : Leads (fun w v => P w → P v) x) :
    Yields P (fun _ => True) x := fun w first => ⟨keeps w first, fun _ _ => trivial⟩

theorem Yields.get : Yields P P (get : MappingM World) := by
  intro w first
  refine ⟨first, ?_⟩
  rintro _ ⟨⟩
  exact first

theorem Yields.lift (e : Except Failure α) :
    Yields P (fun a => e = .ok a) (liftM e : MappingM α) := by
  cases e with
  | error r => exact Yields.throw r
  | ok a => exact Yields.pure rfl

theorem YieldsOver.pure {a : α} (holds : Q a) : YieldsOver P Q (pure a : StateT σ MappingM α) :=
  fun _ => Yields.pure holds

theorem YieldsOver.throw (e : Failure) : YieldsOver P Q (throw e : StateT σ MappingM α) :=
  fun _ => Yields.throw e

theorem YieldsOver.modify (f : σ → σ) :
    YieldsOver P (fun _ => True) (modify f : StateT σ MappingM PUnit) := fun _ => Yields.pure trivial

theorem YieldsOver.lift {x : MappingM α} (hx : Yields P Q x) :
    YieldsOver P Q (liftM x : StateT σ MappingM α) :=
  fun _ => hx.bind fun _ ha => Yields.pure ha

theorem YieldsOver.bind {x : StateT σ MappingM α} {f : α → StateT σ MappingM β}
    (hx : YieldsOver P Q x) (hf : ∀ a, Q a → YieldsOver P S (f a)) : YieldsOver P S (x >>= f) :=
  fun s => (hx s).bind fun r hr => hf r.1 hr r.2

theorem Yields.scan {Factory Mapper : Type} {R : Option Mapper → Prop}
    {ask : Factory → MappingM (Option Mapper)} {fs : List Factory} (none : R none)
    (asked : ∀ f ∈ fs, Yields P R (ask f)) : Yields P R (Chain.scan ask fs) := by
  induction fs with
  | nil => exact Yields.pure none
  | cons f fs ih =>
    refine (asked f List.mem_cons_self).bind fun found holds => ?_
    cases found with
    | none => exact ih fun g hg => asked g (List.mem_cons_of_mem _ hg)
    | some m => exact Yields.pure holds

end Rules

/-- What look-ups of columns rest on, in worlds of a kind: what they read of the registry, what asking a
factory yields, and that what they found may be kept. -/
structure Lookup (P : World → Prop) (S : Registry → Prop) (Q : Option ColumnMapper → Prop) (h : Hooks)
    (c : Context) : Prop where
  registry : Yields P S (registry c)
  log : ∀ level logger text, Yields P (fun _ => True) (log level logger text)
  hit : ∀ r key m, S r → r.columns.cached? key = some m → Q (some m)
  ask : ∀ r, S r → ∀ f ∈ r.columns.factories, ∀ key element,
    (∀ x, element = some x → Yields P Q x) → Yields P Q (Registry.askColumn h c key element f)
  missing : Q none
  keep : ∀ generation key m, Q (some m) →
    Yields P (fun _ => True) (Registry.keepColumn c generation key m)

section Lookups

variable {P : World → Prop} {S : Registry → Prop} {Q : Option ColumnMapper → Prop} {h : Hooks}
  {c : Context}

theorem Lookup.record (lookup : Lookup P S Q h c) (generation : Nat) (key : Descriptor)
    {found : Option ColumnMapper} (holds : Q found) :
    Yields P (fun _ => True) (Registry.recordColumn c generation key found) := by
  cases found with
  | none => exact lookup.log _ _ _
  | some m => exact (lookup.keep generation key m holds).bind fun _ _ => lookup.log _ _ _

/-- A look-up yields what asking each factory yields, where items are looked up in the same way. -/
theorem Lookup.findColumnAs (lookup : Lookup P S Q h c) (key : Descriptor) (nullable : Bool) :
    Yields P Q (Registry.findColumnAs h c key nullable) := by
  induction key using Descriptor.induct_args generalizing nullable with
  | step key ih =>
  obtain ⟨raw, args, admitted⟩ := key
  have items : ∀ x, Registry.findElement h c args = some x → Yields P Q x := by
    cases args with
    | nil => rintro x ⟨⟩
    | cons d ds =>
      rintro x ⟨⟩
      exact ih d List.mem_cons_self true
  refine lookup.registry.bind fun r same => ?_
  dsimp only
  split
  · next m hit => exact Yields.pure (lookup.hit r _ m same hit)
  · refine (Yields.scan lookup.missing fun f hf => lookup.ask r same f hf _ _ items).bind
      fun found holds => ?_
    exact (lookup.record _ _ holds).bind fun _ _ => Yields.pure holds

end Lookups
end RowMapping
