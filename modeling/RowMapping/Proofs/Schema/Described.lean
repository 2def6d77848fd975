import RowMapping.Proofs.Session.Leads

/-! Which classes have properties. Deriving a table for a class that has none yet changes nothing about
that. -/
namespace RowMapping

open MappingM

def Schema.derives (s : Schema) (serial : Nat) (cls : Class) : Option PropertyTable :=
  if s.describes cls then PropertyTable.ofClass? serial cls else none

/-- A class whose annotations name what nothing declares. -/
def Schema.obscure (s : Schema) : ClassRef → Bool
  | .builtin _ => false
  | .declared n => (s.find? n).any fun cls => !s.describes cls

def TableStore.describes (s : Schema) (store : TableStore) : ClassRef → Bool
  | .builtin b => (store.find? (.builtin b)).isSome
  | .declared n => (s.find? n).any fun cls =>
      (store.find? (.declared n)).isSome || (s.derives 0 cls).isSome

def World.described (w : World) (c : Context) : ClassRef → Bool :=
  ((w.tables[c.tables]?).getD default).describes w.schema

theorem PropertyTable.ofClass_isSome (serial serial' : Nat) (cls : Class) :
    (ofClass? serial cls).isSome = (ofClass? serial' cls).isSome := by
  unfold ofClass?
  split <;> rfl

theorem Schema.derives_isSome (s : Schema) (serial serial' : Nat) (cls : Class) :
    (s.derives serial cls).isSome = (s.derives serial' cls).isSome := by
  unfold derives
  split
  · exact PropertyTable.ofClass_isSome ..
  · rfl

theorem Schema.ofClass_of_derives {s : Schema} {serial : Nat} {cls : Class} {t : PropertyTable}
    (made : s.derives serial cls = some t) : PropertyTable.ofClass? serial cls = some t := by
  unfold derives at made
  split at made
  · exact made
  · contradiction

theorem Schema.derives_of_describe {s : Schema} {serial : Nat} {cls : Class} {t : PropertyTable}
    (told : PropertyTable.describe s serial cls = .ok (some t)) : s.derives serial cls = some t := by
  obtain ⟨known, made⟩ := PropertyTable.describe_ok told
  rw [derives, if_pos known, made]

theorem PropertyTable.describe_eq (s : Schema) (serial : Nat) (cls : Class) :
    describe s serial cls = if s.describes cls then .ok (s.derives serial cls) else .error .undeclared := by
  unfold describe Schema.derives
  split <;> rfl

theorem PropertyTable.ofClass_target {serial : Nat} {cls : Class} {t : PropertyTable}
    (made : ofClass? serial cls = some t) : t.target = .declared cls.name := by
  unfold ofClass? at made
  split at made <;> cases made <;> rfl

theorem TableStore.find_derive (store : TableStore) (t : PropertyTable) {c : ClassRef}
    (other : t.target ≠ c) : (store.derive t).find? c = store.find? c := by
  simp [find?, derive, lookup?, other]

theorem TableStore.describes_derive {s : Schema} (store : TableStore) {n : String} {cls : Class}
    {serial : Nat} {t : PropertyTable} (known : s.find? n = some cls)
    (made : s.derives serial cls = some t) : (store.derive t).describes s = store.describes s := by
  have name : cls.name = n := by simpa using List.find?_some known
  have target : t.target = .declared n := by
    rw [PropertyTable.ofClass_target (Schema.ofClass_of_derives made), name]
  have derivable : (s.derives 0 cls).isSome = true := by
    rw [s.derives_isSome 0 serial, made]
    rfl
  funext c
  cases c with
  | builtin b =>
    have other : t.target ≠ .builtin b := by simp [target]
    simp only [describes, store.find_derive t other]
  | declared m =>
    by_cases same : m = n
    · subst same
      simp [describes, known, derivable]
    · have other : t.target ≠ .declared m := by
        rw [target]
        exact fun eq => same (ClassRef.declared.inj eq).symm
      simp only [describes, store.find_derive t other]

theorem World.described_derive {w : World} {n : String} {cls : Class} {serial : Nat}
    {t : PropertyTable} (known : w.schema.find? n = some cls)
    (made : w.schema.derives serial cls = some t) (i : Nat) (c : Context) :
    World.described { w with tables := w.tables.modify i (·.derive t) } c = w.described c := by
  unfold World.described
  simp only [List.getElem?_modify, Option.map_eq_map]
  cases w.tables[c.tables]? with
  | none => rfl
  | some store =>
    by_cases here : i = c.tables
    · simp [here, store.describes_derive known made]
    · simp [here]

/-- Classes and registries are as they were, and so is which classes have properties. -/
structure World.Alongside (c : Context) (w v : World) : Prop where
  schema : v.schema = w.schema
  registries : v.registries = w.registries
  described : v.described c = w.described c

theorem World.Alongside.refl (c : Context) (w : World) : w.Alongside c w := ⟨rfl, rfl, rfl⟩

section Runs

variable (c : Context) (w : World)

/-- What looking for the properties of a type comes to: whether it has any, unless that cannot be told. -/
theorem run_derive {n : String} {cls : Class} (known : w.schema.find? n = some cls) :
    (∃ t v, (derive? c cls).run w = (.ok t, v) ∧ w.schema.describes cls = true ∧
        t.isSome = (w.schema.derives 0 cls).isSome ∧ w.Alongside c v) ∨
      (derive? c cls).run w = (.error .undeclared, w) ∧ w.schema.describes cls = false := by
  unfold derive?
  rw [run_bind_ok (run_get w), run_bind_ok (run_get w), PropertyTable.describe_eq]
  cases told : w.schema.describes cls with
  | false => exact .inr ⟨rfl, rfl⟩
  | true =>
    refine .inl ?_
    rw [if_pos rfl, run_bind_ok (x := liftM (Except.ok _)) (v := w) rfl]
    cases made : w.schema.derives w.next cls with
    | none =>
      refine ⟨none, w, rfl, rfl, ?_, .refl c w⟩
      rw [w.schema.derives_isSome 0 w.next, made]
    | some t =>
      refine ⟨some t, _, rfl, rfl, ?_, rfl, rfl, ?_⟩
      · rw [w.schema.derives_isSome 0 w.next, made]
      · exact World.described_derive (w := { w with next := w.next + 1 }) known made c.tables c

theorem run_table (raw : RawType) :
    (∃ t v, (table? c raw).run w = (.ok t, v) ∧ t.isSome = raw.class?.any (w.described c) ∧
        (t.isSome = false → raw.class?.any w.schema.obscure = false) ∧ w.Alongside c v) ∨
      (table? c raw).run w = (.error .undeclared, w) ∧ raw.class?.any (w.described c) = false ∧
        raw.class?.any w.schema.obscure = true := by
  unfold table?
  rw [run_bind_ok (x := tables c) (a := (w.tables[c.tables]?).getD default) (v := w) rfl]
  cases raw.class? with
  | none => exact .inl ⟨none, w, rfl, rfl, fun _ => rfl, .refl c w⟩
  | some cls =>
    cases cls with
    | builtin b => exact .inl ⟨_, w, rfl, rfl, fun _ => rfl, .refl c w⟩
    | declared n =>
      dsimp only
      rw [run_bind_ok (run_get w)]
      cases known : w.schema.find? n with
      | none =>
        refine .inl ⟨none, w, rfl, ?_, fun _ => ?_, .refl c w⟩
        · simp [World.described, TableStore.describes, known]
        · simp [Schema.obscure, known]
      | some cls =>
        cases found : ((w.tables[c.tables]?).getD default).find? (.declared n) with
        | some t =>
          refine .inl ⟨some t, w, rfl, ?_, nofun, .refl c w⟩
          simp [World.described, TableStore.describes, known, found]
        | none =>
          rcases run_derive c w known with ⟨t, v, ran, told, derived, along⟩ | ⟨ran, untold⟩
          · refine .inl ⟨t, v, ran, ?_, fun _ => ?_, along⟩
            · simp [World.described, TableStore.describes, known, found, derived]
            · simp [Schema.obscure, known, told]
          · refine .inr ⟨ran, ?_, ?_⟩
            · simp [World.described, TableStore.describes, known, found, Schema.derives, untold]
            · simp [Schema.obscure, known, untold]

end Runs
end RowMapping
