import RowMapping.Session.Run

/-! Where computations lead. A relation between worlds that admits every single change of a session
admits every run of changes, whatever it comes to in the end. -/
namespace RowMapping

open MappingM

/-- Whatever the computation comes to, the world that it leads to is one that `R` admits. -/
def Leads (R : World → World → Prop) {α : Type} (x : MappingM α) : Prop :=
  ∀ w, R w (x.run w).2

def LeadsOver (R : World → World → Prop) {σ α : Type} (x : StateT σ MappingM α) : Prop :=
  ∀ s, Leads R (x.run s)

/-- A single change that a session makes to a world, apart from keeping mappers that it finds. -/
inductive Change : World → World → Prop
  /-- Neither classes nor registries nor property tables are touched. -/
  | aside {w v : World} : v.schema = w.schema → v.registries = w.registries →
      v.tables = w.tables → Change w v
  | derived {w : World} {n : String} {cls : Class} {serial : Nat} {t : PropertyTable} (i : Nat) :
      w.schema.find? n = some cls → PropertyTable.describe w.schema serial cls = .ok (some t) →
        Change w { w with tables := w.tables.modify i (·.derive t) }
  | declared {w : World} {s : Schema} {serial : Nat} {cls : ClassRef} {ps : List Property}
      {builder : Option Builder} {marker : Option String} {t : PropertyTable} (i : Nat) :
      t = .declared s serial cls ps builder marker →
        Change w { w with tables := w.tables.modify i (·.declare t) }
  | tablesAdded {w : World} {t : TableStore} : t = default ∨ t ∈ w.tables →
      Change w { w with tables := w.tables ++ [t] }
  | founded (w : World) (serial : Nat) :
      Change w { w with registries := w.registries ++ [.standard serial] }
  | copied {w : World} {i : Nat} {r : Registry} : w.registries[i]? = some r →
      Change w { w with registries := w.registries ++ [r.snapshot] }
  | rowRegistered (w : World) (i : Nat) (f : RowFactory) :
      Change w { w with registries := w.registries.modify i (·.registerRow f) }
  | columnRegistered (w : World) (i : Nat) (f : ColumnFactory) :
      Change w { w with registries := w.registries.modify i (·.registerColumn f) }

/-- A relation that admits every run of changes. -/
structure Course (R : World → World → Prop) : Prop where
  refl : ∀ w, R w w
  trans : ∀ {u v w}, R u v → R v w → R u w
  change : ∀ {w v}, Change w v → R w v

structure Hooks.Lead (R : World → World → Prop) (h : Hooks) : Prop where
  perform : ∀ commands, Leads R (h.perform commands)
  findColumn : ∀ c key, Leads R (h.findColumn c key)
  findRow : ∀ c key, Leads R (h.findRow c key)
  column : ∀ c type index row, Leads R (h.column c type index row)
  row : ∀ c type row, Leads R (h.row c type row)

section Runs

variable {σ α β : Type}

theorem run_bind (x : MappingM α) (f : α → MappingM β) (w : World) :
    (x >>= f).run w = match x.run w with
      | (.ok a, v) => (f a).run v
      | (.error e, v) => (.error e, v) := by
  show (ExceptT.bindCont f (x.run w).1 : StateM World _) (x.run w).2 = _
  rcases x.run w with ⟨_ | _, v⟩ <;> rfl

theorem run_bind_ok {x : MappingM α} {f : α → MappingM β} {w v : World} {a : α}
    (first : x.run w = (.ok a, v)) : (x >>= f).run w = (f a).run v := by
  rw [run_bind, first]

theorem run_bind_error {x : MappingM α} {f : α → MappingM β} {w v : World} {e : Failure}
    (first : x.run w = (.error e, v)) : (x >>= f).run w = (.error e, v) := by
  rw [run_bind, first]

theorem run_of_toOption {x : MappingM α} {w : World} {a : α} (yields : (x.run w).1.toOption = some a) :
    x.run w = (.ok a, (x.run w).2) := by
  generalize x.run w = result at yields ⊢
  obtain ⟨e | b, v⟩ := result
  · contradiction
  · cases yields
    rfl

@[simp] theorem run_get (w : World) : (get : MappingM World).run w = (.ok w, w) := rfl

end Runs

namespace Course

variable {R : World → World → Prop} {σ α β : Type} (course : Course R)
include course

theorem aside {w v : World} (schema : v.schema = w.schema) (registries : v.registries = w.registries)
    (tables : v.tables = w.tables) : R w v := course.change (.aside schema registries tables)

protected theorem pure (a : α) : Leads R (pure a : MappingM α) := fun w => course.refl w

protected theorem throw (e : Failure) : Leads R (throw e : MappingM α) := fun w => course.refl w

protected theorem get : Leads R (get : MappingM World) := fun w => course.refl w

theorem lift (e : Except Failure α) : Leads R (liftM e : MappingM α) := by
  cases e with
  | error r => exact course.throw r
  | ok a => exact course.pure a

protected theorem bind {x : MappingM α} {f : α → MappingM β} (hx : Leads R x)
    (hf : ∀ a, Leads R (f a)) : Leads R (x >>= f) := by
  intro w
  have first := hx w
  rw [run_bind]
  rcases e : x.run w with ⟨r | a, v⟩ <;> rw [e] at first
  · exact first
  · exact course.trans first (hf a v)

protected theorem forM {f : α → MappingM PUnit} (hf : ∀ a, Leads R (f a)) (as : List α) :
    Leads R (as.forM f) := by
  induction as with
  | nil => exact course.pure _
  | cons a as ih => exact course.bind (hf a) fun _ => ih

protected theorem mapM {f : α → MappingM β} (hf : ∀ a, Leads R (f a)) (as : List α) :
    Leads R (as.mapM f) := by
  induction as with
  | nil => exact course.pure _
  | cons a as ih =>
    rw [List.mapM_cons]
    exact course.bind (hf a) fun _ => course.bind ih fun _ => course.pure _

theorem pureOver (a : α) : LeadsOver R (pure a : StateT σ MappingM α) := fun _ => course.pure _

theorem getOver : LeadsOver R (get : StateT σ MappingM σ) := fun _ => course.pure _

theorem setOver (s : σ) : LeadsOver R (set s : StateT σ MappingM PUnit) := fun _ => course.pure _

theorem modifyOver (f : σ → σ) : LeadsOver R (modify f : StateT σ MappingM PUnit) :=
  fun _ => course.pure _

theorem throwOver (e : Failure) : LeadsOver R (throw e : StateT σ MappingM α) :=
  fun _ => course.throw e

theorem liftOver {x : MappingM α} (hx : Leads R x) : LeadsOver R (liftM x : StateT σ MappingM α) :=
  fun _ => course.bind hx fun _ => course.pure _

theorem bindOver {x : StateT σ MappingM α} {f : α → StateT σ MappingM β} (hx : LeadsOver R x)
    (hf : ∀ a, LeadsOver R (f a)) : LeadsOver R (x >>= f) :=
  fun s => course.bind (hx s) fun p => hf p.1 p.2

theorem mapMOver {f : α → StateT σ MappingM β} (hf : ∀ a, LeadsOver R (f a)) (as : List α) :
    LeadsOver R (as.mapM f) := by
  induction as with
  | nil => exact course.pureOver _
  | cons a as ih =>
    rw [List.mapM_cons]
    exact course.bindOver (hf a) fun _ => course.bindOver ih fun _ => course.pureOver _

end Course
end RowMapping
