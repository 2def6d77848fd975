import RowMapping.Proofs.Registry.Growth

/-! Worlds that a session comes to. Changes and look-ups may follow each other in any order, so that
the moments inside of a look-up, between the questions of its factories, are among them. -/
namespace RowMapping

open Session

inductive Onward : World → World → Prop
  | refl (w : World) : Onward w w
  | change {u w v : World} : Onward u w → Change w v → Onward u v
  | column {u w : World} (depth : Nat) (c : Context) (key : Descriptor) : Onward u w →
      Onward u ((Registry.findColumn (hooks depth) c key).run w).2
  | row {u w : World} (depth : Nat) (c : Context) (key : Descriptor) : Onward u w →
      Onward u ((Registry.findRow (hooks depth) c key).run w).2

namespace Onward

theorem trans {u v w : World} (h : Onward u v) (k : Onward v w) : Onward u w := by
  induction k with
  | refl => exact h
  | change _ change ih => exact ih.change change
  | column depth c key _ ih => exact ih.column depth c key
  | row depth c key _ ih => exact ih.row depth c key

theorem course : Course Onward where
  refl := refl
  trans := trans
  change change := .change (.refl _) change

theorem lookups (depth : Nat) : Registry.Lead Onward (hooks depth) where
  column c key nullable := by
    obtain ⟨raw, args, _⟩ := key
    exact fun w => .column depth c (.mk raw args nullable) (.refl w)
  row c key := fun w => .row depth c key (.refl w)

theorem hooks (depth : Nat) : (Session.hooks depth).Lead Onward :=
  (course.hooks (fun depth _ => lookups depth) depth).1

theorem step (depth : Nat) (command : Command) (w : World) :
    Onward w (Session.step (Session.hooks depth) command w).2 :=
  course.step (hooks depth) (lookups depth) command w

/-- A course that look-ups keep to admits all that changes and look-ups lead on to. -/
theorem admits {R : World → World → Prop} (course : Course R)
    (lookup : ∀ depth, Registry.Lead R (Session.hooks depth)) {u w : World} (onward : Onward u w) :
    R u w := by
  induction onward with
  | refl => exact course.refl _
  | change _ change ih => exact course.trans ih (course.change change)
  | column depth c key _ ih => exact course.trans ih ((lookup depth).findColumn c key _)
  | row depth c key _ ih => exact course.trans ih ((lookup depth).row c key _)

end Onward

def Session.after (commands : List Command) (w : World) : World :=
  commands.foldl (fun w command => (Session.step (hooks Session.depth) command w).2) w

theorem Onward.after (commands : List Command) (w : World) :
    Onward w (Session.after commands w) := by
  induction commands generalizing w with
  | nil => exact .refl w
  | cons command commands ih => exact (Onward.step _ command w).trans (ih _)

/-- A session over the classes of `s` can come to the world. -/
def Reached (s : Schema) (w : World) : Prop :=
  ∃ u : World, u.schema = s ∧ u.registries = [] ∧ u.tables = [] ∧ Onward u w

namespace Reached

variable {s : Schema}

theorem onward {w v : World} (reached : Reached s w) (on : Onward w v) : Reached s v := by
  obtain ⟨u, schema, registries, tables, before⟩ := reached
  exact ⟨u, schema, registries, tables, before.trans on⟩

theorem change {w v : World} (reached : Reached s w) (change : Change w v) : Reached s v :=
  reached.onward (.change (.refl w) change)

/-- What holds of worlds without registries, and what changes and look-ups keep, holds wherever a
session comes to. -/
theorem holds {P : World → Prop} (course : Course fun w v => P w → P v)
    (lookup : ∀ depth, Registry.Lead (fun w v => P w → P v) (hooks depth))
    (empty : ∀ w : World, w.schema = s → w.registries = [] → w.tables = [] → P w) {w : World}
    (reached : Reached s w) : P w := by
  obtain ⟨u, schema, registries, tables, on⟩ := reached
  exact on.admits course lookup (empty u schema registries tables)

theorem schema {w : World} (reached : Reached s w) : w.schema = s := by
  obtain ⟨u, schema, _, _, on⟩ := reached
  exact (on.admits World.course_grown fun depth => (World.grown_hooks depth).2).schema.trans schema

theorem empty (loggers : List Logger) : Reached s (emptyWorld s loggers) :=
  ⟨_, rfl, rfl, rfl, .refl _⟩

theorem start {loggers : List Logger} {spec : ContextSpec} {w : World}
    (started : Session.start s loggers spec = .ok w) : Reached s w :=
  (empty []).onward (Onward.course.start started)

theorem after {loggers : List Logger} {spec : ContextSpec} {w : World}
    (started : (Session.start s loggers spec).toOption = some w) (commands : List Command) :
    Reached s (Session.after commands w) := by
  cases ok : Session.start s loggers spec with
  | error e =>
    rw [ok] at started
    contradiction
  | ok v =>
    rw [ok] at started
    cases started
    exact (Reached.start ok).onward (.after commands _)

theorem step {w : World} (reached : Reached s w) (depth : Nat) (command : Command) :
    Reached s (Session.step (hooks depth) command w).2 :=
  reached.onward (.step depth command w)

end Reached

def Registry.Founded (r : Registry) : Prop :=
  ∃ added serial, r.columns.factories = added ++ [.scalars serial, .arrays]

namespace World

def Founded (w : World) : Prop := ∀ r ∈ w.registries, r.Founded

theorem founded_modify {w : World} {i : Nat} {f : Registry → Registry} (founded : w.Founded)
    (keeps : ∀ r : Registry, r.Founded → (f r).Founded) :
    Founded { w with registries := w.registries.modify i f } := by
  intro r hr
  obtain ⟨j, t, known, ⟨_, rfl⟩ | ⟨_, rfl⟩⟩ := exists_of_mem_modify hr
  · exact keeps t (founded t (List.mem_of_getElem? known))
  · exact founded r (List.mem_of_getElem? known)

theorem founded_add {w : World} {r : Registry} (founded : w.Founded) (new : r.Founded) :
    Founded { w with registries := w.registries ++ [r] } := by
  intro t ht
  rcases List.mem_append.mp ht with old | last
  · exact founded t old
  · exact List.mem_singleton.mp last ▸ new

theorem course_founded : Course fun w v => w.Founded → v.Founded where
  refl _ := id
  trans h k := k ∘ h
  change := by
    intro w v change founded
    cases change with
    | aside _ registries _ => exact fun r hr => founded r (registries ▸ hr)
    | derived | declared | tablesAdded => exact founded
    | founded serial => exact founded_add founded ⟨[], serial, rfl⟩
    | copied known =>
      have old := founded _ (List.mem_of_getElem? known)
      exact founded_add founded old
    | rowRegistered i f => exact founded_modify founded fun r old => old
    | columnRegistered i f =>
      refine founded_modify founded fun r ⟨added, serial, old⟩ => ⟨f :: added, serial, ?_⟩
      exact congrArg (f :: ·) old

theorem founded_of_reached {s : Schema} {w : World} (reached : Reached s w) : w.Founded := by
  have hooks := course_founded.hooks_of_keep ?_ ?_
  · refine reached.holds course_founded (fun depth => (hooks depth).2) fun w _ none _ r hr => ?_
    exact absurd (none ▸ hr) List.not_mem_nil
  · intro c generation key m w founded
    refine founded_modify founded fun r old => ?_
    split <;> exact old
  · intro c key m w founded
    exact founded_modify founded fun r old => old

end World
end RowMapping
