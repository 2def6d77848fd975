import RowMapping.Proofs.Mapper.Twins
import RowMapping.Proofs.Schema.Described
import RowMapping.Proofs.Schema.Tables
import RowMapping.Proofs.Session.Together

/-! The property tables that classes have in a context, declared or yet to be derived. Looking one up may
derive it; but for serial numbers every class then has the table that it had before. -/
namespace RowMapping

open MappingM

/-- The property table that a class has in a context, or would get there. -/
def World.tableFor (w : World) (c : Context) : ClassRef → Option PropertyTable
  | .builtin b => ((w.tables[c.tables]?).getD default).find? (.builtin b)
  | .declared n => (w.schema.find? n).bind fun cls =>
      (((w.tables[c.tables]?).getD default).find? (.declared n)).or (w.schema.derives w.next cls)

/-- What the look-up of a type's table comes to: it fails where annotations name what nothing
declares. -/
def World.consult (w : World) (c : Context) (raw : RawType) : Except Failure (Option PropertyTable) :=
  match raw.class?.bind (w.tableFor c) with
  | some t => .ok (some t)
  | none => if raw.class?.any w.schema.obscure then .error .undeclared else .ok none

theorem World.made_of_tableFor {w : World} {c : Context} {cls : ClassRef} {t : PropertyTable}
    (found : w.tableFor c cls = some t) :
    (∃ store ∈ w.tables, ∃ e ∈ store.declared ++ store.derived, e.2 = t) ∨
      ∃ cls ∈ w.schema.classes, PropertyTable.ofClass? w.next cls = some t := by
  have stored : ∀ cls, ((w.tables[c.tables]?).getD default).find? cls = some t →
      ∃ store ∈ w.tables, ∃ e ∈ store.declared ++ store.derived, e.2 = t := by
    intro cls own
    cases present : w.tables[c.tables]? with
    | none =>
      rw [present] at own
      cases own
    | some store =>
      rw [present] at own
      exact ⟨store, List.mem_of_getElem? present, TableStore.stored_of_find own⟩
  cases cls with
  | builtin b => exact .inl (stored _ found)
  | declared n =>
    obtain ⟨cls, known, own⟩ := Option.bind_eq_some_iff.mp found
    rcases Option.or_eq_some_iff.mp own with kept | ⟨_, derived⟩
    · exact .inl (stored _ kept)
    · exact .inr ⟨cls, List.mem_of_find?_eq_some known, Schema.ofClass_of_derives derived⟩

theorem World.Regular.tableFor {w : World} (regular : w.Regular) {c : Context} {cls : ClassRef}
    {t : PropertyTable} (found : w.tableFor c cls = some t) : t.Regular := by
  rcases World.made_of_tableFor found with ⟨store, member, e, own, rfl⟩ | ⟨_, _, derived⟩
  · exact regular store member e own
  · exact PropertyTable.regular_ofClass derived

/-- Classes have the same tables in both worlds, but for serial numbers from `n` on. -/
def World.Tabled (n : Nat) (c d : Context) (w v : World) : Prop :=
  ∀ cls, FoundTwins n (w.tableFor c cls) (v.tableFor d cls)

theorem FoundTwins.symm {n : Nat} {α : Type} [Serial α] {a b : Option α} (twins : FoundTwins n a b) :
    FoundTwins n b a := Eq.symm twins

theorem FoundTwins.trans {n : Nat} {α : Type} [Serial α] {a b c : Option α} (twins : FoundTwins n a b)
    (next : FoundTwins n b c) : FoundTwins n a c := Eq.trans twins next

theorem PropertyTable.ofClass_twins {n a b : Nat} (ha : n ≤ a) (hb : n ≤ b) (cls : Class) :
    FoundTwins n (ofClass? a cls) (ofClass? b cls) := by
  unfold ofClass?
  split
  · simp [FoundTwins, Serial.upTo, ofRecord, min_eq_right ha, min_eq_right hb]
  · simp [FoundTwins, Serial.upTo, ofModel, min_eq_right ha, min_eq_right hb]
  · rfl

theorem Schema.derives_twins {n a b : Nat} (s : Schema) (ha : n ≤ a) (hb : n ≤ b) (cls : Class) :
    FoundTwins n (s.derives a cls) (s.derives b cls) := by
  unfold derives
  split
  · exact PropertyTable.ofClass_twins ha hb cls
  · rfl

theorem FoundTwins.or {n : Nat} {α : Type} [Serial α] {a a' b b' : Option α} (first : FoundTwins n a a')
    (second : FoundTwins n b b') : FoundTwins n (a.or b) (a'.or b') := by
  rcases first.cases with ⟨rfl, rfl⟩ | ⟨x, y, rfl, rfl, _⟩
  · exact second
  · exact first

namespace World

theorem tabled_of_tables {n : Nat} {w v : World} (schema : v.schema = w.schema)
    (tables : v.tables = w.tables) (below : n ≤ w.next) (next : n ≤ v.next) (c : Context) :
    w.Tabled n c c v := by
  intro cls
  cases cls with
  | builtin b => simp only [tableFor, tables, FoundTwins.refl]
  | declared name =>
    simp only [tableFor, tables, schema]
    cases w.schema.find? name with
    | none => rfl
    | some cls => exact FoundTwins.or rfl (w.schema.derives_twins below next cls)

theorem find_derive_own {store : TableStore} {t : PropertyTable} (missing : store.find? t.target = none) :
    (store.derive t).find? t.target = some t := by
  have undeclared := (Option.or_eq_none_iff.mp missing).1
  rw [TableStore.find?, TableStore.derive, undeclared]
  simp [TableStore.lookup?]

theorem tabled_derive {n : Nat} {w : World} {c : Context} {name : String} {cls : Class}
    {t : PropertyTable} (below : n ≤ w.next) (known : w.schema.find? name = some cls)
    (missing : ((w.tables[c.tables]?).getD default).find? (.declared name) = none)
    (made : w.schema.derives w.next cls = some t) (d : Context) :
    w.Tabled n d d { w with next := w.next + 1, tables := w.tables.modify c.tables (·.derive t) } := by
  have own : cls.name = name := by simpa using List.find?_some known
  have target : t.target = .declared name := by
    rw [PropertyTable.ofClass_target (Schema.ofClass_of_derives made), own]
  have same := tabled_of_tables (w := w) (v := { w with next := w.next + 1 }) rfl rfl below
    (Nat.le_succ_of_le below) d
  intro cls'
  refine (same cls').trans ?_
  by_cases here : c.tables = d.tables
  · cases present : w.tables[d.tables]? with
    | none => simp [tableFor, FoundTwins, here, present]
    | some store =>
      replace missing : store.find? t.target = none := by
        simpa [here, present, target] using missing
      by_cases target' : cls' = t.target
      · rw [target', target]
        have derived := find_derive_own missing
        have twins := w.schema.derives_twins (Nat.le_succ_of_le below) below cls
        rw [target] at missing derived
        rw [made] at twins
        simpa [tableFor, here, present, known, missing, derived] using twins
      · have other : t.target ≠ cls' := fun eq => target' eq.symm
        cases cls' <;>
          simp [tableFor, FoundTwins, here, present, store.find_derive t other]
  · simp only [tableFor, List.getElem?_modify, here]
    simp [FoundTwins]

end World

/-- Looking a table up changes only tables and the next number, and for every class only as far as
serial numbers go. -/
structure World.Consulted (w v : World) : Prop where
  rest : v = { w with tables := v.tables, next := v.next }
  next : w.next ≤ v.next
  length : v.tables.length = w.tables.length
  tabled : ∀ n ≤ w.next, ∀ d, w.Tabled n d d v

theorem World.Consulted.refl (w : World) : w.Consulted w := ⟨rfl, le_rfl, rfl, fun _ _ _ _ => rfl⟩

section Consult

variable (c : Context) (raw : RawType) (w : World)

theorem run_table_for : ∃ v, (table? c raw).run w = (w.consult c raw, v) ∧ w.Consulted v := by
  unfold table?
  rw [run_bind_ok (x := tables c) (a := (w.tables[c.tables]?).getD default) (v := w) rfl]
  cases what : raw.class? with
  | none =>
    refine ⟨w, ?_, .refl w⟩
    rw [World.consult, what]
    rfl
  | some cls =>
    cases cls with
    | builtin b =>
      have told : w.consult c raw = .ok (((w.tables[c.tables]?).getD default).find? (.builtin b)) := by
        cases found : ((w.tables[c.tables]?).getD default).find? (.builtin b) <;>
          simp [World.consult, what, World.tableFor, Schema.obscure, found]
      exact ⟨w, told ▸ rfl, .refl w⟩
    | declared name =>
      dsimp only
      rw [run_bind_ok (run_get w)]
      cases known : w.schema.find? name with
      | none =>
        have told : w.consult c raw = .ok none := by
          simp [World.consult, what, World.tableFor, Schema.obscure, known]
        exact ⟨w, told ▸ rfl, .refl w⟩
      | some cls =>
        have told : w.consult c raw = match ((w.tables[c.tables]?).getD default).find? (.declared name) with
            | some t => .ok (some t)
            | none => PropertyTable.describe w.schema w.next cls := by
          cases found : ((w.tables[c.tables]?).getD default).find? (.declared name) with
          | some t => simp [World.consult, what, World.tableFor, known, found]
          | none =>
            cases described : w.schema.describes cls with
            | false =>
              simp [World.consult, what, World.tableFor, Schema.obscure, known, found, described,
                PropertyTable.describe_eq, Schema.derives]
            | true =>
              cases made : w.schema.derives w.next cls <;>
                simp [World.consult, what, World.tableFor, Schema.obscure, known, found, described,
                  PropertyTable.describe_eq, made]
        rw [told]
        cases found : ((w.tables[c.tables]?).getD default).find? (.declared name) with
        | some t => exact ⟨w, rfl, .refl w⟩
        | none =>
          unfold derive?
          rw [run_bind_ok (run_get w), run_bind_ok (run_get w)]
          dsimp only
          cases made : PropertyTable.describe w.schema w.next cls with
          | error e => exact ⟨w, rfl, .refl w⟩
          | ok o =>
            cases o with
            | none => exact ⟨w, rfl, .refl w⟩
            | some t =>
              refine ⟨_, rfl, rfl, Nat.le_succ _, List.length_modify .., fun n below d => ?_⟩
              exact World.tabled_derive below known found (Schema.derives_of_describe made) d

end Consult

namespace World

variable {w : World} {c : Context} {raw : RawType}

theorem consult_some {t : PropertyTable} (found : w.consult c raw = .ok (some t)) :
    raw.class?.bind (w.tableFor c) = some t := by
  unfold consult at found
  split at found
  · next own => rw [own, Option.some.inj (Except.ok.inj found)]
  · split at found <;> cases found

theorem consult_of_tableFor {t : PropertyTable} (own : raw.class?.bind (w.tableFor c) = some t) :
    w.consult c raw = .ok (some t) := by
  rw [consult, own]

theorem consult_error {f : Failure} (failed : w.consult c raw = .error f) :
    f = .undeclared ∧ raw.class?.any w.schema.obscure = true := by
  unfold consult at failed
  split at failed
  · cases failed
  · split at failed
    · next obscure => exact ⟨(Except.error.inj failed).symm, obscure⟩
    · cases failed

theorem consult_outcomes {v : World} {d : Context} {n : Nat} (schema : w.schema = v.schema)
    (twins : FoundTwins n (raw.class?.bind (w.tableFor c)) (raw.class?.bind (v.tableFor d))) :
    Outcomes (fun o p => FoundTwins n o p ∧ raw.class?.bind (w.tableFor c) = o) (w.consult c raw)
      (v.consult d raw) := by
  unfold consult
  rw [← schema]
  rcases twins.cases with ⟨first, second⟩ | ⟨t, u, first, second, same⟩
  · rw [first, second]
    dsimp only
    split
    · rfl
    · exact ⟨.refl none, rfl⟩
  · rw [first, second]
    exact ⟨foundTwins_some same, rfl⟩

theorem class_of_consult {t : PropertyTable} (found : w.consult c raw = .ok (some t)) :
    raw.class?.isSome :=
  Option.isSome_of_isSome_bind (Option.isSome_of_mem (consult_some found))

end World

theorem class_of_table {c : Context} {raw : RawType} {w : World} {t : PropertyTable}
    (found : ((table? c raw).run w).1 = .ok (some t)) : raw.class?.isSome := by
  obtain ⟨v, ran, _⟩ := run_table_for c raw w
  rw [ran] at found
  exact World.class_of_consult found

end RowMapping
