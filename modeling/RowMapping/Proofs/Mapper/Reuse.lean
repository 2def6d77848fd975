import Mathlib.Data.List.Find
import Mathlib.Data.List.Nodup
import RowMapping.Proofs.Mapper.Batches
import RowMapping.Proofs.Mapper.Bearing
import RowMapping.Proofs.Mapper.Coupled
import RowMapping.Proofs.Registry.Settling

/-! Mapping in a context that has been used. Two worlds that one world has come to by use map rows alike:
their look-ups settle for twins, and their mappers take up child mappers of before, or make such as differ
in numbers only. -/
namespace RowMapping

open MappingM ReflectiveMapper

/-- A context that can be used without a trace: factories are pure, and mappers that are still to be made
have no children. Its factories may look types up if `l` holds. -/
structure World.Traceless (w : World) (c : Context) (l : Prop) : Prop where
  pure : (w.ground c).Pure
  direct : l ∨ (w.registryOf c).Direct
  distinct : ∀ cls t, w.tableFor c cls = some t → (t.properties.map (·.name)).Nodup
  numbered : ∀ e ∈ w.children, e.parent.serial < w.next

/-- A look-up may be cut short on either side if `l` holds. -/
def Leniency.cut (l : Prop) : Leniency := ⟨fun e => l ∧ e = .exhausted, fun e => l ∧ e = .exhausted⟩

/-! ### Child mappers -/

section Children

variable {w u v : World} {c : Context} {l : Prop} (traceless : w.Traceless c l)
include traceless

theorem World.Traceless.lists_unique {raw raw' : RawType} {p q : Property} (types : raw.same raw' = true)
    (same : p.same q = true) (mine : w.Lists c raw p) (other : w.Lists c raw' q) : p = q := by
  obtain ⟨t, known, member⟩ := mine
  obtain ⟨t', known', member'⟩ := other
  obtain ⟨cls, named, tabled⟩ := Option.bind_eq_some_iff.mp known
  rcases RawType.same_class types with ⟨rfl, _⟩ | ⟨unknown, _⟩
  · cases known.symm.trans known'
    simp only [Property.same, Bool.and_eq_true, decide_eq_true_eq] at same
    exact List.inj_on_of_nodup_map (traceless.distinct cls t tabled) member member' (by tauto)
  · rw [unknown] at named
    contradiction

theorem World.Traceless.run_child (used : w.Used c u) {m : ReflectiveMapper} {p : Property}
    (listed : w.Lists c m.target p) :
    ∃ made v, (child m p).run u = (.ok made, v) ∧ w.Used c v ∧
      match w.children.find? (fun e => e.parent.same m && e.property.same p) with
      | some e => made = e.mapper
      | none => Twins w.next made ⟨w.next, p.type.raw, Text.lower (m.lead ++ p.nested.getD "")⟩ := by
  obtain ⟨new, children, added⟩ := used.children
  have own : ∀ serial, w.next ≤ serial →
      Twins w.next (ReflectiveMapper.mk serial p.type.raw (Text.lower (m.lead ++ p.nested.getD "")))
        ⟨w.next, p.type.raw, Text.lower (m.lead ++ p.nested.getD "")⟩ := by
    intro serial later
    show ReflectiveMapper.mk (min serial w.next) _ _ = .mk (min w.next w.next) _ _
    rw [min_eq_right later, min_self]
  unfold child
  rw [run_bind_ok (run_get u), children, List.find?_append]
  cases old : w.children.find? (fun e => e.parent.same m && e.property.same p) with
  | some e => exact ⟨e.mapper, u, rfl, used, rfl⟩
  | none =>
    cases found : new.find? (fun e => e.parent.same m && e.property.same p) with
    | some e =>
      have one := List.find?_some found
      obtain ⟨later, lists⟩ := added e (List.mem_of_find?_eq_some found)
      rw [Bool.and_eq_true, ReflectiveMapper.same, Bool.and_eq_true, Bool.and_eq_true] at one
      have same := traceless.lists_unique one.1.1.2 one.2 lists listed
      refine ⟨e.mapper, u, rfl, used, ?_⟩
      show Twins w.next (ReflectiveMapper.mk e.serial e.property.type.raw _) _
      rw [same, of_decide_eq_true one.1.2]
      exact own e.serial later
    | none =>
      refine ⟨_, _, rfl, used.aside rfl (Nat.le_succ _) ⟨[⟨m, p, u.next⟩], rfl, ?_⟩, own u.next used.next⟩
      rintro e member
      rw [List.mem_singleton.mp member]
      exact ⟨used.next, listed⟩

/-- Numbers of mappers to be made do not matter for the children of before. -/
theorem World.Traceless.find_twin {m m' : ReflectiveMapper} (twins : Twins w.next m m') (p : Property) :
    w.children.find? (fun e => e.parent.same m && e.property.same p) =
      w.children.find? (fun e => e.parent.same m' && e.property.same p) := by
  obtain ⟨serials, target, lead⟩ := ReflectiveMapper.mk.inj twins
  have same : ∀ e ∈ w.children, (e.parent.same m && e.property.same p) =
      (e.parent.same m' && e.property.same p) := by
    intro e member
    have early := traceless.numbered e member
    have serial : decide (e.parent.serial = m.serial) = decide (e.parent.serial = m'.serial) := by
      rw [decide_eq_decide]
      omega
    simp only [ReflectiveMapper.same, target, lead, serial]
  exact List.find?_congr same

theorem World.Traceless.child {m m' : ReflectiveMapper} (twins : Twins w.next m m') {p : Property}
    (listed : w.Lists c m.target p) :
    Together (.cut l) (fun u v => w.Used c u ∧ w.Used c v) (Twins w.next) (child m p) (child m' p) := by
  obtain ⟨_, target, lead⟩ := ReflectiveMapper.mk.inj twins
  rintro u v ⟨usedU, usedV⟩
  obtain ⟨made, u', ranU, stillU, mine⟩ := traceless.run_child usedU listed
  obtain ⟨made', v', ranV, stillV, other⟩ := traceless.run_child usedV (target ▸ listed)
  rw [ranU, ranV]
  refine .inr ⟨?_, stillU, stillV⟩
  rw [traceless.find_twin twins, lead] at mine
  show Twins w.next made made'
  cases known : w.children.find? (fun e => e.parent.same m' && e.property.same p) with
  | some e =>
    rw [known] at mine other
    rw [mine, other]
    exact .refl _
  | none =>
    rw [known] at mine other
    exact Eq.trans mine (Eq.symm other)

end Children

/-! ### Contexts in use -/

section Use

variable {w : World} {c : Context} {l : Prop}

theorem idling_used : Idling (fun u v => w.Used c u ∧ w.Used c v) w.next where
  numbered used := ⟨used.1.next, used.2.next⟩
  idle used first second := ⟨used.1.idle first, used.2.idle second⟩

theorem World.Tabled.lists {n : Nat} {u : World} (tabled : w.Tabled n c c u) {raw : RawType}
    {t : PropertyTable} (known : raw.class?.bind (u.tableFor c) = some t) :
    ∀ p ∈ t.properties, w.Lists c raw p := by
  obtain ⟨cls, named, found⟩ := Option.bind_eq_some_iff.mp known
  rcases (tabled cls).cases with ⟨_, missing⟩ | ⟨x, y, first, now, twins⟩
  · rw [missing] at found
    contradiction
  · cases now.symm.trans found
    rw [← PropertyTable.twins_properties twins]
    exact fun p member => ⟨x, Option.bind_eq_some_iff.mpr ⟨cls, named, first⟩, member⟩

theorem World.Lists.of_table {cls : ClassRef} {test : Property → Bool}
    (all : ((w.tableFor c cls).all fun t => t.properties.all test) = true) {p : Property}
    (listed : w.Lists c (.cls cls) p) : test p = true := by
  obtain ⟨t, known, member⟩ := listed
  exact List.all_eq_true.mp ((Option.all_eq_true _ _).mp all t known) p member

theorem together_table (raw : RawType) :
    Together (.cut l) (fun u v => w.Used c u ∧ w.Used c v) ((Kinship.twins w.next (w.Lists c)).tables raw)
      (table? c raw) (table? c raw) := by
  rintro u v ⟨usedU, usedV⟩
  obtain ⟨u', ranU, consultedU⟩ := run_table_for c raw u
  obtain ⟨v', ranV, consultedV⟩ := run_table_for c raw v
  rw [ranU, ranV]
  have twins : FoundTwins w.next (raw.class?.bind (u.tableFor c)) (raw.class?.bind (v.tableFor c)) := by
    cases raw.class? with
    | none => exact .refl _
    | some cls => exact (usedU.tabled cls).symm.trans (usedV.tabled cls)
  have schema : u.schema = v.schema := usedU.schema.trans usedV.schema.symm
  refine .inr ⟨(World.consult_outcomes schema twins).mono fun o p found => ?_, usedU.consulted consultedU,
    usedV.consulted consultedV⟩
  exact ⟨found.1, fun t known => usedU.tabled.lists (found.2.trans known)⟩

theorem FoundAs.joined {n : Nat} {α : Type} [Serial α] {good : α → Prop} {a b o : Option α}
    (first : FoundAs n good a o) (second : FoundAs n good b o) : FoundAs n good a b :=
  ⟨first.1.trans second.1.symm, first.2⟩

theorem coupled_use (traceless : w.Traceless c l) {h : Hooks} (settle : h.Settle w c l)
    (columnFor : ∀ key, Together (.cut l) (fun u v => w.Used c u ∧ w.Used c v) (fun o p => o.isSome = p.isSome)
      (h.findColumn c key) (h.findColumn c key))
    (rowFor : ∀ key, Together (.cut l) (fun u v => w.Used c u ∧ w.Used c v) (fun o p => o.isSome = p.isSome)
      (h.findRow c key) (h.findRow c key))
    (column : ∀ type index row, Together (.cut l) (fun u v => w.Used c u ∧ w.Used c v) (· = ·)
      (h.column c type index row) (h.column c type index row))
    (row : ∀ type row, Together (.cut l) (fun u v => w.Used c u ∧ w.Used c v) (· = ·)
      (h.row c type row) (h.row c type row)) :
    Coupled (.cut l) (fun u v => w.Used c u ∧ w.Used c v) w.next (w.Lists c) h h c c where
  toIdling := idling_used
  parallel :=
    { schema := fun _ _ used => used.1.schema.trans used.2.schema.symm
      log := fun level logger text => idling_used.log level logger text text
      settings := fun u v used => by
        refine .inr ⟨?_, used⟩
        show (u.settings[c.settings]?).getD default = (v.settings[c.settings]?).getD default
        rw [used.1.settings, used.2.settings]
      table := together_table
      column := fun key => by
        have settles := settles_findColumn traceless.pure traceless.direct settle key
        exact settles.together (deepens_column _ key) settles fun _ _ _ => FoundAs.joined
      child := fun _ _ _ kin listed _ _ => traceless.child kin listed
      kin := fun _ _ kin => .inl (ReflectiveMapper.mk.inj kin).2
      raw := trivial }
  findRow key := by
    have settles := settles_findRow traceless.pure traceless.direct settle key
    exact settles.together (deepens_row _ key) settles fun _ _ _ => FoundAs.joined
  columnFor := columnFor
  rowFor := rowFor
  column := column
  row := row

/-- Two worlds of use map alike, at every depth of hooks. -/
theorem coupled_hooks (traceless : w.Traceless c l) (depth : Nat) :
    Coupled (.cut l) (fun u v => w.Used c u ∧ w.Used c v) w.next (w.Lists c) (Session.hooks depth)
      (Session.hooks depth) c c := by
  have settle := hooks_settle traceless.pure traceless.direct
  induction depth with
  | zero =>
    exact coupled_use traceless (settle 0) (fun _ => .throw _) (fun _ => .throw _) (fun _ _ _ => .throw _)
      fun _ _ => .throw _
  | succ depth ih =>
    exact coupled_use traceless (settle _)
      (fun key => (ih.parallel.column key).mono fun _ _ found => found.1.isSome_eq)
      (fun key => (ih.findRow key).mono fun _ _ found => found.1.isSome_eq) ih.hookColumn ih.hookRow

theorem bearing_use (traceless : w.Traceless c l) {h : Hooks} (settle : h.Settle w c l)
    (columnFor : ∀ key u, w.Used c u → w.Used c ((h.findColumn c key).run u).2)
    (rowFor : ∀ key u, w.Used c u → w.Used c ((h.findRow c key).run u).2)
    (column : ∀ type index row u, w.Used c u → w.Used c ((h.column c type index row).run u).2)
    (row : ∀ type row u, w.Used c u → w.Used c ((h.row c type row).run u).2) :
    Bearing (fun u v => w.Used c u ∧ w.Used c v) h c (w.Lists c) (fun _ _ => True) where
  trans one other := ⟨one.1, other.2⟩
  settled used := ⟨used.2, used.2⟩
  idle used idle := ⟨used.1, used.1.idle idle⟩
  counted calls used := ⟨used.1, used.1.aside rfl le_rfl ⟨[], (List.append_nil _).symm, nofun⟩⟩
  stays _ _ := trivial
  table {u} raw used := by
    obtain ⟨v, ran, consulted⟩ := run_table_for c raw u
    rw [Brings, ran]
    refine ⟨⟨used.1, used.1.consulted consulted⟩, fun o returned t known => ?_⟩
    cases known
    exact used.1.tabled.lists (World.consult_some returned)
  child {u m p} used _ listed := by
    obtain ⟨made, v, ran, still, _⟩ := traceless.run_child used.1 listed
    rw [Brings, ran]
    exact ⟨⟨used.1, still⟩, fun _ _ => trivial⟩
  findColumn {u} key used :=
    ⟨⟨used.1, (settles_findColumn traceless.pure traceless.direct settle key u used.1).1⟩, fun _ _ => trivial⟩
  findRow {u} key used :=
    ⟨⟨used.1, (settles_findRow traceless.pure traceless.direct settle key u used.1).1⟩,
      fun _ _ _ _ _ _ => trivial⟩
  columnFor {u} key used := ⟨⟨used.1, columnFor key u used.1⟩, fun _ _ => trivial⟩
  rowFor {u} key used := ⟨⟨used.1, rowFor key u used.1⟩, fun _ _ => trivial⟩
  column {u} type index cells used := ⟨⟨used.1, column type index cells u used.1⟩, fun _ _ => trivial⟩
  row {u} type cells used := ⟨⟨used.1, row type cells u used.1⟩, fun _ _ => trivial⟩

theorem bearing_hooks (traceless : w.Traceless c l) (depth : Nat) :
    Bearing (fun u v => w.Used c u ∧ w.Used c v) (Session.hooks depth) c (w.Lists c) (fun _ _ => True) := by
  have settle := hooks_settle traceless.pure traceless.direct
  induction depth with
  | zero =>
    exact bearing_use traceless (settle 0) (fun _ _ used => used) (fun _ _ used => used)
      (fun _ _ _ _ used => used) fun _ _ _ used => used
  | succ depth ih =>
    refine bearing_use traceless (settle _) (fun key u used => ?_) (fun key u used => ?_)
      (fun type index row u used => ?_) fun type row u used => ?_
    · exact (ih.findColumn key ⟨used, used⟩).1.2
    · exact (ih.findRow key ⟨used, used⟩).1.2
    · exact (ih.hookColumn type index row ⟨used, used⟩).1.2
    · exact (ih.hookRow type row ⟨used, used⟩).1.2

end Use
end RowMapping
