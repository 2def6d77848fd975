import RowMapping.Proofs.Mapper.Answers
import RowMapping.Proofs.Schema.Tabled

/-! Numbers are given out once. All reflective mappers that a session holds, those that were found, saved or
made for nested properties, bear numbers below the next one, if factories of the caller answer with no
others. So a mapper that is still to be made will have no children when it is made. -/
namespace RowMapping

open MappingM

/-! ### Numbers given out -/

/-- The reflective mappers that the mapper is or holds bear numbers below `n`. -/
def ColumnMapper.Below (n : Nat) (m : ColumnMapper) : Prop := ∀ k ∈ m.reflects, k.serial < n

def RowMapper.Below (n : Nat) (m : RowMapper) : Prop := ∀ k ∈ m.reflects, k.serial < n

section Allowed

/- Commands that may be run when so many numbers are given out. -/
variable (allowed : Nat → Command → Prop)

def AllowedFrom (n : Nat) (commands : List Command) : Prop := ∀ command ∈ commands, ∀ k ≥ n, allowed k command

/-- The procedure runs allowed commands only, and told of mappers with numbers given out by then it answers
with such. -/
def Procedure.Below {Mapper : Type} (below : Nat → Mapper → Prop) : Nat → Procedure Command Mapper → Prop
  | n, .answer o => ∀ m ∈ o, below n m
  | _, .raise _ => True
  | n, .column _ next => ∀ k ≥ n, ∀ o, (∀ m ∈ o, ColumnMapper.Below k m) → (next o).Below below k
  | n, .row _ next => ∀ k ≥ n, ∀ o, (∀ m ∈ o, RowMapper.Below k m) → (next o).Below below k
  | n, .perform commands next => (∀ k, AllowedFrom allowed n (commands k)) ∧ next.Below below n

def ColumnFactory.Below (n : Nat) : ColumnFactory → Prop
  | .fixed _ m => m.Below n
  | .custom f => AllowedFrom allowed n f.onBuild
  | .written _ ask => ∀ key, (ask key).Below allowed ColumnMapper.Below n
  | _ => True

def RowFactory.Below (n : Nat) : RowFactory → Prop
  | .fixed _ m => m.Below n
  | .custom f => AllowedFrom allowed n f.onBuild
  | .written _ ask => ∀ key, (ask key).Below allowed RowMapper.Below n
  | _ => True

structure Registry.Below (n : Nat) (r : Registry) : Prop where
  rows : ∀ f ∈ r.rows.factories, f.Below allowed n
  columns : ∀ f ∈ r.columns.factories, f.Below allowed n
  keptRows : ∀ e ∈ r.rows.cache, e.2.Below n
  keptColumns : ∀ e ∈ r.columns.cache, e.2.Below n

/-- All numbers in the world were given out before. -/
structure World.Numbered (w : World) : Prop where
  registries : ∀ r ∈ w.registries, r.Below allowed w.next
  saved : ∀ e ∈ w.saved, e.2.Below w.next
  children : ∀ e ∈ w.children, e.parent.serial < w.next ∧ e.serial < w.next

/-- Both worlds hold numbers given out before, those of the first no later. -/
structure World.Counts (u v : World) : Prop where
  first : u.Numbered allowed
  second : v.Numbered allowed
  next : u.next ≤ v.next

/-- From a world of numbers given out the computation leads to another, and returns what satisfies `Q`. -/
abbrev Numbers {α : Type} (Q : World → α → Prop) (x : MappingM α) : Prop :=
  ∀ u : World, u.Numbered allowed → Brings (World.Counts allowed) Q x u

structure Hooks.Number (h : Hooks) : Prop where
  performs : ∀ commands (u : World), u.Numbered allowed → AllowedFrom allowed u.next commands →
    Brings (World.Counts allowed) Anything (h.perform commands) u
  column : ∀ c key, Numbers allowed (fun v o => ∀ m ∈ o, m.Below v.next) (h.findColumn c key)
  row : ∀ c key, Numbers allowed (fun v o => ∀ m ∈ o, m.Below v.next) (h.findRow c key)

end Allowed

variable {allowed : Nat → Command → Prop}

section Below

variable {n k : Nat} (le : n ≤ k)
include le

theorem AllowedFrom.mono {commands : List Command} (own : AllowedFrom allowed n commands) :
    AllowedFrom allowed k commands := fun command member i later => own command member i (le.trans later)

theorem ColumnMapper.Below.mono {m : ColumnMapper} (below : m.Below n) : m.Below k :=
  fun r member => Nat.lt_of_lt_of_le (below r member) le

theorem RowMapper.Below.mono {m : RowMapper} (below : m.Below n) : m.Below k :=
  fun r member => Nat.lt_of_lt_of_le (below r member) le

theorem Procedure.Below.mono {Mapper : Type} {good : Nat → Mapper → Prop}
    (weaker : ∀ m, good n m → good k m) {p : Procedure Command Mapper} (below : p.Below allowed good n) :
    p.Below allowed good k := by
  induction p with
  | answer o => exact fun m member => weaker m (below m member)
  | raise => trivial
  | column type next => exact fun k' later => below k' (le.trans later)
  | row type next => exact fun k' later => below k' (le.trans later)
  | perform commands next ih => exact ⟨fun i => (below.1 i).mono le, ih below.2⟩

theorem ColumnFactory.Below.mono {f : ColumnFactory} (below : f.Below allowed n) : f.Below allowed k := by
  cases f with
  | fixed target m => exact ColumnMapper.Below.mono le below
  | custom f => exact AllowedFrom.mono le below
  | written name ask => exact fun key => (below key).mono le fun _ => ColumnMapper.Below.mono le
  | scalars | arrays | reflective => trivial

theorem RowFactory.Below.mono {f : RowFactory} (below : f.Below allowed n) : f.Below allowed k := by
  cases f with
  | fixed target m => exact RowMapper.Below.mono le below
  | custom f => exact AllowedFrom.mono le below
  | written name ask => exact fun key => (below key).mono le fun _ => RowMapper.Below.mono le
  | scalars | arrays | reflective => trivial

theorem Registry.Below.mono {r : Registry} (below : r.Below allowed n) : r.Below allowed k where
  rows f member := (below.rows f member).mono le
  columns f member := (below.columns f member).mono le
  keptRows e member := (below.keptRows e member).mono le
  keptColumns e member := (below.keptColumns e member).mono le

end Below

namespace World

variable {u v : World}

theorem Numbered.aside (numbered : u.Numbered allowed) (registries : v.registries = u.registries)
    (saved : v.saved = u.saved) (children : v.children = u.children) (next : u.next ≤ v.next) : u.Counts allowed v where
  first := numbered
  second :=
    { registries := fun r member => (numbered.registries r (registries ▸ member)).mono next
      saved := fun e member => (numbered.saved e (saved ▸ member)).mono next
      children := fun e member =>
        have own := numbered.children e (children ▸ member)
        ⟨Nat.lt_of_lt_of_le own.1 next, Nat.lt_of_lt_of_le own.2 next⟩ }
  next := next

theorem Numbered.here (numbered : u.Numbered allowed) : u.Counts allowed u := numbered.aside rfl rfl rfl le_rfl

theorem Numbered.idle (numbered : u.Numbered allowed) (idle : u.Idles v) : u.Counts allowed v :=
  numbered.aside (by rw [idle.rest]) (by rw [idle.rest]) (by rw [idle.rest]) idle.next

theorem Numbered.consulted (numbered : u.Numbered allowed) (consulted : u.Consulted v) : u.Counts allowed v :=
  numbered.aside (by rw [consulted.rest]) (by rw [consulted.rest]) (by rw [consulted.rest]) consulted.next

theorem Numbered.changeRegistry (numbered : u.Numbered allowed) {c : Context} {f : Registry → Registry}
    (keeps : ∀ r, r.Below allowed u.next → (f r).Below allowed u.next) :
    u.Counts allowed ((changeRegistry c f).run u).2 where
  first := numbered
  second :=
    { registries := fun r member => by
        obtain ⟨j, t, known, ⟨rfl, rfl⟩ | ⟨_, rfl⟩⟩ := exists_of_mem_modify member
        · exact keeps t (numbered.registries t (List.mem_of_getElem? known))
        · exact numbered.registries _ (List.mem_of_getElem? known)
      saved := numbered.saved
      children := numbered.children }
  next := le_rfl

theorem Numbered.registryOf (numbered : u.Numbered allowed) (c : Context) :
    ((u.registries[c.registry]?).getD default).Below allowed u.next := by
  cases known : u.registries[c.registry]? with
  | none => exact ⟨List.forall_mem_nil _, List.forall_mem_nil _, List.forall_mem_nil _, List.forall_mem_nil _⟩
  | some r => exact numbered.registries r (List.mem_of_getElem? known)

end World

theorem passage_counts : Passage (World.Counts allowed) where
  trans one other := ⟨one.first, other.second, one.next.trans other.next⟩
  settled counts := counts.second.here

theorem numbers_idle {α : Type} {Q : World → α → Prop} {x : MappingM α}
    (idle : ∀ u, ∃ a v, x.run u = (.ok a, v) ∧ u.Idles v ∧ Q v a) : Numbers allowed Q x := by
  intro u numbered
  obtain ⟨a, v, ran, idles, holds⟩ := idle u
  rw [Brings, ran]
  refine ⟨numbered.idle idles, ?_⟩
  rintro _ ⟨⟩
  exact holds

theorem numbers_fresh : Numbers allowed (fun v n => n < v.next) fresh :=
  numbers_idle fun u => ⟨u.next, _, rfl, ⟨rfl, Nat.le_succ _⟩, Nat.lt_succ_self _⟩

theorem numbers_log (level : LogLevel) (logger : Logger) (text : String) :
    Numbers allowed Anything (log level logger text) :=
  fun u numbered => ⟨numbered.idle (World.idles_log level logger text u), fun _ _ => trivial⟩

theorem numbers_note (s : String) : Numbers allowed Anything (note s) := fun _ numbered =>
  ⟨numbered.idle ⟨rfl, le_rfl⟩, fun _ _ => trivial⟩

theorem numbers_table (c : Context) (raw : RawType) : Numbers allowed Anything (table? c raw) := by
  intro u numbered
  obtain ⟨v, ran, consulted⟩ := run_table_for c raw u
  rw [Brings, ran]
  exact ⟨numbered.consulted consulted, fun _ _ => trivial⟩

/-! ### Look-ups -/

theorem none_below {Mapper : Type} {good : Mapper → Prop} : ∀ m ∈ (none : Option Mapper), good m :=
  fun m found => absurd found (Option.not_mem_none m)

def ColumnBelow (v : World) (o : Option ColumnMapper) : Prop := ∀ m ∈ o, m.Below v.next

def RowBelow (v : World) (o : Option RowMapper) : Prop := ∀ m ∈ o, m.Below v.next

section Lookups

variable {h : Hooks} (number : h.Number allowed) {c : Context} {u : World} (numbered : u.Numbered allowed)

theorem numbers_scalarOf (origin : Nat) (key : Descriptor) :
    Numbers allowed ColumnBelow (Registry.scalarOf origin key) := by
  intro u numbered
  unfold Registry.scalarOf
  split
  · refine (Brings.get numbered.here).bind passage_counts fun v w on _ => ?_
    split
    · refine .pure on.second.here ?_
      rintro _ ⟨⟩ k none
      cases none
    · exact .pure on.second.here none_below
  · exact .pure numbered.here none_below

theorem numbers_arrayOf (key : Descriptor) {element : Option (MappingM (Option ColumnMapper))}
    (items : ∀ x ∈ element, Numbers allowed ColumnBelow x) :
    Numbers allowed ColumnBelow (Registry.arrayOf key element) := by
  intro u numbered
  unfold Registry.arrayOf
  split
  · refine (items _ rfl u numbered).bind passage_counts fun v found on _ => ?_
    unfold Registry.arrayFrom
    split
    · refine (numbers_fresh v on.second).bind passage_counts fun v n on _ => .pure on.second.here ?_
      rintro _ ⟨⟩ k none
      cases none
    · exact .pure on.second.here none_below
  · exact .pure numbered.here none_below

theorem numbers_reflectiveFor (targets : Option (List RawType)) (lead : String) (key : Descriptor) :
    Numbers allowed (fun v o => ∀ m ∈ o, m.serial < v.next) (Registry.reflectiveFor c targets lead key) := by
  intro u numbered
  unfold Registry.reflectiveFor
  split
  · refine (numbers_table c key.raw u numbered).bind passage_counts fun v found on _ => ?_
    split
    · refine (numbers_fresh v on.second).bind passage_counts fun v n on below => .pure on.second.here ?_
      rintro _ ⟨⟩
      exact below
    · exact .pure on.second.here none_below
  · exact .pure numbered.here none_below

include number in
theorem numbers_askCustom {f : CustomFactory} {n : Nat} (own : AllowedFrom allowed n f.onBuild)
    (numbered : u.Numbered allowed) (before : n ≤ u.next) (key : Descriptor) :
    Brings (World.Counts allowed) Anything (Registry.askCustom h f key) u := by
  unfold Registry.askCustom
  refine (numbers_note _ u numbered).bind passage_counts fun v _ noted _ => ?_
  split
  · refine (Brings.get noted.second.here).bind passage_counts fun v' x on _ => ?_
    dsimp only
    split
    · refine Brings.bind (Q := Anything) passage_counts ?_ fun w _ claimed _ => ?_
      · exact ⟨on.second.aside rfl rfl rfl le_rfl, fun _ _ => trivial⟩
      · have later := own.mono (before.trans (noted.next.trans (on.next.trans claimed.next)))
        exact (number.performs _ w claimed.second later).bind passage_counts fun _ _ on _ =>
          .pure on.second.here trivial
    · exact .pure on.second.here trivial
  · exact .pure noted.second.here trivial

include number numbered in
theorem numbers_follow {Mapper : Type} {below : Nat → Mapper → Prop} {p : Procedure Command Mapper} {n : Nat}
    (own : p.Below allowed below n) (before : n ≤ u.next) (mono : ∀ {n k}, n ≤ k → ∀ m, below n m → below k m) :
    Brings (World.Counts allowed) (fun v o => ∀ m ∈ o, below v.next m) (Registry.follow h c p) u := by
  induction p generalizing u n with
  | answer o => exact .pure numbered.here fun m member => mono before m (own m member)
  | raise => exact .throw numbered.here _
  | column type next ih =>
    refine (number.column c type u numbered).bind passage_counts fun v o on found => ?_
    exact ih o on.second (own _ (before.trans on.next) o found) le_rfl
  | row type next ih =>
    refine (number.row c type u numbered).bind passage_counts fun v o on found => ?_
    exact ih o on.second (own _ (before.trans on.next) o found) le_rfl
  | perform commands next ih =>
    refine (numbers_fresh u numbered).bind passage_counts fun v k on _ => ?_
    refine (number.performs _ v on.second ((own.1 k).mono (before.trans on.next))).bind passage_counts
      fun v' _ on' _ => ?_
    exact ih on'.second own.2 (before.trans (on.next.trans on'.next))

include number

theorem numbers_askColumn {key : Descriptor} {element : Option (MappingM (Option ColumnMapper))}
    (items : ∀ x ∈ element, Numbers allowed ColumnBelow x) {f : ColumnFactory} {n : Nat} (own : f.Below allowed n)
    (numbered : u.Numbered allowed) (before : n ≤ u.next) :
    Brings (World.Counts allowed) ColumnBelow (Registry.askColumn h c key element f) u := by
  cases f with
  | scalars origin => exact numbers_scalarOf _ _ u numbered
  | arrays => exact numbers_arrayOf _ items u numbered
  | fixed target mapper =>
    refine .pure numbered.here fun m found => ?_
    split at found
    · cases found
      exact ColumnMapper.Below.mono before own
    · cases found
  | custom f =>
    refine (numbers_askCustom number own numbered before key).bind passage_counts fun v o on _ => ?_
    refine .pure on.second.here fun m found k none => ?_
    obtain ⟨_, _, rfl⟩ := Option.map_eq_some_iff.mp found
    cases none
  | written name ask => exact numbers_follow number numbered (own key) before fun le _ => ColumnMapper.Below.mono le
  | reflective targets lead =>
    refine (numbers_reflectiveFor targets lead key u numbered).bind passage_counts fun v o on below => ?_
    refine .pure on.second.here fun m found k member => ?_
    obtain ⟨r, known, rfl⟩ := Option.map_eq_some_iff.mp found
    exact List.mem_singleton.mp member ▸ below r known

theorem numbers_columnAs (key : Descriptor) (nullable : Bool) :
    Numbers allowed ColumnBelow (Registry.findColumnAs h c key nullable) := by
  induction key using Descriptor.induct_args generalizing nullable with
  | step key ih =>
  obtain ⟨raw, args, admitted⟩ := key
  -- On the items, whose type is looked up as the type itself is.
  have items : ∀ x ∈ Registry.findElement h c args, Numbers allowed ColumnBelow x := by
    cases args with
    | nil => exact none_below
    | cons d ds =>
      rintro x ⟨⟩
      exact ih d List.mem_cons_self true
  intro u numbered
  have own := numbered.registryOf c
  unfold Registry.findColumnAs Registry.resolveColumn
  rw [Brings, run_bind_ok (x := registry c) (a := (u.registries[c.registry]?).getD default) (v := u) rfl]
  generalize (u.registries[c.registry]?).getD default = r at own ⊢
  dsimp only
  split
  · next m hit =>
    refine Brings.pure numbered.here fun m' found => ?_
    cases found
    obtain ⟨e, kept, rfl⟩ := Option.map_eq_some_iff.mp hit
    exact own.keptColumns e (List.mem_of_find?_eq_some kept)
  · have scanned : Brings (World.Counts allowed) ColumnBelow (Chain.scan (Registry.askColumn h c (.mk raw args nullable)
        (Registry.findElement h c args)) r.columns.factories) u :=
      .scan passage_counts (fun _ => none_below) numbered.here fun f member v on =>
        numbers_askColumn number items (own.columns f member) on.second on.next
    refine Brings.bind passage_counts scanned fun v found on below => ?_
    have recorded : Brings (World.Counts allowed) Anything
        (Registry.recordColumn c r.columns.generation (.mk raw args nullable) found) v := by
      cases found with
      | none => exact numbers_log _ _ _ v on.second
      | some m =>
        -- What was found is kept if nothing was registered since the look-up began.
        have kept : Brings (World.Counts allowed) Anything
            (Registry.keepColumn c r.columns.generation (.mk raw args nullable) m) v := by
          refine ⟨on.second.changeRegistry fun r old => ?_, fun _ _ => trivial⟩
          split
          · refine ⟨old.rows, old.columns, old.keptRows, fun e member => ?_⟩
            rcases Chain.mem_store member with rfl | kept
            · exact below m rfl
            · exact old.keptColumns e kept
          · exact old
        exact kept.bind passage_counts fun v _ on _ => numbers_log _ _ _ v on.second
    refine recorded.bind passage_counts fun v' _ on' _ => .pure on'.second.here fun m known => ?_
    exact ColumnMapper.Below.mono on'.next (below m known)

theorem numbers_askRow {key : Descriptor} {f : RowFactory} {n : Nat} (own : f.Below allowed n)
    (numbered : u.Numbered allowed) (before : n ≤ u.next) :
    Brings (World.Counts allowed) RowBelow (Registry.askRow h c key f) u := by
  have items : ∀ x ∈ Registry.findElement h c key.args, Numbers allowed ColumnBelow x := by
    cases key.args with
    | nil => exact none_below
    | cons d ds =>
      rintro x ⟨⟩
      exact numbers_columnAs number d true
  have misplaced : ∀ v (o : Option ColumnMapper), ColumnBelow v o → RowBelow v (o.map .misplaced) := by
    intro v o below m found
    obtain ⟨m', known, rfl⟩ := Option.map_eq_some_iff.mp found
    exact below m' known
  cases f with
  | reflective targets lead =>
    refine (numbers_reflectiveFor targets lead key u numbered).bind passage_counts fun v o on below => ?_
    refine .pure on.second.here fun m found k member => ?_
    obtain ⟨r, known, rfl⟩ := Option.map_eq_some_iff.mp found
    exact List.mem_singleton.mp member ▸ below r known
  | fixed target mapper =>
    refine .pure numbered.here fun m found => ?_
    split at found
    · cases found
      exact RowMapper.Below.mono before own
    · cases found
  | custom f =>
    refine (numbers_askCustom number own numbered before key).bind passage_counts fun v o on _ => ?_
    refine .pure on.second.here fun m found k none => ?_
    obtain ⟨_, _, rfl⟩ := Option.map_eq_some_iff.mp found
    cases none
  | written name ask => exact numbers_follow number numbered (own key) before fun le _ => RowMapper.Below.mono le
  | scalars origin =>
    exact (numbers_scalarOf _ key u numbered).bind passage_counts fun v o on below =>
      .pure on.second.here (misplaced v o below)
  | arrays =>
    exact (numbers_arrayOf key items u numbered).bind passage_counts fun v o on below =>
      .pure on.second.here (misplaced v o below)

theorem numbers_buildRow (key : Descriptor) (numbered : u.Numbered allowed) {fs : List RowFactory}
    (own : ∀ f ∈ fs, f.Below allowed u.next) :
    Brings (World.Counts allowed) RowBelow (Registry.buildRow h c key fs) u := by
  have scanned : Brings (World.Counts allowed) RowBelow (Chain.scan (Registry.askRow h c key) fs) u :=
    .scan passage_counts (fun _ => none_below) numbered.here fun f member v on =>
      numbers_askRow number (own f member) on.second on.next
  refine scanned.bind passage_counts fun v found on below => ?_
  cases found with
  | some m => exact .pure on.second.here below
  | none =>
    refine (numbers_columnAs number key key.nullable v on.second).bind passage_counts fun v o on below => ?_
    cases o with
    | none => exact .pure on.second.here none_below
    | some m =>
      refine (numbers_fresh v on.second).bind passage_counts fun v' n on' _ => .pure on'.second.here ?_
      rintro _ ⟨⟩
      exact ColumnMapper.Below.mono on'.next (below m rfl)

theorem numbers_row (key : Descriptor) : Numbers allowed RowBelow (Registry.findRow h c key) := by
  intro u numbered
  have own := numbered.registryOf c
  unfold Registry.findRow
  rw [Brings, run_bind_ok (x := registry c) (a := (u.registries[c.registry]?).getD default) (v := u) rfl]
  generalize (u.registries[c.registry]?).getD default = r at own ⊢
  dsimp only
  split
  · next m hit =>
    refine Brings.pure numbered.here fun m' found => ?_
    cases found
    obtain ⟨e, kept, rfl⟩ := Option.map_eq_some_iff.mp hit
    exact own.keptRows e (List.mem_of_find?_eq_some kept)
  · refine (numbers_buildRow number key numbered own.rows).bind passage_counts fun v found on below => ?_
    have recorded : Brings (World.Counts allowed) Anything (Registry.recordRow c key found) v := by
      cases found with
      | none => exact numbers_log _ _ _ v on.second
      | some m =>
        have kept : Brings (World.Counts allowed) Anything (Registry.keepRow c key m) v := by
          refine ⟨on.second.changeRegistry fun r old => ?_, fun _ _ => trivial⟩
          refine ⟨old.rows, old.columns, fun e member => ?_, old.keptColumns⟩
          rcases Chain.mem_store member with rfl | kept
          · exact below m rfl
          · exact old.keptRows e kept
        exact kept.bind passage_counts fun v _ on _ => numbers_log _ _ _ v on.second
    refine recorded.bind passage_counts fun v' _ on' _ => .pure on'.second.here fun m known => ?_
    exact RowMapper.Below.mono on'.next (below m known)

end Lookups

/-! ### Mapping -/

theorem bearing_counts {h : Hooks} (number : h.Number allowed) (c : Context)
    (column : ∀ type index row, Numbers allowed Anything (h.column c type index row))
    (row : ∀ type row, Numbers allowed Anything (h.row c type row)) :
    Bearing (World.Counts allowed) h c (fun _ _ => True) fun u m => m.serial < u.next where
  toPassage := passage_counts
  idle counts idle := counts.first.idle idle
  counted calls counts := counts.first.aside rfl rfl rfl le_rfl
  stays counts fits := Nat.lt_of_lt_of_le fits counts.next
  table raw counts := (numbers_table c raw _ counts.first).mono fun _ _ _ _ _ _ _ _ => trivial
  child {u m p} counts fits _ := by
    have numbered := counts.first
    unfold ReflectiveMapper.child
    rw [Brings, run_bind_ok (run_get u)]
    cases known : u.children.find? (fun e => e.parent.same m && e.property.same p) with
    | some e =>
      refine ⟨counts, ?_⟩
      rintro _ ⟨⟩
      exact (numbered.children e (List.mem_of_find?_eq_some known)).2
    | none =>
      have grown := numbered.aside (v := { u with next := u.next + 1 }) rfl rfl rfl (Nat.le_succ _)
      refine ⟨⟨numbered, ⟨grown.second.registries, grown.second.saved, fun e member => ?_⟩, grown.next⟩, ?_⟩
      · rcases List.mem_append.mp member with old | new
        · exact grown.second.children e old
        · rw [List.mem_singleton.mp new]
          exact ⟨Nat.lt_succ_of_lt fits, Nat.lt_succ_self _⟩
      · rintro _ ⟨⟩
        exact Nat.lt_succ_self _
  findColumn key counts := (numbers_columnAs number key key.nullable _ counts.first).mono fun _ _ _ _ => trivial
  findRow key counts := numbers_row number key _ counts.first
  columnFor key counts := (number.column c key _ counts.first).mono fun _ _ _ _ => trivial
  rowFor key counts := (number.row c key _ counts.first).mono fun _ _ _ _ => trivial
  column type index cells counts := column type index cells _ counts.first
  row type cells counts := row type cells _ counts.first

end RowMapping
