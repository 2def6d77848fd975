import Mathlib.Data.List.Perm.Subperm
import RowMapping.Proofs.Mapper.Batches
import RowMapping.Proofs.Mapper.Flattening
import RowMapping.Proofs.Mapper.Nullness

/-! Objects recovered from the columns that they were laid out in. Planning never fails for such rows:
every field has its one column, every sub-object has columns under its lead, and no trail closes. -/
namespace RowMapping

open MappingM ReflectiveMapper Text

/-! ### Planning that succeeds -/

/-- From worlds of the kind `I`, planning makes something of the kind `Q` and leads to such worlds. -/
def Makes (I : World → Prop) {α : Type} (x : Planning α) (unread : List String)
    (Q : α → List String → Prop) : Prop :=
  ∀ u, I u → ∃ a rest v, (x.run unread).run u = (.ok (a, rest), v) ∧ I v ∧ Q a rest

section Rules

variable {I : World → Prop} {α β : Type} {unread : List String} {Q : α → List String → Prop}
  {R : β → List String → Prop}

theorem Makes.pure {a : α} (holds : Q a unread) : Makes I (pure a) unread Q :=
  fun u good => ⟨a, unread, u, rfl, good, holds⟩

theorem Makes.bind {x : Planning α} {f : α → Planning β} (first : Makes I x unread Q)
    (next : ∀ a rest, Q a rest → Makes I (f a) rest R) : Makes I (x >>= f) unread R := by
  intro u good
  obtain ⟨a, rest, v, ran, good', made⟩ := first u good
  obtain ⟨b, rest', w, ran', good'', made'⟩ := next a rest made v good'
  exact ⟨b, rest', w, (run_bind_ok ran).trans ran', good'', made'⟩

theorem Makes.lift {P : α → Prop} {x : MappingM α}
    (makes : ∀ u, I u → ∃ a v, x.run u = (.ok a, v) ∧ I v ∧ P a) :
    Makes I (liftM x) unread fun a rest => P a ∧ unread = rest := by
  intro u good
  obtain ⟨a, v, ran, good', made⟩ := makes u good
  exact ⟨a, unread, v, run_bind_ok ran, good', made, rfl⟩

theorem Makes.ok {e : Except Failure α} {a : α} (ok : e = .ok a) :
    Makes I (liftM (liftM e : MappingM α)) unread fun b rest => a = b ∧ unread = rest := by
  subst ok
  exact Makes.lift fun u good => ⟨a, u, rfl, good, rfl⟩

theorem Makes.modify (f : List String → List String) :
    Makes I (modify f : Planning PUnit) unread fun _ rest => rest = f unread :=
  fun u good => ⟨⟨⟩, f unread, u, rfl, good, rfl⟩

end Rules

/-! ### Fields that are planned for -/

def Placed (row : Row) (cell : String × Value) : Prop :=
  ∃ i : Nat, row.columns[i]? = some cell.1 ∧ row.values[i]? = some cell.2

structure Recovers (s : Schema) (row : Row) (e : Entry) (field : String × Value) : Prop where
  name : e.1.name = field.1
  fit : e.2.Fit row.columns.length
  reads : ∃ last, e.2.read s row = .ok (field.2, last) ∧ e.1.lacks field.2 last = false

/-- The records on a trail are distinct classes, all with the given one nested in them, and planning
may go on until every class is on the trail. -/
def Headroom (s : Schema) (name : String) (trail : Trail) (fuel : Nat) : Prop :=
  ∃ names : List String, trail.map (·.1) = names.map (fun n => .cls (.declared n)) ∧ names.Nodup ∧
    (∀ n ∈ names, (s.find? n).isSome = true ∧ Relation.TransGen s.Nests name n) ∧
    s.classes.length < names.length + fuel

namespace Headroom

variable {s : Schema} {name inner : String} {trail : Trail} {fuel : Nat}

theorem start (enough : s.classes.length < fuel) : Headroom s name [] fuel :=
  ⟨[], rfl, List.nodup_nil, by simp, by simpa using enough⟩

theorem pos (room : Headroom s name trail fuel) : ∃ less, fuel = less + 1 := by
  obtain ⟨names, _, distinct, known, enough⟩ := room
  have within : names ⊆ s.classes.map (·.name) := by
    intro n hn
    obtain ⟨cls, found⟩ := Option.isSome_iff_exists.mp (known n hn).1
    have own : cls.name = n := by simpa using List.find?_some found
    exact List.mem_map.mpr ⟨cls, List.mem_of_find?_eq_some found, own⟩
  have few := (distinct.subperm within).length_le
  rw [List.length_map] at few
  exact ⟨fuel - 1, by omega⟩

theorem clear (room : Headroom s name trail fuel) (acc : Acc s.Nests name) {m : ReflectiveMapper}
    (target : m.target = .cls (.declared name)) : onTrail trail m = false := by
  obtain ⟨names, raws, _, known, _⟩ := room
  refine List.any_eq_false.mpr fun k hk => ?_
  have raw : k.1 ∈ names.map (fun n => RawType.cls (.declared n)) := raws ▸ List.mem_map_of_mem hk
  obtain ⟨n, hn, same⟩ := List.mem_map.mp raw
  have different : n ≠ name := by
    rintro rfl
    exact nests_acyclic acc (known n hn).2
  simp [← same, target, RawType.same, different]

theorem deeper (room : Headroom s name trail (fuel + 1)) (acc : Acc s.Nests name)
    (known : (s.find? name).isSome = true) (nests : s.Nests inner name) (lead : String) :
    Headroom s inner ((.cls (.declared name), lead) :: trail) fuel := by
  obtain ⟨names, raws, distinct, above, enough⟩ := room
  refine ⟨name :: names, by simp [raws], List.nodup_cons.mpr ⟨?_, distinct⟩, ?_, ?_⟩
  · intro again
    exact nests_acyclic acc (above name again).2
  · intro n hn
    rcases List.mem_cons.mp hn with rfl | later
    · exact ⟨known, .single nests⟩
    · exact ⟨(above n later).1, .head nests (above n later).2⟩
  · rw [List.length_cons]
    omega

end Headroom

/-! ### Columns and sub-objects -/

def World.Undeclared (c : Context) (w : World) : Prop :=
  ∀ name cls, w.schema.find? name = some cls →
    FoundTwins 0 (w.tableFor c (.declared name)) (w.schema.derives 0 cls)

section Planned

variable {w : World} {c : Context} {fs : List ColumnFactory} {row : Row} {h : Hooks}

theorem table_recorded {s : Schema} {name : String} {fields : List FieldSpec} {post : Option PostInit}
    (recorded : s.Recorded name fields post) {cls : Class} (known : s.find? name = some cls)
    {o : Option PropertyTable} (twins : FoundTwins 0 o (s.derives 0 cls)) :
    ∃ serial, o = some (.ofRecord serial cls fields) := by
  obtain ⟨_, known', _, derived, _⟩ := recorded.table
  cases known.symm.trans known'
  rw [derived 0] at twins
  rcases twins.cases with ⟨_, never⟩ | ⟨t, t', rfl, made, same⟩
  · contradiction
  · cases made
    refine ⟨t.serial, congrArg some ?_⟩
    cases t
    simpa [Twins, Serial.upTo, PropertyTable.ofRecord] using same

theorem makes_table (undeclared : w.Undeclared c) {name : String} {fields : List FieldSpec}
    {post : Option PostInit} (recorded : w.schema.Recorded name fields post) (v : World)
    (level : w.Level c fs v) : ∃ o u, (table? c (.cls (.declared name))).run v = (.ok o, u) ∧
      w.Level c fs u ∧ ∃ serial cls, w.schema.find? name = some cls ∧
        o = some (.ofRecord serial cls fields) := by
  obtain ⟨cls, _, known, _⟩ := recorded.declared
  obtain ⟨u, ran, consulted⟩ := run_table_for c (.cls (.declared name)) v
  have twins := (level.tabled (.declared name)).symm.trans (undeclared name cls known)
  obtain ⟨serial, found⟩ := table_recorded recorded known twins
  have told : v.consult c (.cls (.declared name)) = .ok (some _) := World.consult_of_tableFor found
  rw [told] at ran
  exact ⟨_, u, ran, level.consulted consulted, serial, cls, known, rfl⟩

theorem makes_column (serial : Nat) (apart : Apart row.columns) {lead owner : String}
    {m : ReflectiveMapper} (target : m.target = .cls (.declared owner)) (same : Respelled m.lead lead)
    {f : FieldSpec} {cls : ClassRef} {nullable : Bool} {v : Value}
    (type : f.property.type = .mk (.cls cls) [] nullable)
    (scalar : Registry.isScalar w.schema cls = true) (exactly : v.classOf = cls) (some : v ≠ .null)
    (placed : Placed row (lead ++ f.property.columnName, v)) (unread : List String) :
    Makes (w.Level c [.scalars serial, .arrays])
      (planColumn ⟨h, c, row.columns, standardChain⟩ m f.property) unread fun o rest =>
        ∃ e, o = .some e ∧ Recovers w.schema row e (f.name, v) ∧
          rest = unread.erase (lead ++ f.property.columnName) := by
  obtain ⟨i, here, value⟩ := placed
  have ascii := (ascii_append.mp (apart.ascii _ (List.mem_of_getElem? here))).2
  have found := apart.find here (same.append ascii) (.some (owner ++ "." ++ f.property.name))
  have named : m.typeName = .ok owner := by rw [typeName, target]; rfl
  have solid : v.isNull = false := by
    cases v <;> first | rfl | exact absurd rfl some
  unfold planColumn
  refine (Makes.ok named).bind ?_
  rintro _ _ ⟨rfl, rfl⟩
  refine (Makes.ok found).bind ?_
  rintro _ _ ⟨rfl, rfl⟩
  have library : ∀ g ∈ [ColumnFactory.scalars serial, .arrays], g.Library := by simp [ColumnFactory.Library]
  -- The built-in factories come to the converter of the class, whatever was kept before.
  have lookup : Makes (w.Level c [.scalars serial, .arrays])
      (liftM (Registry.findColumn h c f.property.type.boxed)) unread fun o rest =>
        (∃ origin, o = .some (.value origin cls)) ∧ unread = rest := by
    refine Makes.lift fun u level => ?_
    obtain ⟨o, p, u', ran, built, alike, stocked, searched⟩ :=
      supplies_findColumnAs (s := w.schema) library h c f.property.type.boxed
        f.property.type.boxed.nullable u level.stocked
    have converter : builtFor w.schema [.scalars serial, .arrays] (.mk (.cls cls) [] true) true =
        .some (.some (.value serial cls)) := by
      simp [builtFor, findingAs, Chain.scan, ColumnFactory.answer, scalarFor, Descriptor.raw,
        Descriptor.args, scalar]
    rw [type] at built
    cases converter.symm.trans built
    obtain ⟨n, rfl, one⟩ := foundAlike_some alike
    cases Alike.value one
    exact ⟨_, u', ran, level.searched searched stocked, serial, rfl⟩
  refine lookup.bind ?_
  rintro _ _ ⟨⟨origin, rfl⟩, rfl⟩
  -- A value of exactly the class is converted to itself.
  have converted : convertTo w.schema cls v = .ok v := by simp [convertTo, exactly]
  have reads : PlanSource.read w.schema row (.column (.value origin cls) i) = .ok (v, false) :=
    PlanSource.read_column.mpr ⟨v, value, converted, solid⟩
  have made : (Makes (w.Level c [.scalars serial, .arrays]) (pure (ColumnMapper.value origin cls)) unread
      fun a rest => .value origin cls = a ∧ unread = rest) := Makes.pure ⟨rfl, rfl⟩
  refine made.bind ?_
  rintro _ _ ⟨rfl, rfl⟩
  refine (Makes.modify _).bind ?_
  rintro _ _ rfl
  refine Makes.pure ⟨_, rfl, ⟨property_name f, .column trivial ?_, false, reads, ?_⟩, ?_⟩
  · exact (List.getElem?_eq_some_iff.mp here).1
  · simp [Property.lacks, solid]
  · rw [here, Option.getD_some]

/-- Plans of a record of these fields and columns succeed, wherever there is room for them. -/
def Plannable (w : World) (c : Context) (fs : List ColumnFactory) (h : Hooks) (row : Row) (lead : String)
    (fields : List FieldSpec) (values cells : List (String × Value)) : Prop :=
  ∀ {m : ReflectiveMapper} {owner : String} {trail : Trail} {fuel : Nat} (unread : List String),
    m.target = .cls (.declared owner) → Respelled m.lead lead → (∀ e ∈ cells, Placed row e) →
    (∀ f ∈ fields, f.initOnly = false → f.property.nested.isSome = true → ∀ inner,
      f.property.type.raw = .cls (.declared inner) → Headroom w.schema inner trail fuel) →
    Makes (w.Level c fs) (planEntries ⟨h, c, row.columns, standardChain⟩
      (planWithin ⟨h, c, row.columns, standardChain⟩ fuel) m trail ((keptFields fields).map (·.property))) unread
      fun es rest => rest = unread.diff (cells.map (·.1)) ∧
        List.Forall₂ (Recovers w.schema row) es values

theorem recovers_of_mem {s : Schema} {es : List Entry} {values : List (String × Value)}
    (recovers : List.Forall₂ (Recovers s row) es values) :
    ∀ e ∈ es, ∃ field ∈ values, Recovers s row e field := by
  induction recovers with
  | nil => simp
  | cons first _ ih =>
    intro e he
    rcases List.mem_cons.mp he with rfl | later
    · exact ⟨_, List.mem_cons_self, first⟩
    · obtain ⟨field, member, recovered⟩ := ih e later
      exact ⟨field, List.mem_cons_of_mem _ member, recovered⟩

theorem recovers_given {s : Schema} {table : PropertyTable} (keys : ∀ name, table.keyOf name = name)
    {es : List Entry} {values : List (String × Value)}
    (recovers : List.Forall₂ (Recovers s row) es values) :
    es.filterMap (given s row table) = values := by
  induction recovers with
  | nil => rfl
  | @cons e field es values first _ ih =>
    obtain ⟨last, read, solid⟩ := first.reads
    have some : field.2.isNull = false := (Bool.or_eq_false_iff.mp solid).1
    have gives : given s row table e = .some field := by
      simp [given, read, some, keys, first.name]
    rw [List.filterMap_cons_some gives, ih]

theorem recovers_names {s : Schema} {es : List Entry} {values : List (String × Value)}
    (recovers : List.Forall₂ (Recovers s row) es values) :
    es.map (·.1.name) = values.map (·.1) := by
  induction recovers with
  | nil => rfl
  | cons first _ ih => simp [first.name, ih]

theorem read_record {s : Schema} {name : String} {fields : List FieldSpec} {post : Option PostInit}
    (recorded : s.Recorded name fields post) {cls : Class} (known : s.find? name = some cls)
    {values : List (String × Value)} (names : values.map (·.1) = (keptFields fields).map (·.name))
    (remakes : Schema.Remakes name fields post values) {es : List Entry}
    (recovers : List.Forall₂ (Recovers s row) es values) (serial : Nat) :
    ∃ last, (Plan.mk (.ofRecord serial cls fields) (ordered es)).read s row =
      .ok (.object name true values, last) := by
  obtain ⟨_, known', unmarked, _, table⟩ := recorded.table
  cases known.symm.trans known'
  obtain ⟨_, builder, slots⟩ := table serial
  have perm := ordered_perm es
  have each : ∀ e ∈ ordered es, ∃ v last, e.2.read s row = .ok (v, last) ∧ e.1.lacks v last = false := by
    intro e he
    obtain ⟨field, _, recovered⟩ := recovers_of_mem recovers e (perm.mem_iff.mp he)
    obtain ⟨last, read, solid⟩ := recovered.reads
    exact ⟨field.2, last, read, solid⟩
  have readable : Readable s row (ordered es) := by
    intro e he
    obtain ⟨v, last, read, _⟩ := each e he
    exact ⟨v, last, read⟩
  -- Nothing that was flattened is null, so that no entry stops the reading.
  have goes : ∀ e ∈ ordered es, ¬ Stops s row e := by
    rintro e he ⟨_, u, after, read, lacks⟩
    obtain ⟨v, last, read', solid⟩ := each e he
    cases read'.symm.trans read
    rw [solid] at lacks
    contradiction
  have keys : ∀ k, (PropertyTable.ofRecord serial cls fields).keyOf k = k := fun _ => rfl
  have gives : ((ordered es).filterMap (given s row (.ofRecord serial cls fields))).Perm values :=
    recovers_given keys recovers ▸ perm.filterMap _
  obtain ⟨last, read⟩ : ∃ last, readEntries s row (.ofRecord serial cls fields) (ordered es) _ false =
      .ok (some _, last) := readEntries_passes readable goes
    (PropertyTable.create (.ofRecord serial cls fields)) false
  have distinct : (((ordered es).filterMap (given s row (.ofRecord serial cls fields))).map (·.1)).Nodup := by
    rw [(gives.map _).nodup_iff, names]
    exact recorded.distinct_kept
  -- Every slot is that of a field, and is filled.
  have holds : ∀ e, e ∈ Keywords.putAll (PropertyTable.create (.ofRecord serial cls fields))
      ((ordered es).filterMap (given s row (.ofRecord serial cls fields))) ↔ e ∈ values := by
    rintro ⟨k, u⟩
    rw [Keywords.mem_putAll distinct, gives.mem_iff, (gives.map _).mem_iff, names]
    constructor
    · rintro (here | ⟨slot, new⟩)
      · exact here
      · exact absurd (slots _ slot) new
    · exact .inl
  have built := build_record recorded names remakes holds builder
  refine ⟨last, ?_⟩
  have unmarked' : (PropertyTable.ofRecord serial cls fields).nullMarker = none := unmarked
  simp only [Plan.read, unmarked', Row.marks, read, built, Except.map]

theorem makes_record (undeclared : w.Undeclared c) {lead name : String} {fields : List FieldSpec}
    {post : Option PostInit} (recorded : w.schema.Recorded name fields post)
    {values cells : List (String × Value)} (remakes : Schema.Remakes name fields post values)
    (flat : Flattens w.schema lead fields values cells) (reads : cells ≠ [] ∨ row.columns = [])
    (plannable : Plannable w c fs h row lead fields values cells) {m : ReflectiveMapper}
    (target : m.target = .cls (.declared name)) (same : Respelled m.lead lead)
    (placed : ∀ e ∈ cells, Placed row e) {trail : Trail} {fuel : Nat}
    (room : Headroom w.schema name trail fuel) (unread : List String) :
    Makes (w.Level c fs) (planWithin ⟨h, c, row.columns, standardChain⟩ fuel m trail) unread
      fun o rest => rest = unread.diff (cells.map (·.1)) ∧ ∃ q, o = some q ∧ q.Fit row.columns.length ∧
        (cells ≠ [] → q.entries ≠ []) ∧
        ∃ last, q.read w.schema row = .ok (.object name true values, last) := by
  obtain ⟨less, rfl⟩ := room.pos
  have acc := flat.acc_record recorded
  -- A nested record has room on the longer trail.
  have deeper : ∀ f ∈ fields, f.initOnly = false → f.property.nested.isSome = true → ∀ inner,
      f.property.type.raw = .cls (.declared inner) →
      Headroom w.schema inner ((.cls (.declared name), m.lead) :: trail) less := by
    intro f hf kept nested inner raw
    obtain ⟨cls, _, found, _⟩ := recorded.declared
    exact room.deeper acc (by rw [found]; rfl) ⟨fields, post, recorded, f, hf, kept, nested, raw⟩ m.lead
  unfold planWithin
  simp only [room.clear acc target, target, Bool.false_eq_true, if_false]
  refine (Makes.lift (makes_table undeclared recorded)).bind ?_
  rintro _ _ ⟨⟨serial, cls, found, rfl⟩, rfl⟩
  obtain ⟨_, found', _, derived, table⟩ := recorded.table
  cases found.symm.trans found'
  simp only [(table serial).1]
  refine (plannable unread target same placed deeper).bind ?_
  rintro es _ ⟨rfl, recovers⟩
  have some : cells ≠ [] → es ≠ [] := by
    rintro some rfl
    cases recovers
    exact some (flat.cells_nil rfl)
  have kept : (es.isEmpty && !row.columns.isEmpty) = false := by
    rcases reads with reads | none
    · simp [some reads]
    · simp [none]
  have distinct : ((ordered es).map (·.1.name)).Nodup := by
    rw [((ordered_perm es).map _).nodup_iff, recovers_names recovers, flat.names]
    exact recorded.distinct_kept
  have fits : ∀ e ∈ ordered es, e.2.Fit row.columns.length := by
    intro e he
    obtain ⟨_, _, recovered⟩ := recovers_of_mem recovers e ((ordered_perm es).mem_iff.mp he)
    exact recovered.fit
  have regular := PropertyTable.regular_ofClass (Schema.ofClass_of_derives (derived serial))
  simp only [kept, Bool.false_eq_true, if_false]
  refine Makes.pure ⟨rfl, _, rfl, .mk regular distinct fits, fun reads none => ?_, ?_⟩
  · have empty : (ordered es) = [] := none
    exact some reads (empty ▸ ordered_perm es).symm.eq_nil
  · exact read_record recorded found flat.names remakes recovers serial

theorem makes_nested (undeclared : w.Undeclared c) (apart : Apart row.columns) {lead under name : String}
    {m : ReflectiveMapper} (same : Respelled m.lead lead) {f : FieldSpec} {fields : List FieldSpec}
    {post : Option PostInit}
    {values cells : List (String × Value)} (nested : f.property.nested = some under)
    (type : f.property.type.raw = .cls (.declared name))
    (recorded : w.schema.Recorded name fields post) (remakes : Schema.Remakes name fields post values)
    (reads : cells ≠ []) (flat : Flattens w.schema (lead ++ under) fields values cells)
    (plannable : Plannable w c fs h row (lead ++ under) fields values cells)
    (placed : ∀ e ∈ cells, Placed row e) {trail : Trail} {fuel : Nat}
    (room : Headroom w.schema name trail fuel) (unread : List String) :
    Makes (w.Level c fs) (planNested ⟨h, c, row.columns, standardChain⟩
      (planWithin ⟨h, c, row.columns, standardChain⟩ fuel) m trail f.property under) unread fun o rest =>
        rest = unread.diff (cells.map (·.1)) ∧
          ∃ e, o = some e ∧ Recovers w.schema row e (f.name, .object name true values) := by
  obtain ⟨cell, member⟩ := List.exists_mem_of_ne_nil cells reads
  obtain ⟨i, here, _⟩ := placed cell member
  obtain ⟨rest, spelled⟩ := flat.under_lead cell member
  have column : cell.1 ∈ row.columns := List.mem_of_getElem? here
  have ascii : Ascii (lead ++ under) := (ascii_append.mp (spelled ▸ apart.ascii _ column)).1
  have longer := same.append (ascii_append.mp ascii).2
  -- The column of any scalar inside lies under the lead, and is no shorter.
  have found : standardChain.anyUnder (m.lead ++ under) row.columns = .ok true := by
    refine standard_anyUnder column ?_
    rw [longer.squash, spelled, squash_append (lead ++ under)]
    exact List.prefix_append _ _
  have short : outgrown (m.lead ++ under) row.columns = false := by
    refine List.all_eq_false.mpr ⟨cell.1, column, ?_⟩
    rw [longer.length, spelled, String.length_append]
    simp
  unfold planNested
  refine (Makes.ok found).bind ?_
  rintro _ _ ⟨rfl, rfl⟩
  simp only [Bool.not_true, Bool.false_eq_true, if_false, short]
  have child : Makes (w.Level c fs) (liftM (child m f.property)) unread fun made rest =>
      (made.target = .cls (.declared name) ∧ made.lead = lower (m.lead ++ under)) ∧ unread = rest := by
    refine Makes.lift fun u level => ?_
    obtain ⟨serial, q, v, ran, one, alone, _⟩ := run_child m f.property u
    rw [nested, Option.getD_some] at ran
    refine ⟨_, v, ran, level.aside (by rw [alone]) (by rw [alone]) (by rw [alone]) (by rw [alone]), ?_, rfl⟩
    rcases property_class one with raw | ⟨_, unknown⟩
    · exact raw.trans type
    · rw [type] at unknown
      contradiction
  refine child.bind ?_
  rintro made _ ⟨⟨target', lead'⟩, rfl⟩
  have same' : Respelled made.lead (lead ++ under) := lead' ▸ longer.lower
  refine (makes_record undeclared recorded remakes flat (.inl reads) plannable target' same' placed room
    unread).bind ?_
  rintro _ _ ⟨rfl, q, rfl, fit, planned, last, read⟩
  refine Makes.pure ⟨rfl, _, rfl, property_name f, .nested fit (planned reads), last, read, ?_⟩
  have composite : f.property.primitive = false := by
    rw [Property.primitive, Descriptor.primitive, type]
    simp
  simp [Property.lacks, composite, Value.isNull]

theorem plannable_of_flattens {serial : Nat} (undeclared : w.Undeclared c) (apart : Apart row.columns)
    {lead : String} {fields : List FieldSpec} {values cells : List (String × Value)}
    (flat : Flattens w.schema lead fields values cells) :
    Plannable w c [.scalars serial, .arrays] h row lead fields values cells := by
  -- On the nesting: a field before the others, and a sub-object before its own fields.
  induction flat with
  | nil =>
    intro m owner trail fuel unread _ _ _ _
    exact Makes.pure ⟨rfl, .nil⟩
  | aside only _ ih =>
    intro m owner trail fuel unread target same placed room
    rw [keptFields_aside only]
    exact ih unread target same placed fun f hf => room f (List.mem_cons_of_mem _ hf)
  | leaf kept plain mapped type scalar exactly some _ ih =>
    intro m owner trail fuel unread target same placed room
    have first := makes_column (c := c) (h := h) serial apart target same type scalar exactly some
      (placed _ List.mem_cons_self) unread
    rw [keptFields_cons kept, List.map_cons]
    unfold planEntries
    simp only [mapped, plain, Bool.false_eq_true, if_false]
    refine first.bind ?_
    rintro _ _ ⟨e, rfl, recovers, rfl⟩
    refine (ih _ target same (fun e he => placed e (List.mem_cons_of_mem _ he))
      fun f hf => room f (List.mem_cons_of_mem _ hf)).bind ?_
    rintro es _ ⟨rfl, others⟩
    exact Makes.pure ⟨by simp, .cons recovers others⟩
  | nested kept under mapped type recorded remakes reads within _ ih ih' =>
    intro m owner trail fuel unread target same placed room
    have inner := makes_nested undeclared apart same under type recorded remakes reads within ih
      (fun e he => placed e (List.mem_append_left _ he))
      (room _ List.mem_cons_self kept (by rw [under]; rfl) _ type) unread
    rw [keptFields_cons kept, List.map_cons]
    unfold planEntries
    simp only [mapped, under, Bool.false_eq_true, if_false]
    refine inner.bind ?_
    rintro _ _ ⟨rfl, e, rfl, recovers⟩
    refine (ih' _ target same (fun e he => placed e (List.mem_append_right _ he))
      fun f hf => room f (List.mem_cons_of_mem _ hf)).bind ?_
    rintro es _ ⟨rfl, others⟩
    exact Makes.pure ⟨by simp [List.diff_append], .cons recovers others⟩

end Planned
/-! ### Default contexts -/

/-- A context of the library: column mappers of its own, tables derived from the classes, and the
standard matchers. Both kinds of strictness may be on or off. -/
structure World.Furbished (s : Schema) (c : Context) (serial : Nat) (w : World) : Prop where
  stocked : w.Stocked s [.scalars serial, .arrays] c.registry
  undeclared : w.Undeclared c
  matchers : ((w.settings[c.settings]?).getD default).matchers = Settings.standard.matchers

/-- Nothing was registered in the context, and its matchers are the standard ones. What it keeps from
earlier look-ups of records are the reflective mappers that these make. -/
structure World.Default (s : Schema) (c : Context) (w : World) : Prop where
  registry : ∃ r serial, w.registries[c.registry]? = some r ∧ r.rows.factories = [.reflective none ""] ∧
    w.Furbished s c serial ∧ ∀ e ∈ r.rows.cache, ∀ name, e.1.raw = .cls (.declared name) →
      ∃ m : ReflectiveMapper, e.2 = .reflective m ∧ m.target = e.1.raw ∧ m.lead = ""

section Default

variable {s : Schema} {w v : World} {c : Context} {serial : Nat} {h : Hooks}

theorem World.Stocked.of_columns {fs : List ColumnFactory} {i : Nat}
    (stocked : w.Stocked s fs i) (schema : v.schema = w.schema)
    (columns : v.registries.map (·.columns) = w.registries.map (·.columns)) : v.Stocked s fs i := by
  obtain ⟨same, r, known, factories, kept⟩ := stocked
  have here := congrArg (·[i]?) columns
  simp only [List.getElem?_map, known, Option.map_some, Option.map_eq_some_iff] at here
  obtain ⟨t, present, own⟩ := here
  exact ⟨schema.trans same, t, present, own ▸ factories, own ▸ kept⟩

namespace World.Furbished

theorem level (furbished : w.Furbished s c serial) : w.Level c [.scalars serial, .arrays] w := by
  have stocked := furbished.stocked
  rw [← stocked.schema] at stocked
  exact ⟨stocked, rfl, rfl, fun _ => .refl _⟩

theorem consulted (furbished : w.Furbished s c serial) (consulted : w.Consulted v) :
    v.Furbished s c serial := by
  have schema : v.schema = w.schema := by rw [consulted.rest]
  have registries : v.registries = w.registries := by rw [consulted.rest]
  have settings : v.settings = w.settings := by rw [consulted.rest]
  refine ⟨furbished.stocked.of_registries schema registries, fun name cls known => ?_,
    settings ▸ furbished.matchers⟩
  have before := furbished.undeclared name cls (schema ▸ known)
  rw [schema]
  exact (consulted.tabled 0 (Nat.zero_le _) c (.declared name)).symm.trans before

theorem aside (furbished : w.Furbished s c serial) (schema : v.schema = w.schema)
    (columns : v.registries.map (·.columns) = w.registries.map (·.columns))
    (tables : v.tables = w.tables) (settings : v.settings = w.settings) : v.Furbished s c serial := by
  refine ⟨furbished.stocked.of_columns schema columns, fun name cls known => ?_,
    settings ▸ furbished.matchers⟩
  have before := furbished.undeclared name cls (schema ▸ known)
  have same := World.tabled_of_tables schema tables (Nat.zero_le _) (Nat.zero_le _) c
  rw [schema]
  exact (same (.declared name)).symm.trans before

theorem log (furbished : w.Furbished s c serial) (level : LogLevel) (logger : Logger) (text : String) :
    World.Furbished s c serial ((MappingM.log level logger text).run w).2 := by
  show World.Furbished s c serial (if _ then _ else _)
  split
  · exact furbished.aside rfl rfl rfl rfl
  · exact furbished

theorem recordRow (furbished : w.Furbished s c serial) (key : Descriptor) (m : RowMapper) :
    World.Furbished s c serial ((Registry.recordRow c key (some m)).run w).2 := by
  have columns : (w.registries.modify c.registry fun r =>
      { r with rows := r.rows.store key m }).map (·.columns) = w.registries.map (·.columns) := by
    refine List.ext_getElem? fun j => ?_
    simp only [List.getElem?_map, List.getElem?_modify]
    by_cases here : c.registry = j
    · simp only [here]
      cases w.registries[j]? <;> simp
    · simp [here]
  have kept : World.Furbished s c serial ((Registry.keepRow c key m).run w).2 :=
    furbished.aside rfl columns rfl rfl
  rw [Registry.recordRow, run_bind_ok (x := Registry.keepRow _ _ _) (a := ()) rfl]
  exact kept.log _ _ _

end World.Furbished

theorem default_requireRow (default : w.Default s c) {name : String} {fields : List FieldSpec}
    {post : Option PostInit} (recorded : s.Recorded name fields post) {key : Descriptor}
    (raw : key.raw = .cls (.declared name)) :
    ∃ m v serial, (Registry.requireRow h c key).run w = (.ok (.reflective m), v) ∧
      m.target = .cls (.declared name) ∧ m.lead = "" ∧ v.Furbished s c serial := by
  obtain ⟨r, serial, known, factories, furbished, kept⟩ := default.registry
  cases hit : r.rows.cached? key with
  | some m =>
    -- What is kept for the class was made by an earlier look-up of it.
    obtain ⟨e, he, rfl⟩ := Option.map_eq_some_iff.mp hit
    have same : e.1.same key = true := by simpa using List.find?_some he
    have equal : e.1.raw = key.raw := by
      rcases RawType.same_class (Descriptor.same_iff.mp same).1 with ⟨equal, _⟩ | ⟨_, unknown⟩
      · exact equal
      · rw [raw] at unknown
        contradiction
    obtain ⟨m, found, target, lead⟩ := kept e (List.mem_of_find?_eq_some he) name (equal.trans raw)
    have ran := findRow_hit (h := h) known hit
    rw [found] at ran
    exact ⟨m, w, serial, run_bind_ok ran, target.trans (equal.trans raw), lead, furbished⟩
  | none =>
    -- Nothing is kept, and the only row factory is the reflective one.
    obtain ⟨cls, _, declared, _⟩ := recorded.declared
    rw [← furbished.stocked.schema] at recorded declared
    obtain ⟨number, found⟩ := table_recorded recorded declared (furbished.undeclared name cls declared)
    obtain ⟨u, ran, consulted⟩ := run_table_for c (.cls (.declared name)) w
    have told : w.consult c (.cls (.declared name)) = .ok (some _) := World.consult_of_tableFor found
    have table : (table? c key.raw).run w = (.ok (some (.ofRecord number cls fields)), u) := by
      rw [raw, ran, told]
    have made : (Registry.reflectiveFor c none "" key).run w =
        (.ok (some ⟨u.next, key.raw, lower ""⟩), { u with next := u.next + 1 }) := run_bind_ok table
    have asked : (Registry.askRow h c key (.reflective none "")).run w =
        (.ok (some (.reflective ⟨u.next, key.raw, lower ""⟩)), { u with next := u.next + 1 }) :=
      run_bind_ok made
    have built : (Registry.buildRow h c key r.rows.factories).run w =
        (.ok (some (.reflective ⟨u.next, key.raw, lower ""⟩)), { u with next := u.next + 1 }) := by
      have scanned : (Chain.scan (Registry.askRow h c key) [.reflective none ""]).run w =
          (.ok (some (.reflective ⟨u.next, key.raw, lower ""⟩)), { u with next := u.next + 1 }) :=
        run_bind_ok asked
      rw [factories]
      exact run_bind_ok scanned
    have furbished' : World.Furbished s c serial { u with next := u.next + 1 } :=
      (furbished.consulted consulted).aside rfl rfl rfl rfl
    exact ⟨_, _, serial, run_bind_ok (findRow_miss known hit built), raw, rfl, furbished'.recordRow key _⟩

theorem diff_self (columns : List String) : columns.diff columns = [] := by
  induction columns with
  | nil => rfl
  | cons c cs ih => rw [List.diff_cons, List.erase_cons_head, ih]

/-- The plan of a flattened record, which leaves no column unread. -/
theorem specialize_recovers (furbished : w.Furbished s c serial) {name : String}
    {fields : List FieldSpec} {post : Option PostInit} (recorded : s.Recorded name fields post)
    {values cells : List (String × Value)} (remakes : Schema.Remakes name fields post values)
    (flat : Flattens s "" fields values cells) {row : Row} (apart : Apart row.columns)
    (columns : row.columns.Perm (cells.map (·.1))) (placed : ∀ e ∈ cells, Placed row e)
    {m : ReflectiveMapper} (target : m.target = .cls (.declared name)) (lead : m.lead = "") :
    ∃ p v, (m.specialize h c row.columns).run w = (.ok p, v) ∧ v.schema = s ∧
      p.Fit row.columns.length ∧ ∃ last, p.read s row = .ok (.object name true values, last) := by
  obtain ⟨rfl⟩ := furbished.stocked.schema
  have plannable : Plannable w c [.scalars serial, .arrays] h row "" fields values cells :=
    plannable_of_flattens furbished.undeclared apart flat
  have same : Respelled m.lead "" := by
    rw [lead]
    exact ⟨by simp [Ascii], rfl, rfl⟩
  have reads : cells ≠ [] ∨ row.columns = [] := by
    cases cells with
    | nil => exact .inr columns.eq_nil
    | cons => exact .inl (by simp)
  -- The bound for trails leaves room for every class of the schema.
  have room : Headroom w.schema name [] (trailBound w.schema row.columns) := by
    refine Headroom.start ?_
    have wide : w.schema.classes.length + 22 ≤ trailBound w.schema row.columns :=
      Nat.le_mul_of_pos_right _ (by omega)
    omega
  obtain ⟨_, _, u, planned, level, rfl, p, rfl, fit, _, last, read⟩ :=
    makes_record furbished.undeclared recorded remakes flat reads plannable target same placed room
      row.columns w furbished.level
  have chain : ((w.settings[c.settings]?).getD default).chain = standardChain := by
    rw [Settings.chain, furbished.matchers]
    rfl
  have unread : row.columns.diff (cells.map (·.1)) = [] := by
    rw [← columns.diff_left, diff_self]
  rw [unread] at planned
  have settled : (settings c).run w = (.ok ((w.settings[c.settings]?).getD default), w) := rfl
  -- With no column left, strict matching has nothing to refuse.
  have accepted : (refuseLeftover c standardChain m []).run u = (.ok (), u) := by
    unfold refuseLeftover
    rw [run_bind_ok (x := settings c) (a := (u.settings[c.settings]?).getD default) (v := u) rfl]
    by_cases strict : ((u.settings[c.settings]?).getD default).strictMatching = true
    · rw [if_pos strict]
      rfl
    · rw [if_neg strict]
      rfl
  have named : m.typeName = .ok name := by rw [typeName, target]; rfl
  unfold ReflectiveMapper.specialize
  rw [run_bind_ok settled, run_bind_ok (run_get w), chain, run_bind_ok planned]
  dsimp only
  rw [run_bind_ok accepted, named]
  have told := level.log .debug .mapping ("Specialized " ++ name ++ ": properties="
    ++ Text.quotedList p.propertyNames ++ " unmatched=" ++ Text.quotedList [])
  exact ⟨p, _, rfl, told.schema, fit, last, read⟩

/-- Mapping undoes flattening: in a context where nothing was registered, strict or not, a row with one
column for every scalar of an object is mapped to that object. -/
theorem mapOne_flattened (default : w.Default s c) {name : String} {object : Value}
    {cells : List (String × Value)} (flattened : Flattened s name object cells)
    (apart : Apart (cells.map (·.1))) {line : List (String × Value)} (line_cells : line.Perm cells)
    (last : Bool) {key : Descriptor} (raw : key.raw = .cls (.declared name)) (h : Hooks) :
    ((Session.mapOne h c key ⟨line.map (·.1), line.map (·.2), last⟩).run w).1 = .ok object := by
  obtain ⟨fields, post, values, recorded, remakes, rfl, flat⟩ := flattened
  have columns := line_cells.map (·.1)
  have apart' : Apart (line.map (·.1)) := by
    refine ⟨fun c hc => apart.ascii c (columns.mem_iff.mp hc), ?_⟩
    exact ((columns.map _).nodup_iff).mpr apart.distinct
  have placed : ∀ e ∈ cells, Placed ⟨line.map (·.1), line.map (·.2), last⟩ e := by
    intro e he
    obtain ⟨i, here⟩ := List.getElem?_of_mem (line_cells.mem_iff.mpr he)
    exact ⟨i, by simp [here], by simp [here]⟩
  obtain ⟨m, v, serial, resolved, target, lead, furbished⟩ := default_requireRow (h := h) default recorded raw
  obtain ⟨p, u, specialized, schema, fit, after, read⟩ := specialize_recovers (h := h) furbished recorded
    remakes flat apart' columns placed target lead
  obtain ⟨_, reads, _⟩ := Plan.apply_reads h c fit read last
  rw [run_mapOne resolved, outcome, apply_reflective specialized, reads u schema]
  rfl

theorem run_log (level : LogLevel) (logger : Logger) (text : String) (w : World) :
    ∃ records, (log level logger text).run w = (.ok (), { w with log := records }) := by
  by_cases kept : w.loggers.contains logger = true
  · refine ⟨w.log ++ [⟨level, logger, text⟩], congrArg (Prod.mk _) ?_⟩
    exact if_pos kept
  · refine ⟨w.log, congrArg (Prod.mk _) ?_⟩
    exact if_neg kept

/-- A new context of the library is a default one, if its matchers are the standard ones. -/
theorem default_newContext (spec : ContextSpec) {checked : Settings}
    (accepted : Session.newSettings spec.settings = .ok checked)
    (matchers : checked.matchers = Settings.standard.matchers) (registry : spec.registry = .fresh true)
    (tables : spec.tablesOf = none) (w : World) :
    ∃ c v, (Session.newContext spec).run w = (.ok c, v) ∧ v.Default w.schema c ∧
      (v.settings[c.settings]?).getD default = checked := by
  obtain ⟨records, told⟩ := run_log .debug .registry ("Registered row mapper factory "
    ++ (RowFactory.reflective none "").shown ++ "; row cache cleared")
    { w with next := w.next + 1, registries := w.registries ++ [Session.reflectiveRegistry w.next] }
  have made : (Session.newRegistry (.fresh true)).run w = (.ok w.registries.length,
      { w with
        next := w.next + 1
        registries := w.registries ++ [Session.reflectiveRegistry w.next]
        log := records }) := by
    unfold Session.newRegistry
    rw [run_bind_ok (x := fresh) (a := w.next) (v := { w with next := w.next + 1 }) rfl]
    exact run_bind_ok (x := addRegistry _) rfl |>.trans (run_bind_ok told)
  have ran : (Session.newContext spec).run w =
      (.ok ⟨w.registries.length, w.tables.length, w.settings.length⟩, { w with
        next := w.next + 1
        registries := w.registries ++ [Session.reflectiveRegistry w.next]
        tables := w.tables ++ [default]
        settings := w.settings ++ [checked]
        log := records }) := by
    unfold Session.newContext
    rw [accepted, registry, tables, run_bind_ok (x := liftM (Except.ok checked)) (a := checked) rfl,
      run_bind_ok made]
    rfl
  refine ⟨_, _, ran, ⟨Session.reflectiveRegistry w.next, w.next, by simp, rfl, ⟨⟨rfl, ?_⟩, ?_, ?_⟩, ?_⟩,
    by simp⟩
  · refine ⟨Session.reflectiveRegistry w.next, by simp, rfl, fun e he => ?_⟩
    exact absurd he List.not_mem_nil
  · intro name cls known
    simp only [World.tableFor, known, Option.bind_some, List.getElem?_concat_length, Option.getD_some]
    exact Schema.derives_twins _ (Nat.zero_le _) (Nat.zero_le _) cls
  · simpa using matchers
  · exact fun e he => absurd he List.not_mem_nil

end Default

def homeFields : List FieldSpec :=
  [{ name := "street", type := .cls (.builtin .text) },
    { name := "zip", type := .marked (.cls (.builtin .int)) [.column "zipCode"] }]

def readerHome : FieldSpec :=
  { name := "home", type := .marked (.union .keyword [.cls (.declared "Home"), .none]) [.nested "Home_"] }

def readerNick : FieldSpec :=
  { name := "nick", type := .union .keyword [.cls (.builtin .text), .none], fallback := some (.value (.text "?")) }

def readerFields : List FieldSpec := [{ name := "id", type := .cls (.builtin .int) }, readerHome, readerNick]

def readers : Schema := .declare
  [⟨"Home", [], none, .record homeFields none⟩, ⟨"Reader", [], none, .record readerFields none⟩]

def ada : Value := .object "Reader" true [("id", .int 7),
  ("home", .object "Home" true [("street", .text "Elm"), ("zip", .int 123)]), ("nick", .text "Ada")]

def adaCells : List (String × Value) :=
  [("id", .int 7), ("Home_street", .text "Elm"), ("Home_zipCode", .int 123), ("nick", .text "Ada")]

theorem flattened_ada : Flattened readers "Reader" ada adaCells := by
  have text : Registry.isScalar readers (.builtin .text) = true := rfl
  have int : Registry.isScalar readers (.builtin .int) = true := rfl
  have homes : readers.Recorded "Home" homeFields none :=
    ⟨⟨_, _, rfl, rfl, rfl, by decide⟩, by decide, by decide, by decide⟩
  have home : Flattens readers ("" ++ "Home_") homeFields [("street", .text "Elm"), ("zip", .int 123)]
      [("Home_street", .text "Elm"), ("Home_zipCode", .int 123)] :=
    .leaf rfl rfl rfl rfl text rfl (by simp) (.leaf rfl rfl rfl rfl int rfl (by simp) (.nil _))
  have remade : Schema.Remakes "Home" homeFields none [("street", .text "Elm"), ("zip", .int 123)] := rfl
  have nick : Flattens readers "" [readerNick] [("nick", .text "Ada")] [("nick", .text "Ada")] :=
    .leaf (v := .text "Ada") rfl rfl rfl rfl text rfl (by simp) (.nil _)
  have rest := Flattens.nested (f := readerHome) rfl rfl rfl rfl homes remade (by simp) home nick
  refine ⟨readerFields, none, [("id", .int 7), ("home", .object "Home" true _), ("nick", .text "Ada")],
    ⟨⟨_, _, rfl, rfl, rfl, by decide⟩, by decide, by decide, by decide⟩, rfl, rfl, ?_⟩
  exact .leaf (v := .int 7) rfl rfl rfl rfl int rfl (by simp) rest

/-- In strict mode, with the columns in another order. -/
theorem mapOne_flattened_ada :
    ∃ w c, World.Default readers c w ∧
      ((w.settings[c.settings]?).getD default).strictMatching = true ∧
      Flattened readers "Reader" ada adaCells ∧ Apart (adaCells.map (·.1)) ∧
      ((Session.mapOne (Session.hooks Session.depth) c (.of (.cls (.declared "Reader")))
        ⟨adaCells.reverse.map (·.1), adaCells.reverse.map (·.2), false⟩).run w).1 = .ok ada := by
  obtain ⟨checked, accepted, matchers, strict⟩ : ∃ checked,
      Session.newSettings [.strictMatching (.bool true)] = .ok checked ∧
        checked.matchers = Settings.standard.matchers ∧ checked.strictMatching = true :=
    ⟨_, rfl, rfl, by decide +kernel⟩
  obtain ⟨c, w, _, plain, settled⟩ := default_newContext
    ⟨.fresh true, none, [.strictMatching (.bool true)]⟩ accepted matchers rfl rfl
    (Session.emptyWorld readers [])
  have apart : Apart (adaCells.map (·.1)) := ⟨by decide +kernel, by decide +kernel⟩
  exact ⟨w, c, plain, settled ▸ strict, flattened_ada, apart,
    mapOne_flattened plain flattened_ada apart adaCells.reverse_perm false rfl _⟩

def counting : PostInit where
  run given := match given.find? "x" with
    | some (.int n) => .ok [("x", .int (n + 1))]
    | _ => .ok []

/-- Records whose post-init changes their field; records with an argument for a post-init alone, and such whose
annotation names what nothing declares; and records whose field names the empty column. -/
def unrecovered : Schema := .declare
  [⟨"Visits", [], none, .record [{ name := "x", type := .cls (.builtin .int) }] (some counting)⟩,
    ⟨"Scaled", [], none, .record
      [{ name := "x", type := .cls (.builtin .int) },
        { name := "factor", type := .cls (.builtin .int), initOnly := true }] none⟩,
    ⟨"Vague", [], none, .record
      [{ name := "x", type := .cls (.builtin .int) },
        { name := "hint", type := .unresolved "Hint", fallback := some (.value .null), initOnly := true }] none⟩,
    ⟨"Blank", [], none, .record
      [{ name := "x", type := .marked (.cls (.builtin .int)) [.column ""] }] none⟩]

def madeOf (name : String) (ks : Keywords) : Option Value :=
  (unrecovered.find? name).bind fun cls => (unrecovered.call cls ks).toOption

/-- What the row of one column that holds one is mapped to, in a new context. -/
def oneAs (name column : String) : Except Failure Value :=
  ((Session.mapOne (Session.hooks Session.depth) ⟨0, 0, 0⟩ (.of (.cls (.declared name)))
    ⟨[column], [.int 1], false⟩).run
      ((Session.start unrecovered [] ⟨.fresh true, none, []⟩).toOption.getD default)).1

/-- Visits of one are made, and mapped from their column they are two. What is for a post-init alone has no column,
and is missing; where its annotation cannot be resolved the record has no table. Under an empty name nothing is
found: it counts as none, and the name of the field is looked for. -/
theorem flattened_unrecovered :
    (madeOf "Visits" [("x", .int 0)] = some (.object "Visits" true [("x", .int 1)]) ∧
      oneAs "Visits" "x" = .ok (.object "Visits" true [("x", .int 2)])) ∧
    (madeOf "Scaled" [("x", .int 1), ("factor", .int 2)] = some (.object "Scaled" true [("x", .int 1)]) ∧
      oneAs "Scaled" "x" =
        .error (.columnMismatch "Scaled" "Scaled.__init__() missing 1 required positional argument: 'factor'")) ∧
    (madeOf "Vague" [("x", .int 1)] = some (.object "Vague" true [("x", .int 1)]) ∧
      oneAs "Vague" "x" = .error .undeclared) ∧
    madeOf "Blank" [("x", .int 1)] = some (.object "Blank" true [("x", .int 1)]) ∧
      oneAs "Blank" "" = .error (.noMatchingColumns "Blank" [""]) :=
  ⟨⟨rfl, rfl⟩, ⟨rfl, rfl⟩, ⟨rfl, rfl⟩, rfl, rfl⟩

end RowMapping
