import RowMapping.Proofs.Convert.Records
import RowMapping.Proofs.Mapper.Mapped
import RowMapping.Proofs.Mapper.Tidy

/-! Records from mapped values. The keywords of a record that is described by its own fields start with null for
every field that must be given, and a null sets nothing, so that the constructor is always called legally. -/
namespace RowMapping

open MappingM ReflectiveMapper

theorem Plan.Tidy.mapped {h : Hooks} {c : Context} {plan : Plan} (tidy : plan.Tidy) {row r : Row} {w u : World}
    {mapped : List (Property × Value)} (ran : ((plan.mapped h c).run row).run w = (.ok (some mapped, r), u)) :
    (mapped.map (·.1.name)).Nodup ∧ ∀ e ∈ mapped, e.1 ∈ plan.table.properties := by
  obtain ⟨distinct, listed, _⟩ := tidy
  have properties := Plan.mapped_properties ran
  constructor
  · have same := congrArg (List.map (·.name)) properties
    rw [List.map_map, List.map_map] at same
    exact same ▸ distinct
  · intro e member
    have planned := List.mem_map_of_mem (f := (·.1)) member
    rw [properties] at planned
    obtain ⟨e', member', same⟩ := List.mem_map.mp planned
    exact same ▸ listed e' member'

def PropertyTable.passed (t : PropertyTable) (mapped : List (Property × Value)) : Keywords :=
  t.setMapped t.create mapped

theorem PropertyTable.passed_eq (t : PropertyTable) (mapped : List (Property × Value)) :
    t.passed mapped = t.create.putAll (t.givenUnder mapped) := t.setMapped_eq _ mapped

/-- In a session, every plan in a plan that was specialized builds its object of what it has mapped: of properties
of its table, none of them twice. -/
theorem apply_of_specialized {s : Schema} {w v : World} (reached : Reached s w) {depth : Nat} {c : Context}
    {m : ReflectiveMapper} {columns : List String} {plan q : Plan}
    (specialized : (m.specialize (Session.hooks depth) c columns).run w = (.ok plan, v)) (inside : plan.Contains q)
    {u u' : World} (later : Reached s u) {row r : Row} {mapped : List (Property × Value)}
    (read : ((q.mapped (Session.hooks depth) c).run row).run u = (.ok (some mapped, r), u')) :
    (mapped.map (·.1.name)).Nodup ∧ (∀ e ∈ mapped, e.1 ∈ q.table.properties) ∧
      ((q.apply (Session.hooks depth) c).run row).run u =
        ((q.table.build s (q.table.passed mapped)).map (·, r), u') := by
  have schema : u'.schema = s := by
    have after := later.onward (Onward.course.mappedPlan (Onward.hooks depth) c q row u)
    rw [show (((q.mapped (Session.hooks depth) c).run row).run u).2 = u' from congrArg Prod.snd read] at after
    exact after.schema
  obtain ⟨names, own⟩ := ((specialize_tidy reached specialized).contained inside).mapped read
  refine ⟨names, own, ?_⟩
  rw [Plan.apply_of_mapped read, schema]
  rfl

theorem Schema.fields_nodup {ds : List ClassDecl} {name : String} {cls : Class}
    (known : (Schema.declare ds).find? name = some cls) {fields : List FieldSpec} (own : cls.shape.fields = fields) :
    (fields.map (·.name)).Nodup :=
  own ▸ declare_distinct ds cls (List.mem_of_find?_eq_some known)

theorem Keywords.putAll_nodup {ks : Keywords} (distinct : (ks.map (·.1)).Nodup) (given : List (String × Value)) :
    ((ks.putAll given).map (·.1)).Nodup := by
  induction given generalizing ks with
  | nil => exact distinct
  | cons e es ih => exact ih (@put_nodup (String × Value) (·.1) ks distinct e)

/-! ### The table of a record -/

section Record

variable {serial : Nat} {cls : Class} {fields : List FieldSpec}

theorem mem_create_ofRecord {k : String} {v : Value} : (k, v) ∈ (PropertyTable.ofRecord serial cls fields).create ↔
    v = .null ∧ ∃ f ∈ fields, f.settable = true ∧ f.fallback = none ∧ f.name = k := by
  simp only [PropertyTable.create, PropertyTable.ofRecord, List.mem_map, List.mem_filter, Prod.mk.injEq,
    Option.isNone_iff_eq_none]
  constructor
  · rintro ⟨_, ⟨f, ⟨⟨member, own⟩, fallback⟩, rfl⟩, rfl, rfl⟩
    exact ⟨rfl, f, member, own, fallback, rfl⟩
  · rintro ⟨rfl, f, member, own, fallback, rfl⟩
    exact ⟨f.name, ⟨f, ⟨⟨member, own⟩, fallback⟩, rfl⟩, rfl, rfl⟩

theorem create_nodup_ofRecord (distinct : (fields.map (·.name)).Nodup) :
    ((PropertyTable.ofRecord serial cls fields).create.map (·.1)).Nodup := by
  have names : (PropertyTable.ofRecord serial cls fields).create.map (·.1) =
      ((fields.filter (·.settable)).filter (·.fallback.isNone)).map (·.name) := by
    simp [PropertyTable.create, PropertyTable.ofRecord, Function.comp_def]
  rw [names]
  exact distinct.sublist ((List.filter_sublist.trans List.filter_sublist).map _)

theorem property_ofRecord {p : Property} (member : p ∈ (PropertyTable.ofRecord serial cls fields).properties) :
    ∃ f ∈ fields, f.settable = true ∧ f.name = p.name := by
  obtain ⟨f, own, rfl⟩ := List.mem_map.mp (mem_distinctProperties member)
  obtain ⟨inside, taken⟩ := List.mem_filter.mp own
  exact ⟨f, inside, taken, (Property.of_name _ _ _).symm⟩

theorem mem_givenUnder_ofRecord {mapped : List (Property × Value)} {k : String} {v : Value} :
    (k, v) ∈ (PropertyTable.ofRecord serial cls fields).givenUnder mapped ↔
      v ≠ .null ∧ ∃ p, (p, v) ∈ mapped ∧ p.name = k := by
  have keyOf : ∀ name, (PropertyTable.ofRecord serial cls fields).keyOf name = name := fun _ => rfl
  simp only [PropertyTable.givenUnder, keyOf, List.mem_map, List.mem_filter, Prod.mk.injEq,
    Bool.not_eq_true', ← Bool.not_eq_true, Value.isNull_iff]
  constructor
  · rintro ⟨⟨p, _⟩, ⟨member, given⟩, rfl, rfl⟩
    exact ⟨given, p, member, rfl⟩
  · rintro ⟨given, p, member, rfl⟩
    exact ⟨(p, v), ⟨member, given⟩, rfl, rfl⟩

theorem givenUnder_nodup_ofRecord {mapped : List (Property × Value)} (names : (mapped.map (·.1.name)).Nodup) :
    (((PropertyTable.ofRecord serial cls fields).givenUnder mapped).map (·.1)).Nodup := by
  have keys : ((PropertyTable.ofRecord serial cls fields).givenUnder mapped).map (·.1) =
      (mapped.filter fun e => !e.2.isNull).map (·.1.name) := by
    simp [PropertyTable.givenUnder, PropertyTable.keyOf, PropertyTable.ofRecord, Function.comp_def]
  rw [keys]
  exact names.sublist (List.filter_sublist.map _)

/-- Whatever properties a row sets, and in whatever order, the keywords are legal. -/
theorem legal_ofRecord (distinct : (fields.map (·.name)).Nodup) {mapped : List (Property × Value)}
    (names : (mapped.map (·.1.name)).Nodup)
    (own : ∀ e ∈ mapped, e.1 ∈ (PropertyTable.ofRecord serial cls fields).properties) :
    LegalCall fields ((PropertyTable.ofRecord serial cls fields).passed mapped) := by
  have apart : (((PropertyTable.ofRecord serial cls fields).givenUnder mapped).map (·.1)).Nodup :=
    givenUnder_nodup_ofRecord names
  rw [PropertyTable.passed_eq]
  constructor
  case once => exact Keywords.putAll_nodup (create_nodup_ofRecord distinct) _
  case taken =>
    intro k v inside
    rcases (Keywords.mem_putAll apart).mp inside with given | ⟨slot, _⟩
    · obtain ⟨_, p, mapped, rfl⟩ := mem_givenUnder_ofRecord.mp given
      exact property_ofRecord (own _ mapped)
    · obtain ⟨_, f, known, taken, _, name⟩ := mem_create_ofRecord.mp slot
      exact ⟨f, known, taken, name⟩
  case complete =>
    intro f known taken fallback
    by_cases given : f.name ∈ ((PropertyTable.ofRecord serial cls fields).givenUnder mapped).map (·.1)
    · obtain ⟨⟨_, v⟩, inside, rfl⟩ := List.mem_map.mp given
      exact ⟨v, (Keywords.mem_putAll apart).mpr (.inl inside)⟩
    · have slot : (f.name, Value.null) ∈ (PropertyTable.ofRecord serial cls fields).create :=
        mem_create_ofRecord.mpr ⟨rfl, f, known, taken, fallback, rfl⟩
      exact ⟨.null, (Keywords.mem_putAll apart).mpr (.inr ⟨slot, given⟩)⟩
  case solid =>
    intro f known inside
    rcases (Keywords.mem_putAll apart).mp inside with given | ⟨slot, _⟩
    · exact absurd rfl (mem_givenUnder_ofRecord.mp given).1
    · obtain ⟨_, g, known', _, fallback, same⟩ := mem_create_ofRecord.mp slot
      cases List.inj_on_of_nodup_map distinct known' known same
      exact fallback

end Record

/-! ### What the constructor makes of them -/

/-- The outcome of a record as it is told: only an error of value or type counts as a mismatch with the
columns. -/
def toldOf (name : String) (outcome : Except Raise Value) : Except Failure Value :=
  outcome.mapError fun raised =>
    if raised.rejects then .columnMismatch name raised.message else .raised raised

theorem mismatch_of_told {name type detail : String} {outcome : Except Raise Value}
    (mismatch : toldOf name outcome = .error (.columnMismatch type detail)) : ∃ raised,
      outcome = .error raised ∧ (raised.kind = .value ∨ raised.kind = .type) ∧ type = name ∧
        detail = raised.message := by
  cases outcome with
  | ok v => contradiction
  | error raised =>
    simp only [toldOf, Except.mapError, Except.error.injEq] at mismatch
    split at mismatch
    · next rejects =>
      cases mismatch
      exact ⟨raised, rfl, by simpa [Raise.rejects] using rejects, rfl, rfl⟩
    · cases mismatch

theorem build_legal {s : Schema} {serial : Nat} {cls : Class} {fields : List FieldSpec} {post : Option PostInit}
    {title : String} (known : s.find? cls.name = some cls) (shape : cls.shape = .record fields post title)
    (undemanding : Schema.Undemanding fields) {ks : Keywords} (legal : LegalCall fields ks) :
    (PropertyTable.ofRecord serial cls fields).build s ks =
      toldOf cls.name (Schema.assembled cls.name fields post ks) := by
  have made : PropertyTable.construct s (PropertyTable.ofRecord serial cls fields).builder ks =
      Schema.buildRecord cls.name fields post title ks := by
    simp [PropertyTable.ofRecord, PropertyTable.construct, known, Schema.call, shape]
  rw [PropertyTable.build, made, Schema.buildRecord_bound legal.taken legal.complete title undemanding]
  cases Schema.assembled cls.name fields post ks with
  | ok v => rfl
  | error raised =>
    cases rejects : raised.rejects <;>
      simp [rejects, toldOf, Except.mapError, PropertyTable.ofRecord, ClassRef.name]

/-- From every row whose object is not null, the constructor of a record that is described by its own fields gets
legal keywords. If no argument of the post-init alone must be given, the record comes to what its fields and its
post-init make of them, so that a mismatch of the record with the columns can only be an error of value or type
that its post-init raises, or the default factory of a field. -/
theorem record_called_legally {ds : List ClassDecl} {w v : World} (reached : Reached (.declare ds) w) {depth : Nat}
    {c : Context} {m : ReflectiveMapper} {columns : List String} {plan q : Plan}
    (specialized : (m.specialize (Session.hooks depth) c columns).run w = (.ok plan, v))
    (inside : plan.Contains q) {serial : Nat} {cls : Class} {fields : List FieldSpec} {post : Option PostInit}
    {title : String} (known : (Schema.declare ds).find? cls.name = some cls)
    (shape : cls.shape = .record fields post title) (tabled : q.table = .ofRecord serial cls fields)
    {u u' : World} (later : Reached (.declare ds) u) {row r : Row} {mapped : List (Property × Value)}
    (read : ((q.mapped (Session.hooks depth) c).run row).run u = (.ok (some mapped, r), u')) : ∃ ks,
      ks = q.table.passed mapped ∧ LegalCall fields ks ∧
      (Schema.Undemanding fields →
        ((q.apply (Session.hooks depth) c).run row).run u =
          ((toldOf cls.name (Schema.assembled cls.name fields post ks)).map (·, r), u') ∧
        ∀ type detail,
          (((q.apply (Session.hooks depth) c).run row).run u).1 = .error (.columnMismatch type detail) →
          ∃ raised, Schema.RaisedWithin fields post ks raised ∧ (raised.kind = .value ∨ raised.kind = .type) ∧
            type = cls.name ∧ detail = raised.message) := by
  have distinct : (fields.map (·.name)).Nodup := Schema.fields_nodup known (congrArg Shape.fields shape)
  obtain ⟨names, own, applied⟩ := apply_of_specialized reached specialized inside later read
  rw [tabled] at own applied ⊢
  have legal := legal_ofRecord distinct names own
  obtain ⟨ks, passed⟩ : ∃ ks, ks = (PropertyTable.ofRecord serial cls fields).passed mapped := ⟨_, rfl⟩
  rw [← passed] at legal applied
  refine ⟨ks, passed, legal, fun undemanding => ?_⟩
  rw [build_legal known shape undemanding legal] at applied
  refine ⟨applied, fun type detail failed => ?_⟩
  rw [applied] at failed
  have mismatch : toldOf cls.name (Schema.assembled cls.name fields post ks) =
      .error (.columnMismatch type detail) := by
    revert failed
    cases toldOf cls.name (Schema.assembled cls.name fields post ks) with
    | ok => exact nofun
    | error e =>
      rintro ⟨⟩
      rfl
  obtain ⟨raised, outcome, kind, named, detailed⟩ := mismatch_of_told mismatch
  exact ⟨raised, Schema.assembled_error outcome, kind, named, detailed⟩

/-! ### Crates -/

def crateGuard : PostInit := .guard (some ("level", .int 0)) ⟨.value, "no level"⟩

/-- Crates are items with a level of their own, whose unit is for the post-init only. Express crates have neither
fields nor a post-init of their own. -/
def crates : List ClassDecl :=
  [⟨"Item", [], none, .record
      [{ name := "number", type := .cls (.builtin .int) },
        { name := "level", type := .cls (.builtin .int), fallback := some (.value (.int 1)) },
        { name := "weight", type := .cls (.builtin .int), fallback := some (.value (.int 0)),
          inConstructor := false }] none⟩,
    ⟨"Crate", ["Item"], none, .record
      [{ name := "holder", type := .optional (.cls (.builtin .text)), keywordOnly := true },
        { name := "level", type := .cls (.builtin .int), fallback := some (.value (.int 2)) },
        { name := "unit", type := .cls (.builtin .text), fallback := some (.value (.text "kg")),
          keywordOnly := true, initOnly := true }]
      (some crateGuard)⟩,
    ⟨"Express", ["Crate"], none, .inherited⟩]

def crateFields : List FieldSpec :=
  [{ name := "number", type := .cls (.builtin .int) },
    { name := "level", type := .cls (.builtin .int), fallback := some (.value (.int 2)) },
    { name := "weight", type := .cls (.builtin .int), fallback := some (.value (.int 0)), inConstructor := false },
    { name := "holder", type := .optional (.cls (.builtin .text)), keywordOnly := true },
    { name := "unit", type := .cls (.builtin .text), fallback := some (.value (.text "kg")),
      keywordOnly := true, initOnly := true }]

def express : Class :=
  ⟨"Express", [.declared "Express", .declared "Crate", .declared "Item", .builtin .object], none,
    .record crateFields (some crateGuard) "Crate.__init__"⟩

def cratesWorld : World :=
  (Session.start (.declare crates) [] ⟨.fresh true, none, []⟩).toOption.getD default

def expressPlan (columns : List String) : Option Plan :=
  ((ReflectiveMapper.specialize (Session.hooks Session.depth) ⟨0, 0, 0⟩ ⟨0, .cls (.declared "Express"), ""⟩
    columns).run cratesWorld).1.toOption

/-- A null level sets nothing, and a holder without a column is null. -/
theorem record_called_legally_crate : ∃ plan mapped r u ks,
    expressPlan ["number", "level"] = some plan ∧
    ((plan.mapped (Session.hooks Session.depth) ⟨0, 0, 0⟩).run ⟨["number", "level"], [.int 7, .null], false⟩).run
      cratesWorld = (.ok (some mapped, r), u) ∧
    ks = plan.table.passed mapped ∧ LegalCall crateFields ks ∧
    ((plan.apply (Session.hooks Session.depth) ⟨0, 0, 0⟩).run ⟨["number", "level"], [.int 7, .null], false⟩).run
      cratesWorld =
        ((toldOf "Express" (Schema.assembled "Express" crateFields (some crateGuard) ks)).map (·, r), u) := by
  have computed : ((expressPlan ["number", "level"]).any fun plan =>
      (((plan.mapped (Session.hooks Session.depth) ⟨0, 0, 0⟩).run
        ⟨["number", "level"], [.int 7, .null], false⟩).run cratesWorld).1.toOption.any (·.1.isSome)) = true := by
    decide +kernel
  simp only [Option.any_eq_true, Option.isSome_iff_exists] at computed
  obtain ⟨plan, planned, ⟨_, r⟩, ran, mapped, rfl⟩ := computed
  have reached : Reached (.declare crates) cratesWorld :=
    @Reached.after _ [] ⟨.fresh true, none, []⟩ cratesWorld rfl []
  have specialized := run_of_toOption planned
  have described : cratesWorld.tableFor ⟨0, 0, 0⟩ (.declared "Express") =
      some (.ofRecord cratesWorld.next express crateFields) := by
    with_unfolding_all rfl
  have tabled : plan.table = .ofRecord cratesWorld.next express crateFields :=
    Option.some.inj ((specialize_table specialized).symm.trans described)
  have known : (Schema.declare crates).find? express.name = some express := rfl
  have undemanding : Schema.Undemanding crateFields := by decide
  obtain ⟨ks, same, legal, outcome⟩ :=
    record_called_legally reached specialized (.itself plan) known rfl tabled reached (run_of_toOption ran)
  exact ⟨plan, mapped, r, _, ks, planned, run_of_toOption ran, same, legal, (outcome undemanding).1⟩

/-- Records without a post-init: one with an argument that only a post-init would see, one with a default factory
that raises, and users. -/
def refusals : List ClassDecl :=
  [⟨"Scaled", [], none, .record
      [{ name := "id", type := .cls (.builtin .int) },
        { name := "factor", type := .cls (.builtin .int), initOnly := true }] none⟩,
    ⟨"Ticket", [], none, .record
      [{ name := "id", type := .cls (.builtin .int) },
        { name := "seat", type := .cls (.builtin .int), fallback := some (.failing ⟨.value, "none left"⟩) }] none⟩,
    ⟨"User", [], none, .record [{ name := "id", type := .cls (.builtin .int) }] none⟩]

def refusalsWorld : World :=
  (Session.start (.declare refusals) [] ⟨.fresh true, none, []⟩).toOption.getD default

/-- That world after users have been given the property of a nick, which is none of their fields. -/
def nickedWorld : World :=
  ((Session.registerProperties ⟨0, 0, 0⟩ (.cls (.declared "User")) [⟨"nick", .cls (.builtin .text), []⟩] none
    none).run refusalsWorld).2

def oneColumnAs (cls column : String) (v : Value) (w : World) : Except Failure Value :=
  ((Session.mapOne (Session.hooks Session.depth) ⟨0, 0, 0⟩ (.of (.cls (.declared cls))) ⟨[column], [v], false⟩).run
    w).1

/-- Records that have no post-init mismatch their columns: for an argument that is missing, for a default factory
that raises, and for a property that was registered and is no field. -/
theorem mismatched_without_postInit :
    oneColumnAs "Scaled" "id" (.int 1) refusalsWorld =
      .error (.columnMismatch "Scaled" "Scaled.__init__() missing 1 required positional argument: 'factor'") ∧
    oneColumnAs "Ticket" "id" (.int 1) refusalsWorld = .error (.columnMismatch "Ticket" "none left") ∧
    oneColumnAs "User" "nick" (.text "x") nickedWorld =
      .error (.columnMismatch "User" "User.__init__() got an unexpected keyword argument 'nick'") ∧
    ∀ cls ∈ (Schema.declare refusals).classes, ∃ fields title, cls.shape = .record fields none title := by
  refine ⟨rfl, rfl, rfl, ?_⟩
  have without : ∀ cls ∈ (Schema.declare refusals).classes, ∃ fields title, cls.shape = .record fields none title :=
    List.forall_mem_cons.mpr ⟨⟨_, _, rfl⟩, List.forall_mem_cons.mpr ⟨⟨_, _, rfl⟩,
      List.forall_mem_cons.mpr ⟨⟨_, _, rfl⟩, List.forall_mem_nil _⟩⟩⟩
  exact without

end RowMapping
