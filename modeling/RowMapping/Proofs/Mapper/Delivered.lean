import RowMapping.Proofs.Convert.Models
import RowMapping.Proofs.Mapper.Mapped
import RowMapping.Proofs.Mapper.Tidy

/-! Mapped values in the fields of models. A model is built from keywords, each of which some of its fields
reads. Where every field reads its own keyword and no other field does, each holds what was mapped for it. -/
namespace RowMapping

open MappingM ReflectiveMapper

/-! ### The table of a model -/

section Model

variable {serial : Nat} {cls : Class} {fields : List FieldSpec} {settings : ModelSettings}

theorem field_of_property {p : Property} (member : p ∈ (PropertyTable.ofModel serial cls fields).properties) :
    ∃ f ∈ fields, f.name = p.name := by
  obtain ⟨f, own, rfl⟩ := List.mem_map.mp (mem_distinctProperties member)
  exact ⟨f, own, (Property.of_name _ _ _).symm⟩

variable (distinct : (fields.map (·.name)).Nodup) (keyed : Keyed settings fields)

theorem mem_keys_ofModel {e : String × String} : e ∈ (PropertyTable.ofModel serial cls fields).keys ↔
    ∃ f ∈ fields, f.name = e.1 ∧ f.key.filter (!·.isEmpty) = some e.2 := by
  refine List.mem_filterMap.trans (exists_congr fun f => and_congr_right fun _ => ?_)
  rw [Option.map_eq_some_iff]
  constructor
  · rintro ⟨a, known, rfl⟩
    exact ⟨rfl, known⟩
  · rintro ⟨same, known⟩
    exact ⟨e.2, known, by rw [same]⟩

include distinct in
theorem keyOf_ofModel {f : FieldSpec} (member : f ∈ fields) :
    (PropertyTable.ofModel serial cls fields).keyOf f.name = f.keyword := by
  unfold PropertyTable.keyOf FieldSpec.keyword
  cases found : (PropertyTable.ofModel serial cls fields).keys.find? (·.1 = f.name) with
  | some e =>
    obtain ⟨g, member', name, known⟩ := mem_keys_ofModel.mp (List.mem_of_find?_eq_some found)
    have same : e.1 = f.name := by simpa using List.find?_some found
    rw [← field_unique distinct member' member (name.trans same), known]
    rfl
  | none =>
    cases own : f.key.filter (!·.isEmpty) with
    | none => rfl
    | some a =>
      have inside : (f.name, a) ∈ (PropertyTable.ofModel serial cls fields).keys :=
        mem_keys_ofModel.mpr ⟨f, member, rfl, own⟩
      exact absurd (decide_eq_true rfl) (List.find?_eq_none.mp found _ inside)

include distinct in
theorem mem_create_ofModel {k : String} {v : Value} : (k, v) ∈ (PropertyTable.ofModel serial cls fields).create ↔
    v = .null ∧ ∃ f ∈ fields, f.keyword = k ∧ f.fallback = none ∧ (Descriptor.of f.type).nullable = true := by
  have slots : (PropertyTable.ofModel serial cls fields).slots =
      (fields.filter fun f => f.fallback.isNone && (Descriptor.of f.type).nullable).map fun f =>
        (PropertyTable.ofModel serial cls fields).keyOf f.name := rfl
  unfold PropertyTable.create
  rw [slots, List.map_map, List.mem_map]
  constructor
  · rintro ⟨f, own, same⟩
    cases same
    obtain ⟨member, needed⟩ := List.mem_filter.mp own
    rw [Bool.and_eq_true, Option.isNone_iff_eq_none] at needed
    exact ⟨rfl, f, member, (keyOf_ofModel distinct member).symm, needed⟩
  · rintro ⟨rfl, f, member, rfl, none, nullable⟩
    refine ⟨f, List.mem_filter.mpr ⟨member, by simp [none, nullable]⟩, ?_⟩
    exact congrArg (·, Value.null) (keyOf_ofModel distinct member)

include distinct in
theorem mem_givenUnder_ofModel {mapped : List (Property × Value)}
    (own : ∀ e ∈ mapped, ∃ f ∈ fields, f.name = e.1.name) {k : String} {v : Value} :
    (k, v) ∈ (PropertyTable.ofModel serial cls fields).givenUnder mapped ↔
      v ≠ .null ∧ ∃ f ∈ fields, f.keyword = k ∧ ∃ p, (p, v) ∈ mapped ∧ p.name = f.name := by
  unfold PropertyTable.givenUnder
  rw [List.mem_map]
  constructor
  · rintro ⟨⟨p, u⟩, given, same⟩
    cases same
    obtain ⟨inside, some⟩ := List.mem_filter.mp given
    obtain ⟨f, member, name⟩ := own _ inside
    refine ⟨?_, f, member, ?_, p, inside, name.symm⟩
    · rintro rfl
      contradiction
    · rw [← name, keyOf_ofModel distinct member]
  · rintro ⟨some, f, member, rfl, p, inside, name⟩
    refine ⟨(p, v), List.mem_filter.mpr ⟨inside, ?_⟩, ?_⟩
    · rw [Bool.not_eq_true', ← Bool.not_eq_true, Value.isNull_iff]
      exact some
    · rw [name, keyOf_ofModel distinct member]

include distinct keyed in
theorem givenUnder_nodup {mapped : List (Property × Value)}
    (own : ∀ e ∈ mapped, ∃ f ∈ fields, f.name = e.1.name) (names : (mapped.map (·.1.name)).Nodup) :
    (((PropertyTable.ofModel serial cls fields).givenUnder mapped).map (·.1)).Nodup := by
  unfold PropertyTable.givenUnder
  rw [List.map_map]
  refine List.Nodup.map_on ?_ ((List.Nodup.of_map _ names).filter _)
  intro e inside e' inside' same
  have member := List.mem_of_mem_filter inside
  have member' := List.mem_of_mem_filter inside'
  obtain ⟨f, known, name⟩ := own e member
  obtain ⟨f', known', name'⟩ := own e' member'
  replace same : f.keyword = f'.keyword := by
    rw [← keyOf_ofModel distinct known, ← keyOf_ofModel distinct known', name, name']
    exact same
  have one := keyed.injective distinct known known' same
  exact List.inj_on_of_nodup_map names member member' (by rw [← name, ← name', one])

end Model

/-! ### The fields of a model -/

/-- What a field of a model holds, by what was mapped for it: a value that is not null as the field takes
it, and otherwise its fallback, or null as the field takes it where it has none. -/
structure Delivered (s : Schema) (settings : ModelSettings) (ks : Keywords) (mapped : List (Property × Value))
    (f : FieldSpec) (x : Value) : Prop where
  own : ∀ p v, (p, v) ∈ mapped → p.name = f.name → v ≠ .null → s.takes settings ks f v = .ok x
  missing : (∀ p v, (p, v) ∈ mapped → p.name = f.name → v = .null) →
    f.fallback = some (.value x) ∨ f.fallback = none ∧ s.takes settings ks f .null = .ok x

section Fields

variable {s : Schema} {serial : Nat} {cls : Class} {fields : List FieldSpec} {settings : ModelSettings}
  (distinct : (fields.map (·.name)).Nodup) (keyed : Keyed settings fields)
  {mapped : List (Property × Value)} (own : ∀ e ∈ mapped, ∃ f ∈ fields, f.name = e.1.name)
  (names : (mapped.map (·.1.name)).Nodup)
include distinct keyed own names

theorem find_ofModel (k : String) :
    Keywords.find? ((PropertyTable.ofModel serial cls fields).setMapped
        (PropertyTable.ofModel serial cls fields).create mapped) k =
      (Keywords.find? ((PropertyTable.ofModel serial cls fields).givenUnder mapped) k).or
        (Keywords.find? (PropertyTable.ofModel serial cls fields).create k) := by
  rw [PropertyTable.setMapped_eq]
  exact Keywords.find_putAll (givenUnder_nodup distinct keyed own names) k

theorem delivered_of_holds {f : FieldSpec} (member : f ∈ fields) {x : Value}
    (holds : s.Holds settings ((PropertyTable.ofModel serial cls fields).setMapped
      (PropertyTable.ofModel serial cls fields).create mapped) f x) :
    Delivered s settings ((PropertyTable.ofModel serial cls fields).setMapped
      (PropertyTable.ofModel serial cls fields).create mapped) mapped f x := by
  have found : ∀ k, Keywords.find? ((PropertyTable.ofModel serial cls fields).setMapped
      (PropertyTable.ofModel serial cls fields).create mapped) k = _ := find_ofModel distinct keyed own names
  -- All keywords are those of fields, so that the field reads its own.
  have fieldOf : ∀ k v, Keywords.find? ((PropertyTable.ofModel serial cls fields).setMapped
      (PropertyTable.ofModel serial cls fields).create mapped) k = some v → ∃ g ∈ fields, g.keyword = k := by
    intro k v known
    rw [found] at known
    rcases Option.or_eq_some_iff.mp known with given | ⟨_, slot⟩
    · obtain ⟨_, g, member', same, _⟩ :=
        (mem_givenUnder_ofModel distinct own).mp (Keywords.mem_of_find given)
      exact ⟨g, member', same⟩
    · obtain ⟨_, g, member', same, _⟩ := (mem_create_ofModel distinct).mp (Keywords.mem_of_find slot)
      exact ⟨g, member', same⟩
  unfold Schema.Holds at holds
  rw [keyed.reads distinct fieldOf member, found] at holds
  constructor
  case own =>
    intro p v inside name some
    have given : (f.keyword, v) ∈ (PropertyTable.ofModel serial cls fields).givenUnder mapped :=
      (mem_givenUnder_ofModel distinct own).mpr ⟨some, f, member, rfl, p, inside, name⟩
    rw [Keywords.find_of_mem (fun _ there => there) (givenUnder_nodup distinct keyed own names) given] at holds
    exact holds
  case missing =>
    intro nulls
    have ungiven : Keywords.find? ((PropertyTable.ofModel serial cls fields).givenUnder mapped) f.keyword =
        none := by
      refine Option.eq_none_iff_forall_ne_some.mpr fun v given => ?_
      obtain ⟨some, g, member', same, p, inside, name⟩ :=
        (mem_givenUnder_ofModel distinct own).mp (Keywords.mem_of_find given)
      rw [keyed.injective distinct member' member same] at name
      exact some (nulls p v inside name)
    rw [ungiven, Option.none_or] at holds
    cases slot : Keywords.find? (PropertyTable.ofModel serial cls fields).create f.keyword with
    | none =>
      rw [slot] at holds
      exact .inl holds
    | some v =>
      rw [slot] at holds
      obtain ⟨rfl, g, member', same, none, _⟩ :=
        (mem_create_ofModel distinct).mp (Keywords.mem_of_find slot)
      rw [keyed.injective distinct member' member same] at none
      exact .inr ⟨none, holds⟩

end Fields

theorem PropertyTable.construct_of_build {s : Schema} {t : PropertyTable} {ks : Keywords} {x : Value}
    (built : t.build s ks = .ok x) : construct s t.builder ks = .ok x := by
  unfold PropertyTable.build at built
  cases made : construct s t.builder ks with
  | ok v =>
    rw [made] at built
    exact congrArg _ (Except.ok.inj built)
  | error fault =>
    rw [made] at built
    cases fault with
    | raised r =>
      dsimp only at built
      split at built <;> cases built
    | _ => cases built

/-- Every value that is not null reaches the field whose property it was mapped for, as the field takes it,
where every field reads its own keyword and no field reads that of another. Fields that nothing was mapped
for have their fallback or null. -/
theorem mapped_reaches_field {ds : List ClassDecl} {w v : World} (reached : Reached (.declare ds) w) {depth : Nat}
    {c : Context} {m : ReflectiveMapper} {columns : List String} {plan q : Plan}
    (specialized : (m.specialize (Session.hooks depth) c columns).run w = (.ok plan, v))
    (inside : plan.Contains q) {serial : Nat} {cls : Class} {fields : List FieldSpec} {settings : ModelSettings}
    (known : (Schema.declare ds).find? cls.name = some cls) (shape : cls.shape = .model fields settings)
    (tabled : q.table = .ofModel serial cls fields) (keyed : Keyed settings fields)
    {u u' : World} (later : Reached (.declare ds) u) {row r : Row} {x : Value} (present : x ≠ .null)
    (applied : ((q.apply (Session.hooks depth) c).run row).run u = (.ok (x, r), u')) :
    ∃ mapped values, ((q.mapped (Session.hooks depth) c).run row).run u = (.ok (some mapped, r), u') ∧
      x = .object cls.name true values ∧ List.Forall₂ (fun f e => e.1 = f.name ∧
        Delivered (.declare ds) settings (q.table.setMapped q.table.create mapped) mapped f e.2) fields values := by
  obtain ⟨mapped, read, built⟩ := Plan.mapped_of_apply present applied
  have schema : u'.schema = .declare ds := by
    have after := later.onward (Onward.course.mappedPlan (Onward.hooks depth) c q row u)
    rw [show (((q.mapped (Session.hooks depth) c).run row).run u).2 = u' from congrArg Prod.snd read] at after
    exact after.schema
  have distinct : (fields.map (·.name)).Nodup := by
    have own := Schema.declare_distinct ds cls (List.mem_of_find?_eq_some known)
    rw [Class.Distinct, shape] at own
    exact own
  obtain ⟨table, entries⟩ := q
  obtain rfl : table = _ := tabled
  obtain ⟨distinctEntries, listed, _⟩ := (specialize_tidy reached specialized).contained inside
  -- What was mapped goes by the names of fields, each of them once.
  have properties : mapped.map (·.1) = entries.map (·.1) := Plan.mapped_properties read
  have names : (mapped.map (·.1.name)).Nodup := by
    have same := congrArg (List.map (·.name)) properties
    rw [List.map_map, List.map_map] at same
    exact same ▸ distinctEntries
  have own : ∀ e ∈ mapped, ∃ f ∈ fields, f.name = e.1.name := by
    intro e member
    have planned := List.mem_map_of_mem (f := (·.1)) member
    rw [properties] at planned
    obtain ⟨e', member', same⟩ := List.mem_map.mp planned
    exact same ▸ field_of_property (listed e' member')
  rw [schema] at built
  have made : (Schema.declare ds).validateKeywords cls ((PropertyTable.ofModel serial cls fields).setMapped
      (PropertyTable.ofModel serial cls fields).create mapped) = .ok x := by
    refine Eq.trans ?_ (PropertyTable.construct_of_build built)
    show _ = PropertyTable.construct (Schema.declare ds) (.validate cls.name) _
    rw [PropertyTable.construct, known]
    rfl
  obtain ⟨values, rfl, held⟩ := Schema.validated_model shape made
  refine ⟨mapped, values, read, rfl, ?_⟩
  have inFields := (List.forall₂_and_left fields values).mpr ⟨fun _ member => member, held⟩
  exact inFields.imp fun f e member =>
    ⟨member.2.1, delivered_of_holds distinct keyed own names member.1 member.2.2⟩

/-! ### Sessions of one model -/

structure Lone where
  name : String
  fields : List FieldSpec
  settings : ModelSettings

namespace Lone

def declaration (m : Lone) : List ClassDecl := [⟨m.name, [], none, .model m.fields m.settings⟩]

def cls (m : Lone) : Class := ⟨m.name, [.declared m.name, .builtin .object], none, .model m.fields m.settings⟩

def world (m : Lone) : World :=
  (Session.start (.declare m.declaration) [] ⟨.fresh true, none, []⟩).toOption.getD default

def plan (m : Lone) (columns : List String) : Option Plan :=
  ((ReflectiveMapper.specialize (Session.hooks Session.depth) ⟨0, 0, 0⟩ ⟨0, .cls (.declared m.name), ""⟩
    columns).run m.world).1.toOption

/-- What the properties of the model are mapped to, by their names, and the object that is made of it. -/
def maps (m : Lone) (row : Row) : Option (List (String × Value) × Value) := do
  let plan ← m.plan row.columns
  let read ← (((plan.mapped (Session.hooks Session.depth) ⟨0, 0, 0⟩).run row).run m.world).1.toOption
  let made ← (((plan.apply (Session.hooks Session.depth) ⟨0, 0, 0⟩).run row).run m.world).1.toOption
  return ((← read.1).map fun e => (e.1.name, e.2), made.1)

end Lone

def badge : Lone := ⟨"Badge",
  [{ name := "number", type := .cls (.builtin .int), key := some "badge_no" },
    { name := "holder", type := .optional (.cls (.builtin .text)) },
    { name := "level", type := .cls (.builtin .int), fallback := some (.value (.int 1)) }], ⟨none, some true, none⟩⟩

/-- A field that is given under its name, and reads another key. -/
def count : FieldSpec :=
  { name := "count", type := .cls (.builtin .int), fallback := some (.value (.int 0)), inputKey := some "tally" }

def counter : Lone := ⟨"Counter", [count], ⟨none, none, none⟩⟩

/-- Numbers reach badges, whose holder is null and whose level is as it is by default. -/
theorem mapped_reaches_field_badge : ∃ plan x r u mapped values,
    badge.plan ["number", "holder"] = some plan ∧ Keyed badge.settings badge.fields ∧ x ≠ .null ∧
    ((plan.apply (Session.hooks Session.depth) ⟨0, 0, 0⟩).run ⟨["number", "holder"], [.int 7, .null], false⟩).run
      badge.world = (.ok (x, r), u) ∧
    ((plan.mapped (Session.hooks Session.depth) ⟨0, 0, 0⟩).run ⟨["number", "holder"], [.int 7, .null], false⟩).run
      badge.world = (.ok (some mapped, r), u) ∧
    x = .object "Badge" true values ∧ List.Forall₂ (fun f e => e.1 = f.name ∧
      Delivered (.declare badge.declaration) badge.settings (plan.table.setMapped plan.table.create mapped) mapped
        f e.2) badge.fields values := by
  have computed : ((badge.plan ["number", "holder"]).any fun plan =>
      (((plan.apply (Session.hooks Session.depth) ⟨0, 0, 0⟩).run
        ⟨["number", "holder"], [.int 7, .null], false⟩).run badge.world).1.toOption.any (!·.1.isNull)) = true := by
    decide +kernel
  simp only [Option.any_eq_true] at computed
  obtain ⟨plan, planned, ⟨x, r⟩, ran, present⟩ := computed
  have reached : Reached (.declare badge.declaration) badge.world :=
    @Reached.after _ [] ⟨.fresh true, none, []⟩ badge.world rfl []
  have specialized := run_of_toOption planned
  have keyed : Keyed badge.settings badge.fields := by decide
  have some : x ≠ .null := by
    rintro rfl
    contradiction
  have tabled : plan.table = .ofModel badge.world.next badge.cls badge.fields :=
    (Option.some.inj (specialize_table specialized)).symm
  obtain ⟨mapped, values, read, made, delivered⟩ :=
    mapped_reaches_field reached specialized (.itself plan) rfl rfl tabled keyed reached some (run_of_toOption ran)
  exact ⟨plan, x, r, _, mapped, values, planned, keyed, some, run_of_toOption ran, read, made, delivered⟩

/-- A counter takes seven as it is, and yet is not given the seven that its count was mapped to. -/
theorem other_key_unread : counter.maps ⟨["count"], [.int 7], false⟩ =
      some ([("count", .int 7)], .object "Counter" true [("count", .int 0)]) ∧
    ∀ ks, (Schema.declare counter.declaration).takes counter.settings ks count (.int 7) = .ok (.int 7) := by
  refine ⟨?_, fun ks => rfl⟩
  with_unfolding_all rfl

end RowMapping
