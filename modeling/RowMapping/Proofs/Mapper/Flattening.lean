import Mathlib.Data.List.Nodup
import Mathlib.Logic.Relation
import RowMapping.Proofs.Column.Unique
import RowMapping.Proofs.Convert.Records
import RowMapping.Proofs.Schema.Described
import RowMapping.Proofs.Schema.Fields
import RowMapping.Registry.Resolve

/-! Records laid out in columns: an object whose sub-objects are all there, and one column for every
scalar field at any depth, named by the leads on the way to it. Objects are finite, so no record is
nested in itself. Where no post-init changes them, a record is made anew from the values of its fields. -/
namespace RowMapping

abbrev FieldSpec.property (f : FieldSpec) : Property := .of f.name f.type []

def keptFields (fields : List FieldSpec) : List FieldSpec := fields.filter (!·.initOnly)

theorem keptFields_aside {f : FieldSpec} {fields : List FieldSpec} (only : f.initOnly = true) :
    keptFields (f :: fields) = keptFields fields := by simp [keptFields, only]

theorem keptFields_cons {f : FieldSpec} {fields : List FieldSpec} (kept : f.initOnly = false) :
    keptFields (f :: fields) = f :: keptFields fields := by simp [keptFields, kept]

/-- The class is a record of these fields, whose annotations are declared. All of them are parameters, those for
the post-init alone have fallbacks, and no column marks it null. -/
structure Schema.Recorded (s : Schema) (name : String) (fields : List FieldSpec)
    (post : Option PostInit) : Prop where
  declared : ∃ cls title, s.find? name = some cls ∧ cls.shape = .record fields post title ∧
    cls.nullMarker = none ∧ s.describes cls = true
  taken : ∀ f ∈ fields, f.inConstructor = true
  undemanding : Schema.Undemanding fields
  distinct : (fields.map (·.name)).Nodup

/-- Made of these values again, the record has them: neither a default nor the post-init raises, and the post-init
changes none of them. -/
def Schema.Remakes (name : String) (fields : List FieldSpec) (post : Option PostInit)
    (values : List (String × Value)) : Prop :=
  Schema.assembled name fields post values = .ok (.object name true values)

/-- Fields with their values, and the columns that the scalars in them take under a lead. A scalar has
exactly the class of its field, a sub-object has some scalar in it, and arguments for a post-init alone have no
columns. -/
inductive Flattens (s : Schema) :
    String → List FieldSpec → List (String × Value) → List (String × Value) → Prop
  | nil (lead : String) : Flattens s lead [] [] []
  | aside {lead : String} {f : FieldSpec} {fields : List FieldSpec} {values cells : List (String × Value)} :
      f.initOnly = true → Flattens s lead fields values cells → Flattens s lead (f :: fields) values cells
  | leaf {lead : String} {f : FieldSpec} {c : ClassRef} {nullable : Bool} {v : Value}
      {fields : List FieldSpec} {values cells : List (String × Value)} :
      f.initOnly = false → f.property.nested = none → f.property.unmappable = false →
      f.property.type = .mk (.cls c) [] nullable → Registry.isScalar s c = true →
      v.classOf = c → v ≠ .null → Flattens s lead fields values cells →
      Flattens s lead (f :: fields) ((f.name, v) :: values)
        ((lead ++ f.property.columnName, v) :: cells)
  | nested {lead under name : String} {f : FieldSpec} {post : Option PostInit}
      {inner fields : List FieldSpec} {within values own cells : List (String × Value)} :
      f.initOnly = false → f.property.nested = some under → f.property.unmappable = false →
      f.property.type.raw = .cls (.declared name) → s.Recorded name inner post →
      Schema.Remakes name inner post within → own ≠ [] →
      Flattens s (lead ++ under) inner within own → Flattens s lead fields values cells →
      Flattens s lead (f :: fields) ((f.name, .object name true within) :: values) (own ++ cells)

def Flattened (s : Schema) (name : String) (object : Value) (cells : List (String × Value)) : Prop :=
  ∃ fields post values, s.Recorded name fields post ∧ Schema.Remakes name fields post values ∧
    object = .object name true values ∧ Flattens s "" fields values cells

def Schema.Nests (s : Schema) (inner outer : String) : Prop :=
  ∃ fields post, s.Recorded outer fields post ∧ ∃ f ∈ fields, f.initOnly = false ∧
    f.property.nested.isSome = true ∧ f.property.type.raw = .cls (.declared inner)

theorem Schema.Recorded.unique {s : Schema} {name : String} {fields fields' : List FieldSpec}
    {post post' : Option PostInit} (recorded : s.Recorded name fields post)
    (other : s.Recorded name fields' post') : fields = fields' ∧ post = post' := by
  obtain ⟨cls, title, known, shape, _⟩ := recorded.declared
  obtain ⟨cls', title', known', shape', _⟩ := other.declared
  cases known.symm.trans known'
  cases shape.symm.trans shape'
  exact ⟨rfl, rfl⟩

theorem Schema.Recorded.distinct_kept {s : Schema} {name : String} {fields : List FieldSpec}
    {post : Option PostInit} (recorded : s.Recorded name fields post) :
    ((keptFields fields).map (·.name)).Nodup := recorded.distinct.sublist (List.filter_sublist.map _)

namespace Flattens

variable {s : Schema} {lead : String} {fields : List FieldSpec} {values cells : List (String × Value)}

theorem names (flat : Flattens s lead fields values cells) :
    values.map (·.1) = (keptFields fields).map (·.name) := by
  induction flat with
  | nil => rfl
  | aside only _ ih => rw [keptFields_aside only, ih]
  | leaf kept _ _ _ _ _ _ _ ih | nested kept _ _ _ _ _ _ _ _ _ ih =>
    rw [keptFields_cons kept, List.map_cons, List.map_cons, ih]

theorem cells_nil (flat : Flattens s lead fields values cells) (none : values = []) : cells = [] := by
  induction flat with
  | nil => rfl
  | aside _ _ ih => exact ih none
  | leaf | nested => contradiction

theorem under_lead (flat : Flattens s lead fields values cells) :
    ∀ e ∈ cells, ∃ rest, e.1 = lead ++ rest := by
  induction flat with
  | nil => simp
  | aside _ _ ih => exact ih
  | leaf _ _ _ _ _ _ _ _ ih =>
    intro e he
    rcases List.mem_cons.mp he with rfl | later
    · exact ⟨_, rfl⟩
    · exact ih e later
  | @nested _ under _ _ _ _ _ _ _ _ _ _ _ _ _ _ _ _ _ _ inner ih =>
    intro e he
    rcases List.mem_append.mp he with own | later
    · obtain ⟨rest, same⟩ := inner e own
      exact ⟨under ++ rest, by rw [same, String.append_assoc]⟩
    · exact ih e later

theorem acc (flat : Flattens s lead fields values cells) :
    ∀ f ∈ fields, f.initOnly = false → f.property.nested.isSome = true → ∀ inner,
      f.property.type.raw = .cls (.declared inner) → Acc s.Nests inner := by
  induction flat with
  | nil => simp
  | aside only _ ih =>
    intro g hg kept nested inner raw
    rcases List.mem_cons.mp hg with rfl | later
    · rw [only] at kept
      contradiction
    · exact ih g later kept nested inner raw
  | leaf _ plain _ _ _ _ _ _ ih =>
    intro g hg kept nested inner raw
    rcases List.mem_cons.mp hg with rfl | later
    · rw [plain] at nested
      contradiction
    · exact ih g later kept nested inner raw
  | nested _ _ _ type recorded _ _ _ _ below ih =>
    intro g hg kept nested inner raw
    rcases List.mem_cons.mp hg with rfl | later
    · cases type.symm.trans raw
      refine Acc.intro _ fun deeper nests => ?_
      obtain ⟨_, _, recorded', h, hh, kept', nested', raw'⟩ := nests
      cases (recorded.unique recorded').1
      exact below h hh kept' nested' deeper raw'
    · exact ih g later kept nested inner raw

/-- Records that are nested in a flattened one go only finitely deep, as its object does. -/
theorem acc_record (flat : Flattens s lead fields values cells) {name : String} {post : Option PostInit}
    (recorded : s.Recorded name fields post) : Acc s.Nests name := by
  refine Acc.intro _ fun inner nests => ?_
  obtain ⟨_, _, recorded', f, hf, kept, nested, raw⟩ := nests
  cases (recorded.unique recorded').1
  exact flat.acc f hf kept nested inner raw

end Flattens

theorem nests_acyclic {s : Schema} {name : String} (acc : Acc s.Nests name) :
    ¬ Relation.TransGen s.Nests name name := by
  induction acc.transGen with
  | intro name _ ih =>
    intro cycle
    exact ih name cycle acc cycle

/-! ### The table of a record -/

theorem property_name (f : FieldSpec) : f.property.name = f.name := Property.of_name _ _ _

theorem distinctProperties_eq {ps : List Property} (distinct : (ps.map (·.name)).Nodup) :
    distinctProperties ps = ps := by
  suffices from' : ∀ kept : List Property, ((kept ++ ps).map (·.name)).Nodup →
      ps.foldl putProperty kept = kept ++ ps from from' [] distinct
  induction ps with
  | nil => exact fun kept _ => (List.append_nil kept).symm
  | cons p ps ih =>
    intro kept distinct'
    have new : kept.any (·.name = p.name) = false := by
      refine List.any_eq_false.mpr fun q hq => ?_
      rw [List.map_append, List.nodup_append] at distinct'
      have other := distinct'.2.2 q.name (List.mem_map_of_mem hq) p.name (by simp)
      simpa using other
    rw [List.foldl_cons, putProperty, if_neg (by simp [new])]
    have tail := List.nodup_cons.mp distinct
    rw [ih tail.2 (kept ++ [p]) (by simpa using distinct'), List.append_assoc]
    rfl

theorem Schema.Recorded.table {s : Schema} {name : String} {fields : List FieldSpec}
    {post : Option PostInit} (recorded : s.Recorded name fields post) :
    ∃ cls, s.find? name = some cls ∧ cls.nullMarker = none ∧
      (∀ serial, s.derives serial cls = some (.ofRecord serial cls fields)) ∧
      ∀ serial, (PropertyTable.ofRecord serial cls fields).properties = (keptFields fields).map (·.property) ∧
        (PropertyTable.ofRecord serial cls fields).builder = .call (.declared name) ∧
        (∀ k ∈ (PropertyTable.ofRecord serial cls fields).create, k.1 ∈ (keptFields fields).map (·.name)) := by
  obtain ⟨cls, title, known, shape, unmarked, described⟩ := recorded.declared
  have own : cls.name = name := by simpa using List.find?_some known
  have all : fields.filter (·.settable) = keptFields fields := by
    refine List.filter_congr fun f member => ?_
    rw [FieldSpec.settable, recorded.taken f member, Bool.true_and]
  refine ⟨cls, known, unmarked, fun serial => ?_, fun serial => ⟨?_, ?_, ?_⟩⟩
  · rw [Schema.derives, if_pos described]
    simp only [PropertyTable.ofClass?, shape]
  · simp only [PropertyTable.ofRecord, all]
    refine distinctProperties_eq ?_
    rw [List.map_map]
    simp only [Function.comp_def, property_name]
    exact recorded.distinct_kept
  · simp only [PropertyTable.ofRecord, own]
  · simp only [PropertyTable.create, PropertyTable.ofRecord, all, List.mem_map, List.mem_filter]
    rintro _ ⟨_, ⟨f, ⟨hf, _⟩, rfl⟩, rfl⟩
    exact ⟨f, hf, rfl⟩

/-! ### Building a record -/

/-- Keywords that hold exactly the values of the fields make the record of these values, if it remakes them. -/
theorem build_record {s : Schema} {name : String} {fields : List FieldSpec} {post : Option PostInit}
    (recorded : s.Recorded name fields post) {values : List (String × Value)}
    (names : values.map (·.1) = (keptFields fields).map (·.name)) (remakes : Schema.Remakes name fields post values)
    {ks : Keywords} (holds : ∀ e, e ∈ ks ↔ e ∈ values) {table : PropertyTable}
    (builder : table.builder = .call (.declared name)) :
    table.build s ks = .ok (.object name true values) := by
  obtain ⟨cls, title, known, shape, _⟩ := recorded.declared
  have own : cls.name = name := by simpa using List.find?_some known
  have distinct : (values.map (·.1)).Nodup := names ▸ recorded.distinct_kept
  have found : ∀ k, ks.find? k = Keywords.find? values k := by
    intro k
    cases here : Keywords.find? values k with
    | some v =>
      have member := (holds _).mpr (Keywords.mem_of_find here)
      exact Keywords.find_of_mem (fun e inside => (holds e).mp inside) distinct member
    | none =>
      refine Option.eq_none_iff_forall_ne_some.mpr fun v given => ?_
      have some := Keywords.find_isSome.mpr ⟨v, (holds _).mp (Keywords.mem_of_find given)⟩
      rw [here] at some
      contradiction
  have taken : ∀ k v, (k, v) ∈ ks → ∃ f ∈ fields, f.settable = true ∧ f.name = k := by
    intro k v given
    have listed : k ∈ (keptFields fields).map (·.name) := names ▸ List.mem_map_of_mem ((holds _).mp given)
    obtain ⟨f, kept, rfl⟩ := List.mem_map.mp listed
    obtain ⟨member, own⟩ := List.mem_filter.mp kept
    exact ⟨f, member, by rw [FieldSpec.settable, recorded.taken f member, Bool.true_and, own], rfl⟩
  have complete : ∀ f ∈ fields, f.settable = true → f.fallback = none → ∃ v, (f.name, v) ∈ ks := by
    intro f member settable _
    have kept : f ∈ keptFields fields := List.mem_filter.mpr ⟨member, ((Bool.and_eq_true _ _).mp settable).2⟩
    have listed : f.name ∈ values.map (·.1) := names ▸ List.mem_map_of_mem kept
    obtain ⟨⟨_, v⟩, inside, rfl⟩ := List.mem_map.mp listed
    exact ⟨v, (holds _).mpr inside⟩
  have same : Schema.initial ks = Schema.initial values := funext fun f => by rw [Schema.initial, Schema.initial, found]
  have again : Schema.assembled name fields post ks = .ok (.object name true values) := by
    rw [Schema.assembled, same]
    exact remakes
  have called : s.call cls ks = .ok (.object name true values) := by
    simp only [Schema.call, shape, own]
    rw [Schema.buildRecord_bound taken complete title recorded.undemanding, again]
    rfl
  simp only [PropertyTable.build, PropertyTable.construct, builder, known, called]

end RowMapping
