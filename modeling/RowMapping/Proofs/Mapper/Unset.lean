import RowMapping.Proofs.Convert.Readings
import RowMapping.Proofs.Mapper.Calls
import RowMapping.Proofs.Mapper.Delivered

/-! Fields of models that no value was mapped for. One that must be given is read as null where the descriptor of
its type admits null, and is missing otherwise, whatever else its type takes. -/
namespace RowMapping

open MappingM ReflectiveMapper Constructed

/-- The field reads its own keyword, and none of another field. -/
def KeyedAt (settings : ModelSettings) (fields : List FieldSpec) (f : FieldSpec) : Prop :=
  ∀ g ∈ fields, g.keyword ∈ Schema.fieldKeys settings f ↔ g.name = f.name

instance (settings : ModelSettings) (fields : List FieldSpec) (f : FieldSpec) :
    Decidable (KeyedAt settings fields f) :=
  inferInstanceAs (Decidable (∀ g ∈ fields, g.keyword ∈ Schema.fieldKeys settings f ↔ g.name = f.name))

section Fields

variable {serial : Nat} {cls : Class} {fields : List FieldSpec} {settings : ModelSettings}
  (distinct : (fields.map (·.name)).Nodup) {mapped : List (Property × Value)}
  (own : ∀ e ∈ mapped, ∃ f ∈ fields, f.name = e.1.name)
include distinct own

theorem keyword_of_mem {k : String} {v : Value}
    (member : (k, v) ∈ (PropertyTable.ofModel serial cls fields).passed mapped) : ∃ g ∈ fields, g.keyword = k := by
  rw [PropertyTable.passed_eq] at member
  rcases Keywords.mem_of_putAll member with given | slot
  · obtain ⟨_, g, inside, same, _⟩ := (mem_givenUnder_ofModel distinct own).mp given
    exact ⟨g, inside, same⟩
  · obtain ⟨_, g, inside, same, _⟩ := (mem_create_ofModel distinct).mp slot
    exact ⟨g, inside, same⟩

variable {f : FieldSpec} (member : f ∈ fields) (keyed : KeyedAt settings fields f)
include member keyed

omit own in
theorem KeyedAt.unique {g : FieldSpec} (inside : g ∈ fields) (same : g.keyword = f.keyword) : g = f := by
  have read : f.keyword ∈ Schema.fieldKeys settings f := (keyed f member).mpr rfl
  exact field_unique distinct inside member ((keyed g inside).mp (same ▸ read))

theorem KeyedAt.unset (required : f.fallback = none)
    (unset : ∀ p v, (p, v) ∈ mapped → p.name = f.name → v = .null) :
    (Schema.fieldKeys settings f).findSome?
        (Keywords.find? ((PropertyTable.ofModel serial cls fields).passed mapped)) =
      if (Descriptor.of f.type).nullable then some .null else none := by
  have reads : (Schema.fieldKeys settings f).findSome?
      (Keywords.find? ((PropertyTable.ofModel serial cls fields).passed mapped)) =
        Keywords.find? ((PropertyTable.ofModel serial cls fields).passed mapped) f.keyword := by
    refine findSome_single ((keyed f member).mpr rfl) fun k inside other => ?_
    refine Option.eq_none_iff_forall_ne_some.mpr fun v found => ?_
    obtain ⟨g, member', rfl⟩ := keyword_of_mem distinct own (Keywords.mem_of_find found)
    exact other (congrArg _ (field_unique distinct member' member ((keyed g member').mp inside)))
  have ungiven : f.keyword ∉ ((PropertyTable.ofModel serial cls fields).givenUnder mapped).map (·.1) := by
    intro given
    obtain ⟨⟨_, v⟩, inside, rfl⟩ := List.mem_map.mp given
    obtain ⟨some, g, member', same, p, here, name⟩ := (mem_givenUnder_ofModel distinct own).mp inside
    rw [keyed.unique distinct member member' same] at name
    exact some (unset p v here name)
  rw [reads, PropertyTable.passed_eq, Keywords.find_putAll_other ungiven]
  split
  · next nullable =>
    have slot : (f.keyword, Value.null) ∈ (PropertyTable.ofModel serial cls fields).create :=
      (mem_create_ofModel distinct).mpr ⟨rfl, f, member, rfl, required, nullable⟩
    obtain ⟨v, found⟩ := Option.isSome_iff_exists.mp (Keywords.find_isSome.mpr ⟨_, slot⟩)
    rw [found, ((mem_create_ofModel distinct).mp (Keywords.mem_of_find found)).1]
  · next solid =>
    refine Option.eq_none_iff_forall_ne_some.mpr fun v found => ?_
    obtain ⟨_, g, member', same, _, nullable⟩ := (mem_create_ofModel distinct).mp (Keywords.mem_of_find found)
    rw [keyed.unique distinct member member' same] at nullable
    exact solid nullable

theorem KeyedAt.read_unset (s : Schema) (required : f.fallback = none) (plural : f.type.Plural)
    (unset : ∀ p v, (p, v) ∈ mapped → p.name = f.name → v = .null) :
    s.readField settings ((PropertyTable.ofModel serial cls fields).passed mapped) f =
      if (Descriptor.of f.type).nullable then .ok (f.name, .null)
      else (reject .missing).under (.key ((Schema.fieldKeys settings f).headD f.name)) := by
  rw [Schema.readField, keyed.unset distinct own member required unset]
  cases nullable : (Descriptor.of f.type).nullable with
  | true =>
    simp only [if_true, Schema.takes, Schema.checker_null _ _ _ plural nullable]
    rfl
  | false =>
    rw [required]
    rfl

end Fields

theorem build_ofModel_ok {s : Schema} {serial : Nat} {cls : Class} {fields : List FieldSpec}
    (known : s.find? cls.name = some cls) {ks : Keywords} {x : Value} :
    (PropertyTable.ofModel serial cls fields).build s ks = .ok x ↔ s.validateKeywords cls ks = .ok x := by
  have made : PropertyTable.construct s (PropertyTable.ofModel serial cls fields).builder ks =
      s.validateKeywords cls ks := by
    simp [PropertyTable.ofModel, PropertyTable.construct, known]
  rw [← made]
  refine ⟨PropertyTable.construct_of_build, fun built => ?_⟩
  rw [PropertyTable.build, built]

theorem build_ofModel_error {s : Schema} {serial : Nat} {cls : Class} {fields : List FieldSpec}
    (known : s.find? cls.name = some cls) {ks : Keywords} :
    (∃ e, (PropertyTable.ofModel serial cls fields).build s ks = .error e) ↔
      ∃ fault, s.validateKeywords cls ks = .error fault := by
  cases made : s.validateKeywords cls ks with
  | ok x => simp [(build_ofModel_ok known).mpr made]
  | error fault =>
    cases built : (PropertyTable.ofModel serial cls fields).build s ks with
    | ok x => cases made.symm.trans ((build_ofModel_ok known).mp built)
    | error e => simp

theorem map_pair_ok {ε α β : Type} {x : Except ε α} {b b' : β} {a : α} :
    x.map (·, b) = .ok (a, b') ↔ x = .ok a ∧ b = b' := by
  cases x <;> simp [Except.map]

theorem map_error_iff {ε α β : Type} {f : α → β} {x : Except ε α} {e : ε} :
    x.map f = .error e ↔ x = .error e := by
  cases x <;> simp [Except.map]

/-! ### Unset fields in sessions -/

/-- A field that must be given, and that nothing but null was mapped for, is read as null where the descriptor of its
type admits null: what fails then fails for another field or for a keyword that no field reads, and an object that
is built holds null in the field. Where the descriptor does not admit null, the field is missing and no object is
built. -/
theorem unset_field_null {ds : List ClassDecl} {w v : World} (reached : Reached (.declare ds) w) {depth : Nat}
    {c : Context} {m : ReflectiveMapper} {columns : List String} {plan q : Plan}
    (specialized : (m.specialize (Session.hooks depth) c columns).run w = (.ok plan, v))
    (inside : plan.Contains q) {serial : Nat} {cls : Class} {fields : List FieldSpec} {settings : ModelSettings}
    (known : (Schema.declare ds).find? cls.name = some cls) (shape : cls.shape = .model fields settings)
    (tabled : q.table = .ofModel serial cls fields) {u u' : World} (later : Reached (.declare ds) u) {row r : Row}
    {mapped : List (Property × Value)}
    (read : ((q.mapped (Session.hooks depth) c).run row).run u = (.ok (some mapped, r), u')) {f : FieldSpec}
    (member : f ∈ fields) (required : f.fallback = none) (keyed : KeyedAt settings fields f)
    (plural : f.type.Plural) (unset : ∀ p v, (p, v) ∈ mapped → p.name = f.name → v = .null) : ∃ ks,
      ks = q.table.passed mapped ∧
      ((Descriptor.of f.type).nullable = true →
        (Schema.declare ds).readField settings ks f = .ok (f.name, .null) ∧
        (∀ e, (((q.apply (Session.hooks depth) c).run row).run u).1 = .error e →
          (∃ g ∈ fields, g.name ≠ f.name ∧ ∃ cause, (Schema.declare ds).readField settings ks g = .error cause) ∨
            ∃ k, k ≠ f.keyword ∧ Schema.Excess settings fields ks k) ∧
        ∀ x r', (((q.apply (Session.hooks depth) c).run row).run u).1 = .ok (x, r') →
          ∃ values, x = .object cls.name true values ∧ (f.name, .null) ∈ values) ∧
      ((Descriptor.of f.type).nullable = false →
        (Schema.declare ds).readField settings ks f =
          (reject .missing).under (.key ((Schema.fieldKeys settings f).headD f.name)) ∧
        ∃ e, (((q.apply (Session.hooks depth) c).run row).run u).1 = .error e) := by
  have distinct : (fields.map (·.name)).Nodup := Schema.fields_nodup known (congrArg Shape.fields shape)
  obtain ⟨_, listed, applied⟩ := apply_of_specialized reached specialized inside later read
  rw [tabled] at listed applied ⊢
  have own : ∀ e ∈ mapped, ∃ f ∈ fields, f.name = e.1.name := fun e inside => field_of_property (listed e inside)
  have found := @KeyedAt.read_unset serial cls fields settings distinct mapped own f member keyed (.declare ds)
    required plural unset
  refine ⟨_, rfl, fun nullable => ?_, fun solid => ?_⟩
  · rw [nullable, if_pos rfl] at found
    obtain ⟨fails, holds⟩ := Schema.validated_of_read shape member distinct found
    refine ⟨found, fun e failed => ?_, fun x r' ok => ?_⟩
    · rw [applied, map_error_iff] at failed
      obtain ⟨fault, refused⟩ := (build_ofModel_error known).mp ⟨e, failed⟩
      refine (fails fault refused).imp_right fun ⟨k, excess⟩ => ⟨k, ?_, excess⟩
      rintro rfl
      exact excess.2.2 f member ((keyed f member).mpr rfl)
    · rw [applied, map_pair_ok] at ok
      exact holds x ((build_ofModel_ok known).mp ok.1)
  · rw [solid, if_neg Bool.false_ne_true] at found
    obtain ⟨e, failed⟩ := (build_ofModel_error known).mpr (Schema.refused_of_read shape member found)
    refine ⟨found, e, ?_⟩
    rw [applied, map_error_iff]
    exact failed

def Lone.outcome (m : Lone) (row : Row) : Option (Except Failure Value) :=
  (m.plan row.columns).map fun plan =>
    (((plan.apply (Session.hooks Session.depth) ⟨0, 0, 0⟩).run row).run m.world).1.map (·.1)

def memoText : FieldSpec := { name := "text", type := .optional (.cls (.builtin .text)), key := some "memo_text" }

def memo : Lone :=
  ⟨"Memo", [{ name := "id", type := .cls (.builtin .int) }, memoText], ⟨none, none, none⟩⟩

/-- Memos without a column for their text are built, with null for it. -/
theorem unset_field_null_memo : memo.outcome ⟨["id"], [.int 1], false⟩ =
      some (.ok (.object "Memo" true [("id", .int 1), ("text", .null)])) ∧
    ∃ plan mapped r u ks, memo.plan ["id"] = some plan ∧
    ((plan.mapped (Session.hooks Session.depth) ⟨0, 0, 0⟩).run ⟨["id"], [.int 1], false⟩).run memo.world =
      (.ok (some mapped, r), u) ∧
    ks = plan.table.passed mapped ∧
    (Schema.declare memo.declaration).readField memo.settings ks memoText = .ok ("text", .null) ∧
    ∀ x r', (((plan.apply (Session.hooks Session.depth) ⟨0, 0, 0⟩).run
        ⟨["id"], [.int 1], false⟩).run memo.world).1 = .ok (x, r') →
      ∃ values, x = .object "Memo" true values ∧ ("text", .null) ∈ values := by
  have computed : ((memo.plan ["id"]).any fun plan =>
      (((plan.mapped (Session.hooks Session.depth) ⟨0, 0, 0⟩).run ⟨["id"], [.int 1], false⟩).run
        memo.world).1.toOption.any fun found => found.1.any fun mapped =>
          mapped.all fun e => e.1.name != "text" || e.2.isNull) = true := by
    decide +kernel
  simp only [Option.any_eq_true] at computed
  obtain ⟨plan, planned, ⟨_, r⟩, ran, mapped, rfl, nulls⟩ := computed
  have reached : Reached (.declare memo.declaration) memo.world :=
    @Reached.after _ [] ⟨.fresh true, none, []⟩ memo.world rfl []
  have specialized := run_of_toOption planned
  have tabled : plan.table = .ofModel memo.world.next memo.cls memo.fields :=
    (Option.some.inj (specialize_table specialized)).symm
  have unset : ∀ p v, (p, v) ∈ mapped → p.name = "text" → v = .null := by
    intro p v inside name
    have null := List.all_eq_true.mp nulls (p, v) inside
    simpa [name, Value.isNull_iff] using null
  have keyed : KeyedAt memo.settings memo.fields memoText := by decide
  have union : memoText.type = .union .keyword [.cls (.builtin .text), .none] := by with_unfolding_all rfl
  have plural : memoText.type.Plural := union ▸ Nat.le_refl 2
  have known : (Schema.declare memo.declaration).find? memo.cls.name = some memo.cls := rfl
  obtain ⟨ks, same, read, _⟩ := unset_field_null reached specialized (.itself plan) known rfl tabled reached
    (run_of_toOption ran) (List.mem_cons_of_mem _ List.mem_cons_self) rfl keyed plural unset
  obtain ⟨here, _, holds⟩ := read (by rw [union]; rfl)
  refine ⟨?_, plan, mapped, r, _, ks, planned, run_of_toOption ran, same, here, holds⟩
  with_unfolding_all rfl

def stickerNote : FieldSpec := { name := "note", type := .cls (.builtin .any) }

def sticker : Lone :=
  ⟨"Sticker", [{ name := "id", type := .cls (.builtin .int) }, stickerNote], ⟨none, none, none⟩⟩

/-- The note of a sticker takes null, and yet is missing where no column sets it. -/
theorem admitted_null_missing :
    sticker.outcome ⟨["id"], [.int 1], false⟩ =
      some (.error (.modelMismatch "Sticker" [⟨[.key "note"], .missing⟩])) ∧
    KeyedAt sticker.settings sticker.fields stickerNote ∧
    ∀ ks, (Schema.declare sticker.declaration).takes sticker.settings ks stickerNote .null = .ok .null := by
  refine ⟨?_, by decide, fun ks => rfl⟩
  with_unfolding_all rfl

end RowMapping
