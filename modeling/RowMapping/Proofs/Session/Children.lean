import RowMapping.Proofs.Mapper.Tidy
import RowMapping.Proofs.Mapper.Traced
import RowMapping.Proofs.Mapper.Trails
import RowMapping.Proofs.Session.Isolation

/-! Child mappers. A mapper keeps the mappers that it makes for its nested properties, one for all that are
alike, in whatever contexts it is used. What is kept maps to the same type under the same lead as a new one
would, and no property of it is kept with it; so a mapper that has been used is specialized as a new one. -/
namespace RowMapping

open MappingM ReflectiveMapper

/-- Child mappers have come or gone, and numbers been given out. -/
structure World.Fosters (w v : World) : Prop where
  rest : v = { w with children := v.children, next := v.next }
  next : w.next ≤ v.next

theorem World.Fosters.refl (w : World) : w.Fosters w := ⟨rfl, le_rfl⟩

theorem mapper_made {type : TypeExpr} {lead : String} {m : ReflectiveMapper} {w v : World}
    (made : (Session.reflectiveMapper type lead).run w = (.ok m, v)) :
    m.target = (Descriptor.of type).raw ∧ m.lead = Text.lower lead ∧ w.Fosters v := by
  cases made
  exact ⟨rfl, rfl, rfl, Nat.le_succ _⟩

/-- The worlds that `R` relates are alike for planning in the context, but for the numbers from `n` on and for
all child mappers: settings are the same, tables and column look-ups are twins, and classes have such tables as
`tables` says. The factories that are asked do not tell such worlds apart either, whatever they do. -/
structure Unaware (R : World → World → Prop) (n : Nat) (h : Hooks) (c : Context)
    (tables : ClassRef → PropertyTable → Prop) : Prop where
  schema : ∀ w v, R w v → w.schema = v.schema
  fosters : ∀ {w v w' v'}, R w v → w.Fosters w' → v.Fosters v' → R w' v'
  log : ∀ level logger text, Together .strict R (fun _ _ => True) (log level logger text) (log level logger text)
  settings : Together .strict R (· = ·) (settings c) (settings c)
  table : ∀ raw, Together .strict R
    (fun o p => FoundTwins n o p ∧ ∀ t ∈ o, ∃ cls, raw.class? = some cls ∧ tables cls t) (table? c raw) (table? c raw)
  column : ∀ key, Together .strict R (FoundTwins n) (Registry.findColumn h c key) (Registry.findColumn h c key)

def Listing (tables : ClassRef → PropertyTable → Prop) (raw : RawType) (p : Property) : Prop :=
  ∃ cls t, raw.class? = some cls ∧ tables cls t ∧ p ∈ t.properties

/-- Nested properties have classes for types, those of the type and those of all types that they lead to. -/
def NestsClasses (lists : RawType → Property → Prop) (target : RawType) : Prop :=
  ∀ t p, Reaches lists target t → lists t p → p.unmappable = false → p.nested.isSome → p.type.raw.class?.isSome

/-- Mappers of one type under one lead, which the nested properties of a type lead to, correspond. -/
def Kinship.alike (n : Nat) (lists : RawType → Property → Prop) (target : RawType) : Kinship where
  bound := n
  kin m m' := m.target = m'.target ∧ m.lead = m'.lead ∧ Reaches lists target m.target
  listed := lists
  good _ := True

section Unaware

variable {R : World → World → Prop} {n : Nat} {h : Hooks} {c : Context} {tables : ClassRef → PropertyTable → Prop}
  (unaware : Unaware R n h c tables)
include unaware

theorem Unaware.child {target : RawType} (nests : NestsClasses (Listing tables) target) {m m' : ReflectiveMapper}
    (kin : (Kinship.alike n (Listing tables) target).kin m m') {p : Property} (listed : Listing tables m.target p)
    (mappable : p.unmappable = false) (nested : p.nested.isSome) :
    Together .strict R (Kinship.alike n (Listing tables) target).kin (child m p) (child m' p) := by
  obtain ⟨_, lead, reached⟩ := kin
  have named := nests _ p reached listed mappable nested
  have known : ∀ q : Property, q = p ∨ q.same p = true → q.type.raw = p.type.raw := by
    intro q one
    rcases property_class one with raw | ⟨_, unnamed⟩
    · exact raw
    · rw [unnamed] at named
      contradiction
  intro w v related
  obtain ⟨s, q, w', ranW, mine, restW, nextW⟩ := run_child m p w
  obtain ⟨t, r, v', ranV, other, restV, nextV⟩ := run_child m' p v
  rw [ranW, ranV, known q mine, known r other, lead]
  exact .inr ⟨⟨rfl, rfl, reached.nested listed mappable nested⟩,
    unaware.fosters related ⟨restW, nextW⟩ ⟨restV, nextV⟩⟩

theorem Unaware.parallel {target : RawType} (nests : NestsClasses (Listing tables) target) :
    Parallel .strict R (.alike n (Listing tables) target) h h c c where
  schema := unaware.schema
  log := unaware.log
  settings := unaware.settings
  table raw := by
    refine (unaware.table raw).mono fun _ _ found => ⟨found.1, fun t own p member => ?_⟩
    obtain ⟨cls, named, table⟩ := found.2 t own
    exact ⟨cls, t, named, table, member⟩
  column key := (unaware.column key).mono fun _ _ twins => ⟨twins, fun _ _ => trivial⟩
  child _ _ _ kin listed mappable nested := unaware.child nests kin listed mappable nested
  kin _ _ kin := .inl ⟨kin.1, kin.2.1⟩
  raw := trivial

omit unaware in
/-- A computation that is run beside itself yields what it returns on both sides. -/
theorem Together.yields {α : Type} {S : α → α → Prop} {x : MappingM α} (together : Together .strict R S x x) :
    Yields (fun w => R w w) (fun a => S a a) x := by
  intro w here
  obtain ⟨outcomes, after⟩ := together.related here
  refine ⟨after, fun a returned => ?_⟩
  rw [returned] at outcomes
  exact outcomes

theorem Unaware.lays : Lays (fun w => R w w) h c tables where
  log level logger text := (unaware.log level logger text).yields.mono fun _ _ => trivial
  table raw := (unaware.table raw).yields.mono fun _ found => found.2
  column key := (unaware.column key).yields.mono fun _ _ => trivial
  child m p w here := by
    obtain ⟨_, _, v, ran, _, rest, next⟩ := run_child m p w
    rw [ran]
    exact ⟨unaware.fosters here ⟨rest, next⟩ ⟨rest, next⟩, fun _ _ => trivial⟩

/-- Whatever has been done with a mapper, and whatever has been registered and configured, by commands that may
have failed: in every context whose factories are unaware of child mappers it is specialized, for every list of
columns, to the same plan as a mapper that is made anew for its type and lead, or refused with the same failure.
Its plan has the table that its class has now, and the plans in it have tables that their classes have. -/
theorem used_specialized_as_new {type : TypeExpr} {lead : String} {m m' : ReflectiveMapper}
    (target : m.target = (Descriptor.of type).raw) (small : m.lead = Text.lower lead) {u w : World}
    {history : List Command}
    (new : (Session.reflectiveMapper type lead).run (Session.after history u) = (.ok m', w))
    (here : R (Session.after history u) (Session.after history u)) (nests : NestsClasses (Listing tables) m.target)
    (columns : List String) :
    Outcomes (Twins n) ((m.specialize h c columns).run (Session.after history u)).1
        ((m'.specialize h c columns).run w).1 ∧
      ∀ plan, ((m.specialize h c columns).run (Session.after history u)).1 = .ok plan →
        m.target.class?.bind ((Session.after history u).tableFor c) = some plan.table ∧
          plan.LaidFor tables m.target := by
  obtain ⟨target', small', fosters⟩ := mapper_made new
  have related := unaware.fosters here (.refl _) fosters
  have kin : (Kinship.alike n (Listing tables) m.target).kin m m' :=
    ⟨target.trans target'.symm, small.trans small'.symm, .refl⟩
  have specialized := (unaware.parallel nests).specialize kin columns
  refine ⟨(specialized.related related).1.mono fun _ _ both => both.1, fun plan made => ⟨?_, ?_⟩⟩
  · exact specialize_table (Prod.ext made rfl)
  · exact (unaware.lays.specialize m columns _ here).2 plan made

end Unaware

/-! ### Quiet contexts -/

/-- Factories that keep no state and run no commands are unaware of child mappers. -/
theorem unaware_locked (c : Context) (a b : World) (depth : Nat) :
    Unaware (World.Lockstep c c a b) 0 (Session.hooks depth) c fun _ t => t.NestsClasses where
  schema _ _ lockstep := lockstep.inStep.schema
  fosters lockstep first second := by
    refine lockstep.unmoved ?_ ?_
    · rw [first.rest]
      exact ⟨rfl, rfl, rfl, rfl, rfl⟩
    · rw [second.rest]
      exact ⟨rfl, rfl, rfl, rfl, rfl⟩
  log _ _ _ := locked_record _ _
  settings := locked_settings
  table raw w v lockstep := by
    have found := (locked_table raw).related lockstep
    obtain ⟨_, ranW, _⟩ := run_table_for c raw w
    obtain ⟨_, ranV, _⟩ := run_table_for c raw v
    rw [ranW, ranV] at found ⊢
    obtain ⟨outcomes, after⟩ := found
    refine .inr ⟨?_, after⟩
    cases first : w.consult c raw <;> cases second : v.consult c raw <;> rw [first, second] at outcomes
    · exact outcomes
    · contradiction
    · contradiction
    · refine ⟨outcomes.1, fun t known => ?_⟩
      obtain rfl := known
      obtain ⟨cls, named, _⟩ := Option.bind_eq_some_iff.mp (World.consult_some first)
      exact ⟨cls, named, outcomes.2 t rfl⟩
  column key := (locked_findColumnAs (locked_hooks depth).1 key key.nullable).mono fun _ _ found => found.1

/-- A quiet context is unaware of child mappers as it is, and nested properties have classes for types there. -/
theorem World.Quiet.unaware {w : World} {c : Context} (quiet : w.Quiet c) (depth : Nat) :
    ∃ R tables, R w w ∧ Unaware R 0 (Session.hooks depth) c tables ∧
      ∀ target, NestsClasses (Listing tables) target := by
  refine ⟨_, _, ⟨World.quiet_iff.mp quiet, .refl c w, .refl c w⟩, unaware_locked c w w depth, ?_⟩
  rintro target _ p _ ⟨_, t, _, nests, member⟩ _ nested
  exact nests p member nested

/-! ### Built-in column factories -/

theorem unaware_level {w : World} {c : Context} {fs : List ColumnFactory} (library : ∀ f ∈ fs, f.Library) (h : Hooks) :
    Unaware (w.BothLevel c fs) 0 h c fun cls t => FoundTwins 0 (w.tableFor c cls) (some t) where
  schema _ _ levels := levels.1.schema.trans levels.2.schema.symm
  fosters levels first second := by
    refine ⟨levels.1.aside ?_ ?_ ?_ ?_, levels.2.aside ?_ ?_ ?_ ?_⟩
    · rw [first.rest]
    · rw [first.rest]
    · rw [first.rest]
    · rw [first.rest]
    · rw [second.rest]
    · rw [second.rest]
    · rw [second.rest]
    · rw [second.rest]
  log := levels_log
  settings := levels_settings
  table := levels_table
  column key := (levels_findColumn library h key).mono fun _ _ found => found.1

theorem nestsClasses_present {w : World} {c : Context} (nests : ∀ cls t, w.tableFor c cls = some t → t.NestsClasses)
    (target : RawType) : NestsClasses (Listing fun cls t => FoundTwins 0 (w.tableFor c cls) (some t)) target := by
  rintro _ p _ ⟨cls, t, _, twins, member⟩ _ nested
  rcases twins.cases with ⟨_, never⟩ | ⟨a, b, known, same, twins⟩
  · contradiction
  · cases same
    rw [← PropertyTable.twins_properties twins] at member
    exact nests cls a known p member nested

/-! ### Residents -/

def RowMapper.reflective? : RowMapper → Option ReflectiveMapper
  | .reflective m => some m
  | _ => none

def townFields : List FieldSpec := [{ name := "zip", type := .cls (.builtin .int) }]

def districtFields : List FieldSpec :=
  [{ name := "town", type := .marked (.cls (.declared "Town")) [.nested "town_"] }]

def residentFields : List FieldSpec :=
  [{ name := "id", type := .cls (.builtin .int) },
    { name := "district", type := .marked (.cls (.declared "District")) [.nested "district_"] }]

def residents : Schema := .declare
  [⟨"Town", [], none, .record townFields none⟩, ⟨"District", [], none, .record districtFields none⟩,
    ⟨"Resident", [], none, .record residentFields none⟩]

def resident : TypeExpr := .cls (.declared "Resident")

def residentsWorld : World := (Session.start residents [] ⟨.fresh true, none, []⟩).toOption.getD default

def postal : RowSpec := .entries [("id", .int 1), ("district_town_code", .int 2)]

/-- A mapper of residents is used, with and without success. Then towns get another property, two levels below,
and the mapper is used again. -/
def moves : List Command :=
  [.reflectiveMapper (some "kept") resident "",
    .mapSaved "main" "kept" (.entries [("id", .int 1), ("district_town_zip", .int 2)]),
    .configure "main" [.strictMatching (.bool true)] [],
    .specializeSaved "main" "kept" postal none,
    .registerProperties "main" (.cls (.declared "Town")) [⟨"code", .cls (.builtin .int), []⟩] (some .mapping) none,
    .specializeSaved "main" "kept" postal none]

def movedWorld : World := Session.after moves residentsWorld

theorem residents_started : Session.start residents [] ⟨.fresh true, none, []⟩ = .ok residentsWorld := rfl

theorem moved_level :
    ∃ fs : List ColumnFactory, (∀ f ∈ fs, f.Library) ∧ movedWorld.Level ⟨0, 0, 0⟩ fs movedWorld := by
  have present : 0 < movedWorld.registries.length := by decide +kernel
  have library : ∀ r ∈ movedWorld.registries, ∀ f ∈ r.columns.factories, f.Library := by decide +kernel
  have reached : Reached residents movedWorld := .after (congrArg Except.toOption residents_started) moves
  have own := library _ (List.getElem_mem present)
  exact ⟨_, own, World.level_of_reached reached (List.getElem?_eq_getElem present) own⟩

theorem moved_nests (cls : ClassRef) (t : PropertyTable) (found : movedWorld.tableFor ⟨0, 0, 0⟩ cls = some t) :
    t.NestsClasses := by
  have stored : ∀ store ∈ movedWorld.tables, ∀ e ∈ store.declared ++ store.derived, ∀ p ∈ e.2.properties,
      p.nested.isSome → p.type.raw.class?.isSome := by decide +kernel
  have own : ∀ cls ∈ movedWorld.schema.classes, ∀ t ∈ PropertyTable.ofClass? movedWorld.next cls,
      ∀ p ∈ t.properties, p.nested.isSome → p.type.raw.class?.isSome := by decide +kernel
  rcases World.made_of_tableFor found with ⟨store, member, e, kept, rfl⟩ | ⟨cls, listed, made⟩
  · exact stored store member e kept
  · exact own cls listed t made

/-- The mapper that has children from before is specialized as a new one, to a plan that reads the new property
of towns. -/
theorem used_specialized_as_new_residents :
    (Session.transcript moves residentsWorld).map (·.2.toOption.isNone) = [false, false, false, true, false, false] ∧
      movedWorld.children.length = 2 ∧
      ∃ m m' w plan, ((saved "kept").run movedWorld).1.toOption.bind (·.reflective?) = some m ∧
        (Session.reflectiveMapper resident "").run movedWorld = (.ok m', w) ∧
        ((m.specialize (Session.hooks Session.depth) ⟨0, 0, 0⟩ ["id", "district_town_code"]).run movedWorld).1 =
          .ok plan ∧ plan.positions = [0, 1] ∧
        plan.LaidFor (fun cls t => FoundTwins 0 (movedWorld.tableFor ⟨0, 0, 0⟩ cls) (some t)) m.target ∧
        Outcomes (Twins 0)
          ((m.specialize (Session.hooks Session.depth) ⟨0, 0, 0⟩ ["id", "district_town_code"]).run movedWorld).1
          ((m'.specialize (Session.hooks Session.depth) ⟨0, 0, 0⟩ ["id", "district_town_code"]).run w).1 := by
  -- For any history, so that nothing evaluates this one.
  have applied : ∀ {history : List Command} {u v : World} {fs : List ColumnFactory}, Session.after history u = v →
      (∀ f ∈ fs, f.Library) → v.Level ⟨0, 0, 0⟩ fs v → (∀ cls t, v.tableFor ⟨0, 0, 0⟩ cls = some t → t.NestsClasses) →
      ∀ m : ReflectiveMapper, m.target = (Descriptor.of resident).raw → m.lead = Text.lower "" → ∀ {m' w},
        (Session.reflectiveMapper resident "").run v = (.ok m', w) → ∀ columns,
          Outcomes (Twins 0) ((m.specialize (Session.hooks Session.depth) ⟨0, 0, 0⟩ columns).run v).1
              ((m'.specialize (Session.hooks Session.depth) ⟨0, 0, 0⟩ columns).run w).1 ∧
            ∀ plan, ((m.specialize (Session.hooks Session.depth) ⟨0, 0, 0⟩ columns).run v).1 = .ok plan →
              plan.LaidFor (fun cls t => FoundTwins 0 (v.tableFor ⟨0, 0, 0⟩ cls) (some t)) m.target := by
    rintro _ _ v _ rfl library level nests m target small m' w made columns
    have told := used_specialized_as_new (unaware_level library (Session.hooks Session.depth)) target small made
      ⟨level, level⟩ (nestsClasses_present nests _) columns
    exact ⟨told.1, fun plan planned => (told.2 plan planned).2⟩
  have computed : (((saved "kept").run movedWorld).1.toOption.bind (·.reflective?)).any (fun m =>
      m.target.same (.cls (.declared "Resident")) && m.lead == "" &&
        ((m.specialize (Session.hooks Session.depth) ⟨0, 0, 0⟩ ["id", "district_town_code"]).run
          movedWorld).1.toOption.any fun plan => plan.positions = [0, 1]) = true := by decide +kernel
  obtain ⟨fs, library, level⟩ := moved_level
  have nests := moved_nests
  refine ⟨by decide +kernel, by decide +kernel, ?_⟩
  unfold movedWorld at level nests computed ⊢
  generalize moved : Session.after moves residentsWorld = v at level nests computed ⊢
  simp only [Option.any_eq_true, Bool.and_eq_true, beq_iff_eq, decide_eq_true_eq] at computed
  obtain ⟨m, kept, ⟨target, small⟩, plan, planned, positions⟩ := computed
  replace small : m.lead = Text.lower "" := small
  have raw : m.target = (Descriptor.of resident).raw := by
    rcases RawType.same_class target with ⟨same, _⟩ | ⟨_, never⟩
    · exact same
    · cases never
  obtain ⟨m', w, made⟩ : ∃ m' w, (Session.reflectiveMapper resident "").run v = (.ok m', w) := ⟨_, _, rfl⟩
  have returned := congrArg Prod.fst (run_of_toOption planned)
  obtain ⟨alike, laid⟩ := applied moved library level nests m raw small made ["id", "district_town_code"]
  exact ⟨m, m', w, plan, kept, made, returned, positions, laid plan returned, alike⟩

end RowMapping
