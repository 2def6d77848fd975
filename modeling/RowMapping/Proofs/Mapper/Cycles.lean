import RowMapping.Proofs.Mapper.Planned
import RowMapping.Proofs.Registry.Refusals

/-! When a nested mapping is refused as one without end. In types that do not come back to themselves it is
refused only under a lead that has more characters than any column, though columns are accepted under it;
otherwise sub-objects are mapped. -/
namespace RowMapping.ReflectiveMapper

open MappingM

/-! ### Realms of all properties -/

section Realms

variable {w u : World} {c : Context} {h : Hooks}

theorem listed_full {n : Nat} (tabled : w.Tabled n c c u) {raw : RawType} {p : Property}
    (listed : w.Lists c raw p) : ∃ t, ((table? c raw).run u).1 = .ok (some t) ∧ p ∈ t.properties := by
  obtain ⟨t, known, member⟩ := listed
  obtain ⟨cls, named, first⟩ := Option.bind_eq_some_iff.mp known
  obtain ⟨v, ran, _⟩ := run_table_for c raw u
  rcases (tabled cls).cases with ⟨missing, _⟩ | ⟨x, y, had, now, twins⟩
  · rw [missing] at first
    contradiction
  · cases had.symm.trans first
    refine ⟨y, ?_, PropertyTable.twins_properties twins ▸ member⟩
    rw [ran]
    exact World.consult_of_tableFor (by rw [named, Option.bind_some, now])

theorem full_level {fs : List ColumnFactory} (library : ∀ f ∈ fs, f.Library) (h : Hooks) :
    FullRealm w.schema ((w.settings[c.settings]?).getD default) h c (w.Lists c) (w.Level c fs) where
  toRealm := realm_level library h
  full _ _ _ here listed := listed_full here.tabled listed
  settings u here := by rw [here.settings]

end Realms

/-! ### Types without cycles -/

/-- No type that nested properties lead to leads back to itself. -/
def Acyclic (lists : RawType → Property → Prop) (raw : RawType) : Prop :=
  ∀ t p, Reaches lists raw t → lists t p → p.unmappable = false → p.nested.isSome →
    ¬ Reaches lists p.type.raw t

/-- Planning comes to a nested property that columns lie under, whose lead is longer than all of them. -/
def Outgrows (chain : MatcherChain) (columns : List String) (lists : RawType → Property → Prop)
    (m : ReflectiveMapper) (lead : String) : Prop :=
  ∃ k trail p nested, Entered chain columns lists m k trail ∧ lists k.target p ∧ p.unmappable = false ∧
    p.nested = some nested ∧ lead = k.lead ++ nested ∧ chain.anyUnder lead columns = .ok true ∧
      outgrown lead columns = true

section Acyclic

variable {chain : MatcherChain} {columns : List String} {lists : RawType → Property → Prop}
  {m k : ReflectiveMapper} {trail : Trail}

theorem Entered.leads (classes : ∀ raw p, lists raw p → raw.class?.isSome)
    (entered : Entered chain columns lists m k trail) (named : k.target.class?.isSome) :
    ∀ e ∈ trail, ∃ p, lists e.1 p ∧ p.unmappable = false ∧ p.nested.isSome ∧
      Reaches lists p.type.raw k.target := by
  induction entered with
  | start => nofun
  | @nested k k' trail p nested entered _ enters ih =>
    have target : k'.target = p.type.raw := by
      rcases enters.target with same | ⟨unnamed, _⟩
      · exact same
      · rw [unnamed] at named
        contradiction
    have some : p.nested.isSome := by rw [enters.own]; rfl
    intro e member
    rcases List.mem_cons.mp member with rfl | earlier
    · exact ⟨p, enters.listed, enters.mappable, some, target ▸ .refl⟩
    · obtain ⟨q, listed, mappable, nests, reaches⟩ := ih (classes _ _ enters.listed) e earlier
      exact ⟨q, listed, mappable, nests, target ▸ reaches.nested enters.listed enters.mappable some⟩

theorem Acyclic.fresh (acyclic : Acyclic lists m.target)
    (classes : ∀ raw p, lists raw p → raw.class?.isSome) (entered : Entered chain columns lists m k trail) :
    onTrail trail k = false := by
  refine eq_false_of_ne_true fun again => ?_
  obtain ⟨e, member, found⟩ := List.any_eq_true.mp again
  rw [Bool.and_eq_true] at found
  obtain ⟨reached, p, listed⟩ := (entered.reaches classes).2 e member
  rcases RawType.same_class found.1 with ⟨same, named⟩ | ⟨unnamed, _⟩
  · obtain ⟨q, listed', mappable, nests, back⟩ := entered.leads classes (same ▸ named) e member
    exact acyclic e.1 q reached listed' mappable nests (same ▸ back)
  · have named := classes _ p listed
    rw [unnamed] at named
    contradiction

end Acyclic

/-- Where no type leads back to itself, specialization refuses a nested property as one without end only if
planning comes to a lead longer than every column that some column lies under all the same. And in every
plan that it comes to, all properties are mapped that columns stand for, sub-objects with theirs. -/
theorem acyclic_mapped {w : World} {depth : Nat} {c : Context} {I : World → Prop}
    (realm : FullRealm w.schema ((w.settings[c.settings]?).getD default) (Session.hooks depth) c (w.Lists c) I)
    (here : I w) {m : ReflectiveMapper} (lead : ∃ t, m.lead = Text.lower t)
    (acyclic : Acyclic (w.Lists c) m.target) (columns : List String) {chain : MatcherChain}
    (chained : ((w.settings[c.settings]?).getD default).chain = chain) :
    (∀ n l, ((m.specialize (Session.hooks depth) c columns).run w).1 = .error (.nestedCycle n l) →
      Outgrows chain columns (w.Lists c) m l) ∧
    ∀ q, ((m.specialize (Session.hooks depth) c columns).run w).1 = .ok q →
      Covers chain columns (w.Lists c) m.target m.lead q := by
  have admits : Admits (fun e => ∀ n l, e = .nestedCycle n l → Outgrows chain columns (w.Lists c) m l) I
      (Session.hooks depth) c (fun _ => True) (fun _ => True) chain columns (w.Lists c) m :=
    { lacks := fun _ => nofun
      ambiguous := nofun
      unmapped := nofun
      unknown := nofun
      unmatched := fun _ _ _ _ => nofun
      leftover := nofun
      column := fun key u kind => by
        refine ⟨realm.column key u kind, fun _ _ _ _ => trivial, fun e failed => ?_⟩
        rcases (refuses_findColumn depth c key u trivial).2.2 e failed with ⟨r, rfl⟩ | rfl | rfl
        · nofun
        · nofun
        · nofun
      raw := trivial
      table := fun _ _ _ _ _ _ _ => trivial
      obscure := fun _ _ _ _ _ _ => nofun
      again := fun k trail entered again => by
        rw [acyclic.fresh realm.named entered] at again
        contradiction
      outgrown := by
        rintro k trail p nested entered listed mappable own under long n _ _ ⟨⟩
        exact ⟨k, trail, p, nested, entered, listed, mappable, own, rfl, under, long⟩ }
  obtain ⟨_, covers, fails⟩ := admits.specialize realm lead chained w here
  exact ⟨fun n l failed => fails _ failed n l rfl, fun q planned => (covers q planned).1.1⟩

/-! ### An address in an object -/

def homes : Schema := .declare
  [⟨"Inner", [], none, .record [{ name := "x", type := .cls (.builtin .text) }] none⟩,
    ⟨"Outer", [], none, .record
      [{ name := "home", type := .marked (.cls (.declared "Inner")) [.nested "home_address_"] }] none⟩]

def homesWorld : World := (Session.start homes [] ⟨.fresh true, none, []⟩).toOption.getD default

def outer : ReflectiveMapper := ⟨0, .cls (.declared "Outer"), ""⟩

theorem homes_started : Session.start homes [] ⟨.fresh true, none, []⟩ = .ok homesWorld := rfl

theorem homes_realm :
    FullRealm homesWorld.schema ((homesWorld.settings[0]?).getD default) (Session.hooks Session.depth) ⟨0, 0, 0⟩
      (homesWorld.Lists ⟨0, 0, 0⟩)
      (homesWorld.Level ⟨0, 0, 0⟩ ((homesWorld.registries[0]?).getD default).columns.factories) ∧
      homesWorld.Level ⟨0, 0, 0⟩ ((homesWorld.registries[0]?).getD default).columns.factories homesWorld := by
  have owned : homesWorld.registries[0]? = some ((homesWorld.registries[0]?).getD default) := rfl
  have library : ∀ f ∈ ((homesWorld.registries[0]?).getD default).columns.factories, f.Library := by
    decide +kernel
  have reached : Reached homes homesWorld := Reached.after (congrArg Except.toOption homes_started) []
  have realm := full_level (w := homesWorld) (c := ⟨0, 0, 0⟩) library (Session.hooks Session.depth)
  exact ⟨realm, World.level_of_reached reached owned library⟩

theorem homes_acyclic : Acyclic (homesWorld.Lists ⟨0, 0, 0⟩) outer.target := by
  have outers : ((homesWorld.tableFor ⟨0, 0, 0⟩ (.declared "Outer")).all fun t =>
      t.properties.all fun p => p.type.raw.same (.cls (.declared "Inner"))) = true := by decide +kernel
  have inners : ((homesWorld.tableFor ⟨0, 0, 0⟩ (.declared "Inner")).all fun t =>
      t.properties.all fun p => p.nested.isNone) = true := by decide +kernel
  have leaf : ∀ p, homesWorld.Lists ⟨0, 0, 0⟩ (.cls (.declared "Inner")) p → p.nested = none :=
    fun p listed => Option.isNone_iff_eq_none.mp (listed.of_table inners)
  have inner : ∀ p, homesWorld.Lists ⟨0, 0, 0⟩ outer.target p → p.type.raw = .cls (.declared "Inner") := by
    intro p listed
    rcases RawType.same_class (listed.of_table outers) with ⟨same, _⟩ | ⟨_, never⟩
    · exact same
    · contradiction
  -- What can be reached from a sub-object is the sub-object.
  have closed : ∀ t, Reaches (homesWorld.Lists ⟨0, 0, 0⟩) (.cls (.declared "Inner")) t →
      t = .cls (.declared "Inner") := by
    intro t reaches
    induction reaches with
    | refl => rfl
    | nested _ listed _ nested ih =>
      rw [leaf _ (ih ▸ listed)] at nested
      contradiction
  have known : ∀ t, Reaches (homesWorld.Lists ⟨0, 0, 0⟩) outer.target t →
      t = outer.target ∨ t = .cls (.declared "Inner") := by
    intro t reaches
    induction reaches with
    | refl => exact .inl rfl
    | nested _ listed _ nested ih =>
      rcases ih with rfl | rfl
      · exact .inr (inner _ listed)
      · rw [leaf _ listed] at nested
        contradiction
  intro t p reached listed _ nested back
  rcases known t reached with rfl | rfl
  · have never := closed _ (inner p listed ▸ back)
    simp [outer] at never
  · rw [leaf p listed] at nested
    contradiction

/-- With its underscores in the column, the sub-object is mapped. -/
theorem acyclic_mapped_home : ∃ q,
    ((outer.specialize (Session.hooks Session.depth) ⟨0, 0, 0⟩ ["home_address_x"]).run homesWorld).1 = .ok q ∧
      Covers standardChain ["home_address_x"] (homesWorld.Lists ⟨0, 0, 0⟩) outer.target "" q := by
  have specialized : ((outer.specialize (Session.hooks Session.depth) ⟨0, 0, 0⟩ ["home_address_x"]).run
      homesWorld).1.toOption.isSome = true := by decide +kernel
  obtain ⟨q, found⟩ := Option.isSome_iff_exists.mp specialized
  have returned := congrArg Prod.fst (run_of_toOption found)
  have chained : ((homesWorld.settings[0]?).getD default).chain = standardChain := rfl
  have mapped := acyclic_mapped homes_realm.1 homes_realm.2 (m := outer) ⟨"", rfl⟩ homes_acyclic
    ["home_address_x"] chained
  exact ⟨q, returned, mapped.2 q returned⟩

/-- A lead may be longer than every column by its underscores alone, which the matchers pass over. Then a
sub-object is refused as one without end, though its type nests nothing and its column is accepted. -/
theorem home_refused : Acyclic (homesWorld.Lists ⟨0, 0, 0⟩) outer.target ∧
    ((homesWorld.settings[0]?).getD default).chain = standardChain ∧
    standardChain.accepts "homeaddressx" "home_address_x" = .ok true ∧
    ((outer.specialize (Session.hooks Session.depth) ⟨0, 0, 0⟩ ["homeaddressx"]).run homesWorld).1 =
      .error (.nestedCycle "Inner" "home_address_") :=
  ⟨homes_acyclic, rfl, rfl, rfl⟩

end RowMapping.ReflectiveMapper
