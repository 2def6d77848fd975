import RowMapping.Proofs.Mapper.Cycles
import RowMapping.Proofs.Mapper.Nullness
import RowMapping.Proofs.Mapper.Traced

/-! Which sub-objects there are. A plan has a nested plan for exactly those nested properties that a column
stands for at some depth, and every nested plan reads a column; a mapper that no column stands for is
refused, unless there are no columns at all. -/
namespace RowMapping.ReflectiveMapper

open MappingM

variable {chain : MatcherChain} {columns : List String} {lists : RawType → Property → Prop} {raw : RawType}
  {lead : String}

/-! ### What grounded plans read -/

theorem Grounded.stands {plan : Plan} (grounded : Grounded chain columns lists raw lead plan)
    (some : plan.entries ≠ []) : Stands chain columns lists raw lead := by
  induction plan using Plan.induct_nested generalizing raw lead with
  | step table es ih =>
  obtain ⟨each⟩ := grounded
  obtain ⟨e, member⟩ := List.exists_mem_of_ne_nil es some
  cases each e member with
  | column listed mappable plain accepted => exact .column listed mappable plain accepted
  | nested listed mappable own under inside below =>
    exact .nested listed mappable own under (ih _ _ member below inside)

theorem Grounded.reads {plan : Plan} (grounded : Grounded chain columns lists raw lead plan)
    (some : plan.entries ≠ []) : plan.positions ≠ [] := by
  induction plan using Plan.induct_nested generalizing raw lead with
  | step table es ih =>
  obtain ⟨each⟩ := grounded
  obtain ⟨e, member⟩ := List.exists_mem_of_ne_nil es some
  have own : e.2.positions ≠ [] := by
    cases each e member with
    | column => exact List.cons_ne_nil _ _
    | nested _ _ _ _ inside below => exact ih _ _ member below inside
  obtain ⟨i, read⟩ := List.exists_mem_of_ne_nil _ own
  exact List.ne_nil_of_mem (mem_entryPositions.mpr ⟨e, member, read⟩)

theorem Grounded.reads_contained {plan q : Plan} (grounded : Grounded chain columns lists raw lead plan)
    (some : plan.entries ≠ []) (inside : plan.Contains q) : q.positions ≠ [] := by
  induction inside generalizing raw lead with
  | itself => exact grounded.reads some
  | nested member _ ih =>
    obtain ⟨each⟩ := grounded
    cases each _ member with
    | nested _ _ _ _ within below => exact ih below within

/-! ### Exact plans -/

/-- The plan maps exactly those properties of the type that columns stand for under the lead, by their own
columns or by those of their sub-objects, and so do the plans nested in it. -/
inductive Exact (chain : MatcherChain) (columns : List String) (lists : RawType → Property → Prop) :
    RawType → String → Plan → Prop
  | mk {raw : RawType} {lead : String} {table : PropertyTable} {entries : List Entry} :
      (∀ p, (∃ mapper i, (p, .column mapper i) ∈ entries) ↔
        lists raw p ∧ p.unmappable = false ∧ p.nested = none ∧ Accepted chain columns (lead ++ p.columnName)) →
      (∀ p, (∃ q, (p, .nested q) ∈ entries) ↔ lists raw p ∧ p.unmappable = false ∧ ∃ nested,
        p.nested = some nested ∧ chain.anyUnder (lead ++ nested) columns = .ok true ∧
          Stands chain columns lists p.type.raw (Text.lower (lead ++ nested))) →
      (∀ p nested q, (p, .nested q) ∈ entries → p.nested = some nested →
        Exact chain columns lists p.type.raw (Text.lower (lead ++ nested)) q) →
      Exact chain columns lists raw lead (.mk table entries)

/-- What covers all properties that columns stand for, and is grounded in columns, is exact. -/
theorem Grounded.exact {plan : Plan} (grounded : Grounded chain columns lists raw lead plan)
    (covers : Covers chain columns lists raw lead plan) : Exact chain columns lists raw lead plan := by
  induction plan using Plan.induct_nested generalizing raw lead with
  | step table es ih =>
  obtain ⟨each⟩ := grounded
  obtain ⟨plain, sub, deeper⟩ := covers
  refine .mk (fun p => ⟨?_, ?_⟩) (fun p => ⟨?_, ?_⟩) fun p nested q member own => ?_
  · rintro ⟨mapper, i, member⟩
    cases each _ member with
    | column listed mappable none accepted => exact ⟨listed, mappable, none, accepted⟩
  · rintro ⟨listed, mappable, none, accepted⟩
    exact plain p listed mappable none accepted
  · rintro ⟨q, member⟩
    cases each _ member with
    | nested listed mappable own under inside below =>
      exact ⟨listed, mappable, _, own, under, below.stands inside⟩
  · rintro ⟨listed, mappable, nested, own, under, stands⟩
    exact sub p nested listed mappable own under stands
  · cases each _ member with
    | nested _ _ own' _ _ below =>
      cases own.symm.trans own'
      exact ih p q member below (deeper p nested q member own)

/-! ### Specialization -/

/-- Where column look-ups leave properties and settings as they are, and nothing else is refused: a mapper is
refused for lack of matching columns exactly if there are columns, and none of them stands for a property,
at any depth; and in a plan there are exactly the sub-objects that columns stand for, each of which reads one. -/
theorem sub_objects_exact {w : World} {depth : Nat} {c : Context} {I : World → Prop}
    (realm : FullRealm w.schema ((w.settings[c.settings]?).getD default) (Session.hooks depth) c (w.Lists c) I)
    (here : I w) {m : ReflectiveMapper} (lead : ∃ t, m.lead = Text.lower t) {columns : List String}
    {chain : MatcherChain} (chained : ((w.settings[c.settings]?).getD default).chain = chain)
    (clean : ∀ e, ((m.specialize (Session.hooks depth) c columns).run w).1 = .error e →
      ∃ t cs, e = .noMatchingColumns t cs) :
    ((∃ t cs, ((m.specialize (Session.hooks depth) c columns).run w).1 = .error (.noMatchingColumns t cs)) ↔
      columns ≠ [] ∧ ¬ Stands chain columns (w.Lists c) m.target m.lead) ∧
    ∀ plan, ((m.specialize (Session.hooks depth) c columns).run w).1 = .ok plan →
      Exact chain columns (w.Lists c) m.target m.lead plan ∧
        (columns ≠ [] → ∀ q, plan.Contains q → q.positions ≠ []) := by
  have admits : Admits (fun e => ∀ t cs, e = .noMatchingColumns t cs →
        columns ≠ [] ∧ ¬ Stands chain columns (w.Lists c) m.target m.lead) I
      (Session.hooks depth) c (fun _ => True) (fun _ => True) chain columns (w.Lists c) m :=
    { lacks := fun _ => nofun
      ambiguous := nofun
      unmapped := nofun
      unknown := nofun
      unmatched := fun some none _ _ _ _ _ => ⟨some, none⟩
      leftover := nofun
      column := fun key u kind => by
        refine ⟨realm.column key u kind, fun _ _ _ _ => trivial, fun e failed => ?_⟩
        rcases (refuses_findColumn depth c key u trivial).2.2 e failed with ⟨r, rfl⟩ | rfl | rfl
        · nofun
        · nofun
        · nofun
      raw := trivial
      table := fun _ _ _ _ _ _ _ => trivial
      obscure := fun _ _ _ _ _ _ => nofun
      again := fun _ _ _ _ => nofun
      outgrown := fun _ _ _ _ _ _ _ _ _ _ => nofun }
  obtain ⟨_, planned, fails⟩ := admits.specialize realm lead chained w here
  refine ⟨⟨?_, ?_⟩, fun plan found => ?_⟩
  · rintro ⟨t, cs, failed⟩
    exact fails _ failed t cs rfl
  · rintro ⟨some, none⟩
    cases result : ((m.specialize (Session.hooks depth) c columns).run w).1 with
    | error e =>
      obtain ⟨t, cs, rfl⟩ := clean e result
      exact ⟨t, cs, rfl⟩
    | ok plan =>
      obtain ⟨_, rooted⟩ := planned plan result
      exact absurd (rooted.grounded.stands fun empty => some (rooted.some empty)) none
  · obtain ⟨⟨covers, _⟩, rooted⟩ := planned plan found
    refine ⟨rooted.grounded.exact covers, fun some q inside => ?_⟩
    exact rooted.grounded.reads_contained (fun empty => some (rooted.some empty)) inside

/-! ### Chains of nodes -/

def linksWorld : World := (Session.start links [] ⟨.fresh true, none, []⟩).toOption.getD default

theorem links_started : Session.start links [] ⟨.fresh true, none, []⟩ = .ok linksWorld := rfl

/-- From a column of its own and one of the next, a node is mapped with the next one, and without the one after
that. From a column of neither it is refused. -/
theorem sub_objects_exact_links :
    (∃ plan, ((specialize (Session.hooks Session.depth) ⟨0, 0, 0⟩ ⟨0, node, ""⟩ ["id", "n_id"]).run
        linksWorld).1 = .ok plan ∧
      Exact standardChain ["id", "n_id"] (linksWorld.Lists ⟨0, 0, 0⟩) node "" plan ∧
      (∀ q, plan.Contains q → q.positions ≠ []) ∧ plan.positions = [0, 1]) ∧
    ((specialize (Session.hooks Session.depth) ⟨0, 0, 0⟩ ⟨0, node, ""⟩ ["weight"]).run linksWorld).1 =
      .error (.noMatchingColumns "Node" ["weight"]) ∧
    ¬ Stands standardChain ["weight"] (linksWorld.Lists ⟨0, 0, 0⟩) node "" := by
  have owned : linksWorld.registries[0]? = some ((linksWorld.registries[0]?).getD default) := rfl
  have library : ∀ f ∈ ((linksWorld.registries[0]?).getD default).columns.factories, f.Library := by
    decide +kernel
  have reached : Reached links linksWorld := Reached.after (congrArg Except.toOption links_started) []
  have realm := full_level (w := linksWorld) (c := ⟨0, 0, 0⟩) library (Session.hooks Session.depth)
  have here := World.level_of_reached (c := ⟨0, 0, 0⟩) reached owned library
  have chained : ((linksWorld.settings[0]?).getD default).chain = standardChain := rfl
  constructor
  · have computed : (((specialize (Session.hooks Session.depth) ⟨0, 0, 0⟩ ⟨0, node, ""⟩ ["id", "n_id"]).run
        linksWorld).1.toOption.any fun plan => plan.positions = [0, 1]) = true := by decide +kernel
    rw [Option.any_eq_true] at computed
    obtain ⟨plan, found, positions⟩ := computed
    have returned := congrArg Prod.fst (run_of_toOption found)
    have told := sub_objects_exact realm here (m := ⟨0, node, ""⟩) ⟨"", rfl⟩ chained
      (fun e failed => nomatch returned.symm.trans failed)
    obtain ⟨precise, reads⟩ := told.2 plan returned
    exact ⟨plan, returned, precise, reads (List.cons_ne_nil _ _), of_decide_eq_true positions⟩
  · have refused : ((specialize (Session.hooks Session.depth) ⟨0, 0, 0⟩ ⟨0, node, ""⟩ ["weight"]).run
        linksWorld).1 = .error (.noMatchingColumns "Node" ["weight"]) := rfl
    have told := sub_objects_exact realm here (m := ⟨0, node, ""⟩) ⟨"", rfl⟩ chained
      (fun e failed => ⟨_, _, Except.error.inj (failed.symm.trans refused)⟩)
    exact ⟨refused, (told.1.mp ⟨_, _, refused⟩).2⟩

end RowMapping.ReflectiveMapper
