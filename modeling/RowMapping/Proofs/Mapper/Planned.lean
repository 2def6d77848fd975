import RowMapping.Proofs.Column.Searched
import RowMapping.Proofs.Mapper.Plans
import RowMapping.Proofs.Mapper.Trails
import RowMapping.Proofs.Session.Comes

/-! What planning comes to. A plan has an entry for every property that a column stands for, its own or
through the properties nested in it, and no other; and planning fails for few reasons. -/
namespace RowMapping.ReflectiveMapper

open MappingM

def Accepted (chain : MatcherChain) (columns : List String) (name : String) : Prop :=
  ∃ c ∈ columns, chain.accepts c name = .ok true

/-- A column stands for a property of the type under a lead, or of a type nested in it. -/
inductive Stands (chain : MatcherChain) (columns : List String) (lists : RawType → Property → Prop) :
    RawType → String → Prop
  | column {raw : RawType} {lead : String} {p : Property} : lists raw p → p.unmappable = false →
      p.nested = none → Accepted chain columns (lead ++ p.columnName) → Stands chain columns lists raw lead
  | nested {raw : RawType} {lead nested : String} {p : Property} : lists raw p → p.unmappable = false →
      p.nested = some nested → chain.anyUnder (lead ++ nested) columns = .ok true →
      Stands chain columns lists p.type.raw (Text.lower (lead ++ nested)) → Stands chain columns lists raw lead

/-- The plan reads all properties of the type that columns stand for under the lead, and so do the plans
nested in it. -/
inductive Covers (chain : MatcherChain) (columns : List String) (lists : RawType → Property → Prop) :
    RawType → String → Plan → Prop
  | mk {raw : RawType} {lead : String} {table : PropertyTable} {entries : List Entry} :
      (∀ p, lists raw p → p.unmappable = false → p.nested = none →
        Accepted chain columns (lead ++ p.columnName) → ∃ mapper i, (p, .column mapper i) ∈ entries) →
      (∀ p nested, lists raw p → p.unmappable = false → p.nested = some nested →
        chain.anyUnder (lead ++ nested) columns = .ok true →
        Stands chain columns lists p.type.raw (Text.lower (lead ++ nested)) →
          ∃ q, (p, .nested q) ∈ entries) →
      (∀ p nested q, (p, .nested q) ∈ entries → p.nested = some nested →
        Covers chain columns lists p.type.raw (Text.lower (lead ++ nested)) q) →
      Covers chain columns lists raw lead (.mk table entries)

theorem Covers.of_unlisted {chain : MatcherChain} {columns : List String}
    {lists : RawType → Property → Prop} {raw raw' : RawType} {lead : String} {q : Plan}
    (covers : Covers chain columns lists raw lead q) (same : raw' = raw ∨ ∀ p, ¬ lists raw' p) :
    Covers chain columns lists raw' lead q := by
  rcases same with rfl | unlisted
  · exact covers
  · obtain ⟨_, _, deeper⟩ := covers
    exact .mk (fun p listed => absurd listed (unlisted p)) (fun p _ listed => absurd listed (unlisted p)) deeper

mutual

/-- The plan reads columns that stand for properties of the type under the lead, and so do the plans nested in
it, none of which is empty. -/
inductive Grounded (chain : MatcherChain) (columns : List String) (lists : RawType → Property → Prop) :
    RawType → String → Plan → Prop
  | mk {raw : RawType} {lead : String} {table : PropertyTable} {entries : List Entry} :
      (∀ e ∈ entries, EntryGrounded chain columns lists raw lead e) →
        Grounded chain columns lists raw lead (.mk table entries)

inductive EntryGrounded (chain : MatcherChain) (columns : List String) (lists : RawType → Property → Prop) :
    RawType → String → Entry → Prop
  | column {raw : RawType} {lead : String} {p : Property} {mapper : ColumnMapper} {i : Nat} : lists raw p →
      p.unmappable = false → p.nested = none → Accepted chain columns (lead ++ p.columnName) →
        EntryGrounded chain columns lists raw lead (p, .column mapper i)
  | nested {raw : RawType} {lead nested : String} {p : Property} {q : Plan} : lists raw p →
      p.unmappable = false → p.nested = some nested → chain.anyUnder (lead ++ nested) columns = .ok true →
        q.entries ≠ [] → Grounded chain columns lists p.type.raw (Text.lower (lead ++ nested)) q →
          EntryGrounded chain columns lists raw lead (p, .nested q)

end

structure Rooted (chain : MatcherChain) (columns : List String) (lists : RawType → Property → Prop)
    (raw : RawType) (lead : String) (q : Plan) : Prop where
  named : raw.class?.isSome
  some : q.entries = [] → columns = []
  grounded : Grounded chain columns lists raw lead q

mutual

/-- Plans of known tables, whose columns are among the first `n` and are read by mappers of the kind `P`. -/
inductive Made (known : PropertyTable → Prop) (P : ColumnMapper → Prop) (n : Nat) : Plan → Prop
  | mk {table : PropertyTable} {entries : List Entry} : known table → (∀ e ∈ entries, SourceMade known P n e.2) →
      Made known P n (.mk table entries)

inductive SourceMade (known : PropertyTable → Prop) (P : ColumnMapper → Prop) (n : Nat) : PlanSource → Prop
  | column {mapper : ColumnMapper} {index : Nat} : P mapper → index < n →
      SourceMade known P n (.column mapper index)
  | nested {q : Plan} : Made known P n q → SourceMade known P n (.nested q)

end

structure EntryCovers (known : PropertyTable → Prop) (P : ColumnMapper → Prop) (chain : MatcherChain)
    (columns : List String) (lists : RawType → Property → Prop) (raw : RawType) (lead : String) (p : Property)
    (o : Option Entry) : Prop where
  made : ∀ e ∈ o, SourceMade known P columns.length e.2
  own : ∀ e ∈ o, e.1 = p
  column : p.nested = none → Accepted chain columns (lead ++ p.columnName) →
    ∃ mapper i, o = some (p, .column mapper i)
  nested : ∀ nested, p.nested = some nested → chain.anyUnder (lead ++ nested) columns = .ok true →
    Stands chain columns lists p.type.raw (Text.lower (lead ++ nested)) → ∃ q, o = some (p, .nested q)
  deeper : ∀ nested q, p.nested = some nested → o = some (p, .nested q) →
    Covers chain columns lists p.type.raw (Text.lower (lead ++ nested)) q
  grounded : ∀ e ∈ o, EntryGrounded chain columns lists raw lead e

/-- The entries cover the properties on the list, and there are no others. -/
structure EntriesCover (known : PropertyTable → Prop) (P : ColumnMapper → Prop) (chain : MatcherChain)
    (columns : List String) (lists : RawType → Property → Prop) (raw : RawType) (lead : String)
    (ps : List Property) (es : List Entry) : Prop where
  all : ∀ p ∈ ps, p.unmappable = false →
    ∃ o, EntryCovers known P chain columns lists raw lead p o ∧ ∀ e ∈ o, e ∈ es
  each : ∀ e ∈ es, EntryCovers known P chain columns lists raw lead e.1 (some e)

/-- Something is planned if some column stands for a property, or there are no columns at all; and it covers
what columns stand for, and nothing else. -/
structure Planned (known : PropertyTable → Prop) (P : ColumnMapper → Prop) (chain : MatcherChain)
    (columns : List String) (lists : RawType → Property → Prop) (raw : RawType) (lead : String)
    (o : Option Plan) : Prop where
  stands : Stands chain columns lists raw lead → o.isSome
  empty : columns = [] → o.isSome
  covers : ∀ q ∈ o, Covers chain columns lists raw lead q ∧ Made known P columns.length q
  rooted : ∀ q ∈ o, Rooted chain columns lists raw lead q

section Entries

variable {known : PropertyTable → Prop} {P : ColumnMapper → Prop} {chain : MatcherChain}
  {columns : List String} {lists : RawType → Property → Prop} {raw : RawType} {lead : String} {p : Property}
  {ps : List Property} {es : List Entry}

theorem EntryCovers.of_column {mapper : ColumnMapper} {label : String} {i : Nat} (listed : lists raw p)
    (mappable : p.unmappable = false) (plain : p.nested = none)
    (searched : chain.find (lead ++ p.columnName) columns label = .ok (some i)) (own : P mapper) :
    EntryCovers known P chain columns lists raw lead p (some (p, .column mapper i)) := by
  refine ⟨?_, ?_, fun _ _ => ⟨mapper, i, rfl⟩, fun _ nests => ?_, ?_, ?_⟩
  · rintro _ ⟨⟩
    exact .column own (MatcherChain.find_lt searched)
  · rintro _ ⟨⟩
    rfl
  · rw [plain] at nests
    contradiction
  · rintro nested q nests ⟨⟩
  · rintro _ ⟨⟩
    obtain ⟨d, there, accepted, _⟩ := MatcherChain.find_some searched
    exact .column listed mappable plain ⟨d, List.mem_of_getElem? there, accepted⟩

theorem EntryCovers.of_missed {label : String} (plain : p.nested = none)
    (searched : chain.find (lead ++ p.columnName) columns label = .ok none) :
    EntryCovers known P chain columns lists raw lead p none := by
  refine ⟨nofun, nofun, fun _ ⟨d, member, accepted⟩ => ?_, fun _ nests => ?_, nofun, nofun⟩
  · rw [MatcherChain.find_none searched d member] at accepted
    cases accepted
  · rw [plain] at nests
    contradiction

/-- Nothing need be planned for a nested property if no column stands for anything below it. -/
theorem EntryCovers.of_unstanding {nested : String} (own : p.nested = some nested)
    (vain : chain.anyUnder (lead ++ nested) columns = .ok true →
      ¬ Stands chain columns lists p.type.raw (Text.lower (lead ++ nested))) :
    EntryCovers known P chain columns lists raw lead p none := by
  refine ⟨nofun, nofun, fun plain => ?_, fun nested' nests under stands => ?_, nofun, nofun⟩
  · rw [plain] at own
    contradiction
  · cases Option.some.inj (own.symm.trans nests)
    exact absurd stands (vain under)

theorem Enters.target_of_class {k k' : ReflectiveMapper} {nested : String}
    (enters : Enters chain columns lists k k' p nested)
    (named : k'.target.class?.isSome ∨ p.type.raw.class?.isSome) : k'.target = p.type.raw := by
  rcases enters.target with same | ⟨unnamed, unnamed'⟩
  · exact same
  · rw [unnamed, unnamed'] at named
    simp at named

theorem Covers.of_entered {k k' : ReflectiveMapper} {nested : String} {q : Plan}
    (named : ∀ raw p, lists raw p → raw.class?.isSome) (enters : Enters chain columns lists k k' p nested)
    (covers : Covers chain columns lists k'.target k'.lead q) :
    Covers chain columns lists p.type.raw (Text.lower (k.lead ++ nested)) q := by
  rw [enters.lead] at covers
  refine covers.of_unlisted ?_
  by_cases unlisted : ∀ p', ¬ lists p.type.raw p'
  · exact .inr unlisted
  · push Not at unlisted
    obtain ⟨p', listed⟩ := unlisted
    exact .inl (enters.target_of_class (.inr (named _ p' listed))).symm

theorem EntryCovers.of_nested {k k' : ReflectiveMapper} {nested : String} {q : Plan}
    (named : ∀ raw p, lists raw p → raw.class?.isSome) (enters : Enters chain columns lists k k' p nested)
    (covers : Covers chain columns lists k'.target k'.lead q) (made : Made known P columns.length q)
    (rooted : Rooted chain columns lists k'.target k'.lead q) :
    EntryCovers known P chain columns lists k.target k.lead p (some (p, .nested q)) := by
  refine ⟨?_, ?_, fun plain => ?_, fun _ _ _ _ => ⟨q, rfl⟩, ?_, ?_⟩
  · rintro _ ⟨⟩
    exact .nested made
  · rintro _ ⟨⟩
    rfl
  · rw [enters.own] at plain
    contradiction
  · rintro nested' _ nests ⟨⟩
    cases Option.some.inj (enters.own.symm.trans nests)
    exact covers.of_entered named enters
  · rintro _ ⟨⟩
    have filled : q.entries ≠ [] := by
      intro none
      have under := enters.under
      rw [rooted.some none] at under
      cases under
    have grounded := rooted.grounded
    rw [enters.lead, enters.target_of_class (.inl rooted.named)] at grounded
    exact .nested enters.listed enters.mappable enters.own enters.under filled grounded

theorem EntriesCover.nil : EntriesCover known P chain columns lists raw lead [] [] :=
  ⟨List.forall_mem_nil _, List.forall_mem_nil _⟩

theorem EntriesCover.skip (covers : EntriesCover known P chain columns lists raw lead ps es)
    (unmappable : p.unmappable = true) : EntriesCover known P chain columns lists raw lead (p :: ps) es := by
  refine ⟨fun p' member mappable => ?_, covers.each⟩
  rcases List.mem_cons.mp member with rfl | later
  · rw [unmappable] at mappable
    contradiction
  · exact covers.all p' later mappable

theorem EntriesCover.cons {o : Option Entry} (covers : EntriesCover known P chain columns lists raw lead ps es)
    (first : EntryCovers known P chain columns lists raw lead p o) :
    EntriesCover known P chain columns lists raw lead (p :: ps) (o.toList ++ es) := by
  refine ⟨fun p' member mappable => ?_, fun e member => ?_⟩
  · rcases List.mem_cons.mp member with rfl | later
    · exact ⟨o, first, fun e new => List.mem_append_left _ (Option.mem_toList.mpr new)⟩
    · obtain ⟨o', covers', inside⟩ := covers.all p' later mappable
      exact ⟨o', covers', fun e old => List.mem_append_right _ (inside e old)⟩
  · rcases List.mem_append.mp member with new | old
    · have planned : o = some e := Option.mem_toList.mp new
      rw [first.own e planned, ← planned]
      exact first
    · exact covers.each e old

theorem EntriesCover.perm {es' : List Entry} (covers : EntriesCover known P chain columns lists raw lead ps es)
    (perm : es'.Perm es) : EntriesCover known P chain columns lists raw lead ps es' := by
  refine ⟨fun p member mappable => ?_, fun e member => covers.each e (perm.mem_iff.mp member)⟩
  obtain ⟨o, first, inside⟩ := covers.all p member mappable
  exact ⟨o, first, fun e planned => perm.mem_iff.mpr (inside e planned)⟩

theorem EntriesCover.ne_nil (covers : EntriesCover known P chain columns lists raw lead ps es)
    (full : ∀ p, lists raw p → p ∈ ps) (stands : Stands chain columns lists raw lead) : es ≠ [] := by
  cases stands with
  | @column _ _ p listed mappable plain accepted =>
    obtain ⟨o, first, inside⟩ := covers.all p (full p listed) mappable
    obtain ⟨_, _, planned⟩ := first.column plain accepted
    exact List.ne_nil_of_mem (inside _ planned)
  | @nested _ _ nested p listed mappable nests under stands =>
    obtain ⟨o, first, inside⟩ := covers.all p (full p listed) mappable
    obtain ⟨_, planned⟩ := first.nested nested nests under stands
    exact List.ne_nil_of_mem (inside _ planned)

theorem EntriesCover.covers {t : PropertyTable}
    (covers : EntriesCover known P chain columns lists raw lead ps es) (full : ∀ p, lists raw p → p ∈ ps) :
    Covers chain columns lists raw lead (.mk t es) := by
  refine .mk (fun p listed mappable plain accepted => ?_)
    (fun p nested listed mappable nests under stands => ?_) fun p nested q member nests => ?_
  · obtain ⟨o, first, inside⟩ := covers.all p (full p listed) mappable
    obtain ⟨mapper, i, planned⟩ := first.column plain accepted
    exact ⟨mapper, i, inside _ planned⟩
  · obtain ⟨o, first, inside⟩ := covers.all p (full p listed) mappable
    obtain ⟨q, planned⟩ := first.nested nested nests under stands
    exact ⟨q, inside _ planned⟩
  · exact (covers.each _ member).deeper nested q nests rfl

theorem EntriesCover.unplanned (covers : EntriesCover known P chain columns lists raw lead ps [])
    (full : ∀ p, lists raw p → p ∈ ps) (some : columns ≠ []) :
    Planned known P chain columns lists raw lead none :=
  ⟨fun stands => absurd rfl (covers.ne_nil full stands), fun empty => absurd empty some, nofun, nofun⟩

theorem EntriesCover.planned {t : PropertyTable}
    (covers : EntriesCover known P chain columns lists raw lead ps es) (full : ∀ p, lists raw p → p ∈ ps)
    (named : raw.class?.isSome) (tabled : known t) (filled : es = [] → columns = []) :
    Planned known P chain columns lists raw lead (some (.mk t es)) := by
  refine ⟨fun _ => rfl, fun _ => rfl, ?_, ?_⟩
  · rintro _ ⟨⟩
    exact ⟨covers.covers full, .mk tabled fun e member => (covers.each e member).made e rfl⟩
  · rintro _ ⟨⟩
    exact ⟨named, filled, .mk fun e member => (covers.each e member).grounded e rfl⟩

end Entries

def Nameless (chain : MatcherChain) (columns : List String) (lists : RawType → Property → Prop)
    (m : ReflectiveMapper) : Prop :=
  ∃ k trail, Entered chain columns lists m k trail ∧ (k.target.class? = none ∨
    ∃ p, lists k.target p ∧ p.unmappable = false ∧ p.nested.isSome ∧ p.type.raw.class? = none)

/-- What planning a mapper may come to: tables and mappers of a kind; and failures, its own, those of column
look-ups, annotations that name what nothing declares, and the refusal to plan a type again or under a lead that
outgrows the columns, where that comes to pass. -/
structure Admits (E : Failure → Prop) (I : World → Prop) (h : Hooks) (c : Context)
    (known : PropertyTable → Prop) (P : ColumnMapper → Prop) (chain : MatcherChain) (columns : List String)
    (lists : RawType → Property → Prop) (m : ReflectiveMapper) : Prop where
  lacks : chain.broken = true ∨ Nameless chain columns lists m → E .lacksPart
  ambiguous : ∀ l a b, E (.ambiguousColumn l a b)
  unmapped : ∀ o p t, E (.noSuchMapper o p t)
  unknown : ∀ t, E (.unknownProperties t)
  unmatched : columns ≠ [] → ¬ Stands chain columns lists m.target m.lead → ∀ t cs, E (.noMatchingColumns t cs)
  leftover : ∀ t cs, E (.leftoverColumns t cs)
  column : ∀ key, Comes I E (fun o => ∀ mapper ∈ o, P mapper) (Registry.findColumn h c key)
  raw : P .raw
  table : ∀ k trail, Entered chain columns lists m k trail → ∀ u, I u →
    ∀ t, ((table? c k.target).run u).1 = .ok (some t) → known t
  obscure : ∀ k trail, Entered chain columns lists m k trail → ∀ u, I u →
    ((table? c k.target).run u).1 = .error .undeclared → E .undeclared
  again : ∀ k trail, Entered chain columns lists m k trail → onTrail trail k = true →
    ∀ n, E (.nestedCycle n k.lead)
  outgrown : ∀ k trail p nested, Entered chain columns lists m k trail → lists k.target p →
    p.unmappable = false → p.nested = some nested → chain.anyUnder (k.lead ++ nested) columns = .ok true →
    outgrown (k.lead ++ nested) columns = true → ∀ n, E (.nestedCycle n (k.lead ++ nested))

/-- A realm in which classes list all the properties that `lists` says, and settings stay as they are. -/
structure FullRealm (s : Schema) (st : Settings) (h : Hooks) (c : Context) (lists : RawType → Property → Prop)
    (I : World → Prop) : Prop extends Realm s h c lists I where
  full : ∀ raw p u, I u → lists raw p → ∃ t, ((table? c raw).run u).1 = .ok (some t) ∧ p ∈ t.properties
  settings : ∀ u, I u → (u.settings[c.settings]?).getD default = st

section Planning

variable {s : Schema} {st : Settings} {h : Hooks} {c : Context} {lists : RawType → Property → Prop}
  {I : World → Prop} (realm : FullRealm s st h c lists I) {columns : List String} {chain : MatcherChain}
  {E : Failure → Prop} {known : PropertyTable → Prop} {P : ColumnMapper → Prop} {m : ReflectiveMapper}
  (admits : Admits E I h c known P chain columns lists m) {k : ReflectiveMapper} {trail : Trail}

abbrev PlanComes (I : World → Prop) (E : Failure → Prop) {α : Type} (Q : α → Prop) (x : Planning α) : Prop :=
  ComesOver I E (fun _ => True) Q x

theorem unnamed_of_ownName {raw : RawType} (unnamed : raw.ownName? = none) : raw.class? = none := by
  cases raw with
  | cls => contradiction
  | union | literalForm | value | «variable» | unresolved => rfl

include admits in
theorem Admits.named (entered : Entered chain columns lists m k trail) :
    Comes I E (fun _ => True) (liftM k.typeName : MappingM String) := by
  refine (Comes.lift fun f failed => ?_).mono fun _ _ => trivial
  unfold ReflectiveMapper.typeName at failed
  split at failed
  · contradiction
  · next none =>
    exact Except.error.inj failed ▸ admits.lacks (.inr ⟨k, trail, entered, .inl (unnamed_of_ownName none)⟩)

include admits in
theorem Admits.typeName (entered : Entered chain columns lists m k trail) :
    PlanComes I E (fun _ => True) (liftM (liftM k.typeName : MappingM String) : Planning String) :=
  .lift (admits.named entered)

include realm

theorem FullRealm.comes_log (level : LogLevel) (logger : Logger) (text : String) :
    Comes I E (fun _ => True) (log level logger text) :=
  .of_run fun u kind => ⟨(), _, rfl, realm.log level logger text u kind, trivial⟩

include admits

theorem Admits.fallbackMapper (owner : String) (p : Property) :
    Comes I E P (fallbackMapper ⟨h, c, columns, chain⟩ owner p) := by
  refine Comes.bind (Q := fun _ => True) (.of_run fun u kind => ⟨_, u, rfl, kind, trivial⟩) fun st _ => ?_
  dsimp only
  split
  · exact (Comes.throw (Q := fun _ => True) (admits.unmapped _ _ _)).bind fun _ _ =>
      (realm.comes_log _ _ _).bind fun _ _ => .pure admits.raw
  · exact (realm.comes_log _ _ _).bind fun _ _ => .pure admits.raw

theorem Admits.planColumn (entered : Entered chain columns lists m k trail) {p : Property}
    (listed : lists k.target p) (mappable : p.unmappable = false) (plain : p.nested = none) :
    PlanComes I E (EntryCovers known P chain columns lists k.target k.lead p)
      (planColumn ⟨h, c, columns, chain⟩ k p) := by
  unfold ReflectiveMapper.planColumn
  refine (admits.typeName entered).bind fun owner _ => ?_
  have failures : ∀ label f, chain.find (k.lead ++ p.columnName) columns label = .error f → E f := by
    intro label f failed
    rcases MatcherChain.find_error failed with ⟨broken, rfl⟩ | ⟨_, _, _, rfl⟩
    · exact admits.lacks (.inl broken)
    · exact admits.ambiguous _ _ _
  refine (ComesOver.liftExcept (failures _)).bind fun found searched => ?_
  cases found with
  | none => exact .pure (.of_missed plain searched)
  | some i =>
    refine (ComesOver.lift (admits.column _)).bind fun o good => ?_
    cases o with
    | none =>
      refine (ComesOver.lift (admits.fallbackMapper realm _ _)).bind fun mapper own => ?_
      exact (ComesOver.modify fun _ _ => trivial).bind fun _ _ =>
        .pure (.of_column listed mappable plain searched own)
    | some mapper =>
      refine (ComesOver.pure (good mapper rfl)).bind fun mapper own => ?_
      exact (ComesOver.modify fun _ _ => trivial).bind fun _ _ =>
        .pure (.of_column listed mappable plain searched own)

variable {plan : Planner}

omit admits in
theorem FullRealm.comes_child {p : Property} {nested : String} (listed : lists k.target p)
    (mappable : p.unmappable = false) (own : p.nested = some nested)
    (under : chain.anyUnder (k.lead ++ nested) columns = .ok true)
    (fits : outgrown (k.lead ++ nested) columns = false) :
    Comes I E (fun k' => Enters chain columns lists k k' p nested) (child k p) := by
  refine .of_run fun u kind => ?_
  have still := realm.child k p u listed kind
  obtain ⟨serial, q, v, ran, _⟩ := run_child k p u
  rw [ran] at still
  exact ⟨_, v, ran, still, .of_child listed mappable own under fits ran⟩

theorem Admits.planNested {p : Property} {nested : String}
    (entered : Entered chain columns lists m k trail) (listed : lists k.target p)
    (mappable : p.unmappable = false) (own : p.nested = some nested) {below : Trail}
    (planned : ∀ k', Enters chain columns lists k k' p nested →
      PlanComes I E (Planned known P chain columns lists k'.target k'.lead) (plan k' below)) :
    PlanComes I E (EntryCovers known P chain columns lists k.target k.lead p)
      (planNested ⟨h, c, columns, chain⟩ plan k below p nested) := by
  unfold ReflectiveMapper.planNested
  have failures : ∀ f, chain.anyUnder (k.lead ++ nested) columns = .error f → E f := fun f failed =>
    (MatcherChain.anyUnder_error failed).2 ▸ admits.lacks (.inl (MatcherChain.anyUnder_error failed).1)
  refine (ComesOver.liftExcept failures).bind fun under answer => ?_
  split
  · next none =>
    obtain rfl : under = false := by simpa using none
    refine (admits.typeName entered).bind fun owner _ => ?_
    refine (ComesOver.lift (realm.comes_log _ _ _)).bind fun _ _ => .pure (.of_unstanding own fun some => ?_)
    cases answer.symm.trans some
  · next some =>
    obtain rfl : under = true := by simpa using some
    split
    · next long =>
      split
      · exact .throw (admits.outgrown k trail p nested entered listed mappable own answer long _)
      · next none =>
        have nests : p.nested.isSome := by rw [own]; rfl
        exact .throw (admits.lacks (.inr ⟨k, trail, entered, .inr
          ⟨p, listed, mappable, nests, unnamed_of_ownName none⟩⟩))
    · next fits =>
      refine (ComesOver.lift (realm.comes_child listed mappable own answer (eq_false_of_ne_true fits))).bind
        fun k' enters => ?_
      refine (planned k' enters).bind fun o ⟨reads, _, covers, rooted⟩ => .pure ?_
      cases o with
      | none =>
        refine .of_unstanding own fun _ stands => ?_
        -- Only a class stands for anything, and then the mapper entered maps to it.
        have same : k'.target = p.type.raw := by
          cases stands with
          | column listed' => exact enters.target_of_class (.inr (realm.named _ _ listed'))
          | nested listed' => exact enters.target_of_class (.inr (realm.named _ _ listed'))
        rw [← enters.lead, ← same] at stands
        exact absurd (reads stands) (by simp)
      | some q => exact .of_nested realm.named enters (covers q rfl).1 (covers q rfl).2 (rooted q rfl)

theorem Admits.planEntries (entered : Entered chain columns lists m k trail) {below : Trail}
    (planned : ∀ k' p nested, Enters chain columns lists k k' p nested →
      PlanComes I E (Planned known P chain columns lists k'.target k'.lead) (plan k' below)) {ps : List Property}
    (listed : ∀ p ∈ ps, lists k.target p) :
    PlanComes I E (EntriesCover known P chain columns lists k.target k.lead ps)
      (planEntries ⟨h, c, columns, chain⟩ plan k below ps) := by
  induction ps with
  | nil => exact .pure .nil
  | cons p ps ih =>
    have rest := ih fun p' member => listed p' (List.mem_cons_of_mem p member)
    have first := listed p List.mem_cons_self
    unfold ReflectiveMapper.planEntries
    split
    · next unmappable => exact rest.mono fun es covers => covers.skip unmappable
    · next mappable =>
      rw [Bool.not_eq_true] at mappable
      have more : ∀ o, EntryCovers known P chain columns lists k.target k.lead p o →
          PlanComes I E (EntriesCover known P chain columns lists k.target k.lead (p :: ps))
            (do return o.toList ++ (← ReflectiveMapper.planEntries ⟨h, c, columns, chain⟩ plan k below ps)) :=
        fun o one => rest.bind fun es covers => .pure (covers.cons one)
      split
      · next plain => exact (admits.planColumn realm entered first mappable plain).bind more
      · next nested own =>
        exact (admits.planNested realm entered first mappable own fun k' => planned k' p nested).bind more

theorem Admits.comes_table (entered : Entered chain columns lists m k trail) :
    Comes I E (fun o => (∀ t ∈ o, k.target.class?.isSome ∧ known t ∧ ∀ p ∈ t.properties, lists k.target p) ∧
      ∀ p, lists k.target p → ∃ t ∈ o, p ∈ t.properties) (table? c k.target) := by
  intro u kind
  obtain ⟨v, ran, _⟩ := run_table_for c k.target u
  obtain ⟨still, listed⟩ := realm.table k.target u kind
  refine ⟨still, fun o found => ⟨?_, fun p own => ?_⟩, fun e failed => ?_⟩
  · rintro t rfl
    exact ⟨class_of_table found, admits.table k trail entered u kind t found, listed t found⟩
  · obtain ⟨t, known, member⟩ := realm.full k.target p u kind own
    exact ⟨t, Except.ok.inj (found.symm.trans known), member⟩
  · have consulted : u.consult c k.target = .error e := by rw [← failed, ran]
    obtain rfl := (World.consult_error consulted).1
    exact admits.obscure k trail entered u kind failed

/-- One level of planning covers what the planner below it covers. -/
theorem Admits.planStep (entered : Entered chain columns lists m k trail)
    (planned : onTrail trail k = false → ∀ k' p nested, Enters chain columns lists k k' p nested →
      PlanComes I E (Planned known P chain columns lists k'.target k'.lead)
        (plan k' ((k.target, k.lead) :: trail))) :
    PlanComes I E (Planned known P chain columns lists k.target k.lead)
      (planStep ⟨h, c, columns, chain⟩ plan k trail) := by
  unfold ReflectiveMapper.planStep
  split
  · next again =>
    exact (admits.typeName entered).bind fun owner _ =>
      (ComesOver.throw (Q := fun _ => False) (admits.again k trail entered again owner)).bind
        fun _ never => never.elim
  · next new =>
    refine (ComesOver.lift (admits.comes_table realm entered)).bind fun o ⟨listed, full⟩ => ?_
    cases o with
    | none => exact (admits.typeName entered).bind fun owner _ => .throw (admits.unknown owner)
    | some t =>
      obtain ⟨named, tabled, listed⟩ := listed t rfl
      have whole : ∀ p, lists k.target p → p ∈ t.properties := by
        intro p own
        obtain ⟨_, ⟨⟩, member⟩ := full p own
        exact member
      refine (admits.planEntries realm entered (planned (eq_false_of_ne_true new)) listed).bind
        fun es covers => ?_
      dsimp only
      split
      · next none =>
        rw [Bool.and_eq_true, List.isEmpty_iff, Bool.not_eq_true', List.isEmpty_eq_false_iff] at none
        obtain ⟨rfl, some⟩ := none
        exact .pure (covers.unplanned whole some)
      · next some =>
        rw [Bool.and_eq_true, List.isEmpty_iff, Bool.not_eq_true', List.isEmpty_eq_false_iff, not_and,
          not_not] at some
        have perm := ordered_perm es
        exact .pure ((covers.perm perm).planned whole named tabled fun none =>
          some (none ▸ perm).symm.eq_nil)

theorem Admits.planAbove (stop : Planner) {depth : Nat}
    (short : ∀ k trail, Entered chain columns lists m k trail → trail.length < depth)
    (entered : Entered chain columns lists m k trail) {n : Nat} (left : trail.length + n = depth) :
    PlanComes I E (Planned known P chain columns lists k.target k.lead)
      (planAbove ⟨h, c, columns, chain⟩ stop n k trail) := by
  induction n generalizing k trail with
  | zero =>
    have above := short k trail entered
    omega
  | succ n ih =>
    exact admits.planStep realm entered fun new k' p nested enters =>
      ih (entered.nested new enters) (by rw [List.length_cons]; omega)

omit realm in
omit admits in
theorem leftover_error {lead : String} {unread : List String} {e : Failure}
    (failed : leftover chain lead unread = .error e) : chain.broken = true ∧ e = .lacksPart := by
  induction unread with
  | nil => contradiction
  | cons d ds ih =>
    simp only [leftover] at failed
    cases asked : chain.liesUnder d lead with
    | error f =>
      rw [asked] at failed
      cases failed
      exact MatcherChain.liesUnder_error asked
    | ok b =>
      rw [asked] at failed
      cases rest : leftover chain lead ds with
      | error f =>
        rw [rest] at failed
        cases failed
        exact ih rest
      | ok cs =>
        rw [rest] at failed
        contradiction

omit admits in
theorem FullRealm.comes_settings : Comes I E (fun found => found = st) (MappingM.settings c) :=
  .of_run fun u kind => ⟨_, u, rfl, kind, realm.settings u kind⟩

theorem Admits.refuseLeftover (unread : List String) :
    Comes I E (fun _ => True) (refuseLeftover c chain m unread) := by
  refine realm.comes_settings.bind fun found _ => ?_
  split
  · have failures : ∀ f, ReflectiveMapper.leftover chain m.lead unread = .error f → E f := fun f failed =>
      (leftover_error failed).2 ▸ admits.lacks (.inl (leftover_error failed).1)
    refine (Comes.lift failures).bind fun left _ => ?_
    split
    · exact (admits.named .start).bind fun owner _ => .throw (admits.leftover _ _)
    · exact .pure trivial
  · exact .pure trivial

/-- Specialization comes to a plan that covers what columns stand for, or fails in an admitted way. -/
theorem Admits.specialize (lead : ∃ t, m.lead = Text.lower t) (chained : st.chain = chain) :
    Comes I E (fun q => (Covers chain columns lists m.target m.lead q ∧ Made known P columns.length q) ∧
        Rooted chain columns lists m.target m.lead q)
      (m.specialize h c columns) := by
  unfold ReflectiveMapper.specialize
  refine realm.comes_settings.bind fun found same => ?_
  subst same chained
  refine (Comes.get.mono fun u kind => realm.schema u kind).bind fun u schema => ?_
  dsimp only
  rw [schema, planWithin_above]
  have planned := admits.planAbove realm (fun _ _ => throw .exhausted)
    (fun _ _ => realm.within_bound lead) .start (Nat.zero_add _)
  refine (planned columns trivial).bind fun (o, unread) ⟨⟨stands, empty, covers, rooted⟩, _⟩ => ?_
  cases o with
  | none =>
    have unmatched := admits.unmatched (fun none => nomatch empty none) fun found => nomatch stands found
    exact (admits.named .start).bind fun owner _ => .throw (unmatched _ _)
  | some q =>
    refine (admits.refuseLeftover realm unread).bind fun _ _ => (admits.named .start).bind fun owner _ => ?_
    exact (realm.comes_log _ _ _).bind fun _ _ => .pure ⟨covers q rfl, rooted q rfl⟩

end Planning
end RowMapping.ReflectiveMapper
