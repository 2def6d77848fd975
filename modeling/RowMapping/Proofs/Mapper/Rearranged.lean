import RowMapping.Proofs.Column.Rearranged
import RowMapping.Proofs.Mapper.Local
import RowMapping.Proofs.Mapper.Parallel
import RowMapping.Proofs.Mapper.Trails
import RowMapping.Proofs.Session.Follows

/-! Mapping rows whose columns are rearranged. Columns may change places, and others may be added that no
property, no lead of a nested property and no marker asks for: plans then read the same values, and the rows
are mapped to the same. -/
namespace RowMapping

open MappingM

/-! ### Plans for rearranged rows -/

section Moved

variable (r r' : Row)

def SameCell (i j : Nat) : Prop := ∃ v, r.values[i]? = some v ∧ r'.values[j]? = some v

/-- A marker that the first row has, the second one has with its value. -/
def MarkerMoved (marker : Option String) : Prop :=
  ∀ mk ∈ marker, ∀ i, Row.named? r.columns mk = some i → ∃ j, Row.named? r'.columns mk = some j ∧ SameCell r r' i j

variable (P : ColumnMapper → Prop)

mutual

/-- The plans make one object of the same values, each by mappers of a kind from its own row. -/
def Plan.Moved : Plan → Plan → Prop
  | .mk t es, .mk u fs => t = u ∧ MarkerMoved r r' t.nullMarker ∧ EntriesMoved es fs

def EntriesMoved : List (Property × PlanSource) → List (Property × PlanSource) → Prop
  | [], fs => fs = []
  | (p, source) :: es, fs => ∃ source' fs', fs = (p, source') :: fs' ∧ source.Moved source' ∧ EntriesMoved es fs'

def PlanSource.Moved : PlanSource → PlanSource → Prop
  | .column mapper i, source => P mapper ∧ ∃ j, source = .column mapper j ∧ SameCell r r' i j
  | .nested plan, source => ∃ plan', source = .nested plan' ∧ plan.Moved plan'

end

variable {P r r'}

theorem entriesMoved_iff {es fs : List (Property × PlanSource)} : EntriesMoved r r' P es fs ↔
    List.Forall₂ (fun e f => e.1 = f.1 ∧ e.2.Moved r r' P f.2) es fs := by
  induction es generalizing fs with
  | nil => simp [EntriesMoved]
  | cons e es ih =>
    obtain ⟨p, source⟩ := e
    simp only [EntriesMoved, List.forall₂_cons_left_iff, ih]
    constructor
    · rintro ⟨source', fs', rfl, moved, rest⟩
      exact ⟨(p, source'), fs', ⟨rfl, moved⟩, rest, rfl⟩
    · rintro ⟨⟨q, source'⟩, fs', ⟨rfl, moved⟩, rest, rfl⟩
      exact ⟨source', fs', rfl, moved, rest⟩

theorem EntriesMoved.append {es fs gs ks : List (Property × PlanSource)} (moved : EntriesMoved r r' P es fs)
    (others : EntriesMoved r r' P gs ks) : EntriesMoved r r' P (es ++ gs) (fs ++ ks) := by
  rw [entriesMoved_iff] at moved others ⊢
  exact List.rel_append moved others

theorem EntriesMoved.ordered {es fs : List (Property × PlanSource)} (moved : EntriesMoved r r' P es fs) :
    EntriesMoved r r' P (ReflectiveMapper.ordered es) (ReflectiveMapper.ordered fs) := by
  have filtered : ∀ test : Property → Bool, EntriesMoved r r' P (es.filter fun e => test e.1)
      (fs.filter fun e => test e.1) := by
    intro test
    rw [entriesMoved_iff] at moved ⊢
    refine List.rel_filter (fun e f both => ?_) moved
    show test e.1 = true ↔ test f.1 = true
    rw [both.1]
  exact (filtered fun p => !p.propagatesNull).append (filtered fun p => p.propagatesNull)

theorem EntriesMoved.isEmpty {es fs : List (Property × PlanSource)} (moved : EntriesMoved r r' P es fs) :
    fs.isEmpty = es.isEmpty := by
  rw [entriesMoved_iff] at moved
  cases moved with
  | nil => rfl
  | cons => rfl

end Moved
/-! ### Applying them -/

section Applying

variable {s : Schema} {h : Hooks} {c : Context} {r r' : Row}

def ReadAlike (r r' a b : Row) : Prop := ∃ last, a = { r with wasNull := last } ∧ b = { r' with wasNull := last }

def OfSchema (s : Schema) (u v : World) : Prop := u.schema = s ∧ v.schema = s

theorem follows_columnOf {i j : Nat} (same : SameCell r r' i j) :
    Follows (OfSchema s) (ReadAlike r r') (· = ·) (Reading.column i) (Reading.column j) := by
  obtain ⟨v, here, there⟩ := same
  rintro _ _ ⟨last, rfl, rfl⟩ u w worlds a s' w' ran
  have first : Reads s (Reading.column i) { r with wasNull := last } v { r with wasNull := v.isNull } :=
    reads_column here
  have second : Reads s (Reading.column j) { r' with wasNull := last } v { r' with wasNull := v.isNull } :=
    reads_column there
  cases (first u worlds.1).symm.trans ran
  exact ⟨v, _, w, second w worlds.2, rfl, ⟨v.isNull, rfl, rfl⟩, worlds⟩

theorem follows_wasNull : Follows (OfSchema s) (ReadAlike r r') (· = ·) Reading.wasNull Reading.wasNull :=
  Follows.get.bind fun _ _ ⟨_, here, there⟩ => .pure (by rw [here, there])

theorem follows_isNullMarked {marker : Option String} (moved : MarkerMoved r r' marker) :
    Follows (OfSchema s) (ReadAlike r r') (· = ·) (isNullMarked marker) (isNullMarked marker) := by
  cases marker with
  | none => exact .pure rfl
  | some mk =>
    refine Follows.get.bind ?_
    rintro _ _ ⟨last, rfl, rfl⟩
    dsimp only
    cases named : Row.named? r.columns mk with
    | none => exact .throw _ _
    | some i =>
      obtain ⟨j, named', same⟩ := moved mk rfl i named
      rw [named']
      exact (follows_columnOf same).bind fun _ _ _ => follows_wasNull

theorem ColumnMapper.Local.follows {m : ColumnMapper} (own : m.Local h c s) {i j : Nat} (same : SameCell r r' i j) :
    Follows (OfSchema s) (ReadAlike r r') (· = ·) (m.apply h c i) (m.apply h c j) := by
  obtain ⟨f, computes⟩ := own
  obtain ⟨v, here, there⟩ := same
  rintro _ _ ⟨last, rfl, rfl⟩ u w ⟨schema, schema'⟩ a s' w' ran
  have first := computes u { r with wasNull := last } i v schema here
  have second := computes w { r' with wasNull := last } j v schema' there
  cases made : f v with
  | none =>
    rw [made] at first
    obtain ⟨_, _, failed⟩ := first
    cases failed.symm.trans ran
  | some x =>
    rw [made] at first second
    obtain ⟨u', ran', still⟩ := first
    obtain ⟨v', ran'', still'⟩ := second
    cases ran'.symm.trans ran
    exact ⟨_, _, v', ran'', rfl, ⟨v.isNull, rfl, rfl⟩, still, still'⟩

theorem follows_entries {table : PropertyTable} {es fs : List (Property × PlanSource)}
    (each : List.Forall₂ (fun e f => e.1 = f.1 ∧
      Follows (OfSchema s) (ReadAlike r r') (· = ·) (e.2.apply h c) (f.2.apply h c)) es fs) (keywords : Keywords) :
    Follows (OfSchema s) (ReadAlike r r') (· = ·) (applyEntries h c table es keywords)
      (applyEntries h c table fs keywords) := by
  induction each generalizing keywords with
  | nil => exact .pure rfl
  | @cons e f es fs both _ ih =>
    obtain ⟨p, source⟩ := e
    obtain ⟨_, source'⟩ := f
    obtain ⟨rfl, follows⟩ := both
    unfold applyEntries
    refine follows.bind fun v _ same => ?_
    subst same
    refine follows_wasNull.bind fun last _ same => ?_
    subst same
    split
    · exact .pure rfl
    · exact ih _

/-- Plans that read the same values make the same of rearranged rows. -/
theorem Plan.Moved.follows {plan plan' : Plan} (moved : plan.Moved r r' (·.Local h c s) plan') :
    Follows (OfSchema s) (ReadAlike r r') (· = ·) (plan.apply h c) (plan'.apply h c) := by
  -- On the plans nested in the first one, whatever they are compared with.
  induction plan using Plan.induct_nested generalizing plan' with
  | step table es ih =>
  obtain ⟨table', fs⟩ := plan'
  obtain ⟨rfl, marker, entries⟩ := moved
  have sources : ∀ e ∈ es, ∀ f, e.2.Moved r r' (·.Local h c s) f →
      Follows (OfSchema s) (ReadAlike r r') (· = ·) (e.2.apply h c) (f.apply h c) := by
    rintro ⟨p, source⟩ member f moved
    cases source with
    | column mapper i =>
      obtain ⟨own, j, rfl, same⟩ := moved
      exact own.follows same
    | nested q =>
      obtain ⟨q', rfl, moved⟩ := moved
      exact ih p q member moved
  have each := (List.forall₂_and_left (p := (· ∈ es)) _ _).mpr ⟨fun _ member => member, entriesMoved_iff.mp entries⟩
  unfold Plan.apply
  refine (follows_isNullMarked marker).bind fun marked _ same => ?_
  subst same
  split
  · exact .pure rfl
  · refine (follows_entries (each.imp fun e f both => ⟨both.2.1, sources e both.1 f.2 both.2.2⟩) _).bind
      fun set _ same => ?_
    subst same
    split
    · exact .pure rfl
    · have schemas : Follows (OfSchema s) (ReadAlike r r') (OfSchema s) (getThe World : Reading World)
          (getThe World : Reading World) :=
        .lift (l := .strict) (fun _ => id) Together.get
      refine schemas.bind fun u v worlds => ?_
      rw [worlds.1, worlds.2]
      exact .itself _

end Applying
/-! ### Planning them -/

namespace ReflectiveMapper

/-- The types that nested properties lead to, each with the lead of its columns. -/
inductive Places (lists : RawType → Property → Prop) (raw : RawType) (lead : String) : RawType → String → Prop
  | start : Places lists raw lead raw lead
  | nested {t : RawType} {l nested : String} {p : Property} : Places lists raw lead t l → lists t p →
      p.unmappable = false → p.nested = some nested →
        Places lists raw lead p.type.raw (Text.lower (l ++ nested))

/-- No property of the types that nested properties lead to asks for the column, nor does the lead of a nested
one or a marker. -/
structure Irrelevant (chain : MatcherChain) (lists : RawType → Property → Prop) (marks : RawType → String → Prop)
    (m : ReflectiveMapper) (column : String) : Prop where
  unread : ∀ raw lead p, Places lists m.target m.lead raw lead → lists raw p → p.unmappable = false →
    p.nested = none → chain.accepts column (lead ++ p.columnName) = .ok false
  outside : ∀ raw lead p nested, Places lists m.target m.lead raw lead → lists raw p → p.unmappable = false →
    p.nested = some nested → chain.liesUnder column (lead ++ nested) = .ok false
  unmarked : ∀ raw lead marker, Places lists m.target m.lead raw lead → marks raw marker →
    Text.lower column ≠ Text.lower marker

/-- A realm of settings that stay as they are, in which types have no markers but those that `marks` says, and
column mappers look at their own column only. -/
structure LocalRealm (s : Schema) (st : Settings) (h : Hooks) (c : Context) (lists : RawType → Property → Prop)
    (marks : RawType → String → Prop) (I : World → Prop) : Prop extends Realm s h c lists I where
  settings : ∀ u, I u → (u.settings[c.settings]?).getD default = st
  marked : ∀ raw u, I u → ∀ t, ((table? c raw).run u).1 = .ok (some t) → ∀ mk ∈ t.nullMarker, marks raw mk
  own : ∀ key u, I u → ∀ m, ((Registry.findColumn h c key).run u).1 = .ok (some m) → m.Local h c s

section Planning

variable {s : Schema} {st : Settings} {h : Hooks} {c : Context} {lists : RawType → Property → Prop}
  {marks : RawType → String → Prop} {I : World → Prop} (realm : LocalRealm s st h c lists marks I)
  {chain : MatcherChain} (unbroken : chain.broken = false) {extra : List (String × Value)} {r r' : Row}
  (moved : r.Rearranged extra r') {m : ReflectiveMapper}
  (irrelevant : ∀ e ∈ extra, Irrelevant chain lists marks m e.1)

/-- Both plan from one world and are left with one; what columns are left does not matter. -/
abbrev PlansAlong (I : World → Prop) {α β : Type} (S : α → β → Prop) : Planning α → Planning β → Prop :=
  Follows (Shared I) (fun _ _ => True) S

abbrev EntriesAlong (h : Hooks) (c : Context) (s : Schema) (r r' : Row) (es fs : List Entry) : Prop :=
  EntriesMoved r r' (·.Local h c s) es fs

def PlannedAlong (h : Hooks) (c : Context) (s : Schema) (r r' : Row) : Option Plan → Option Plan → Prop
  | none, o => o = none
  | some p, o => ∃ q, o = some q ∧ p.Moved r r' (·.Local h c s) q

include realm

theorem LocalRealm.follows_log (level : LogLevel) (logger : Logger) (text : String) :
    PlansAlong I (fun _ _ => True) (liftM (log level logger text) : Planning PUnit)
      (liftM (log level logger text) : Planning PUnit) :=
  .lift (l := .strict) (fun _ => id)
    ((together_itself (realm.log level logger text)).mono fun _ _ _ => trivial)

include unbroken moved in
theorem LocalRealm.planColumn {k : ReflectiveMapper} {p : Property}
    (unread : ∀ e ∈ extra, chain.accepts e.1 (k.lead ++ p.columnName) = .ok false) :
    PlansAlong I (fun o o' => EntriesAlong h c s r r' o.toList o'.toList)
      (planColumn ⟨h, c, r.columns, chain⟩ k p) (planColumn ⟨h, c, r'.columns, chain⟩ k p) := by
  unfold ReflectiveMapper.planColumn
  refine (Follows.itself _).bind fun owner _ same => ?_
  subst same
  refine (Follows.except fun o found => MatcherChain.find_moved unbroken moved unread _ _ found).bind ?_
  rintro o o' (⟨rfl, rfl⟩ | ⟨i, j, v, rfl, rfl, here, there⟩)
  · exact .pure (by simp [EntriesMoved])
  · have read : ∀ mapper : ColumnMapper, mapper.Local h c s →
        EntriesAlong h c s r r' [(p, .column mapper i)] [(p, .column mapper j)] :=
      fun mapper own => ⟨_, _, rfl, ⟨own, j, rfl, v, here, there⟩, rfl⟩
    have looked := together_shared (Q := fun o => ∀ m ∈ o, m.Local h c s)
      (realm.column p.type.boxed) fun u kind o returned m known => realm.own _ u kind m (known ▸ returned)
    refine (Follows.lift (l := .strict) (fun _ => id) looked).bind fun o _ ⟨same, own⟩ => ?_
    subst same
    cases o with
    | none =>
      refine (Follows.lift (l := .strict) (fun _ => id) (realm.fallbackMapper _ _)).bind ?_
      rintro _ _ ⟨rfl, rfl⟩
      exact (Follows.modify fun _ _ _ => trivial).bind fun _ _ _ =>
        .pure (read _ (ColumnMapper.Library.looks_local trivial))
    | some mapper =>
      refine (Follows.pure (S := fun a b => a = b ∧ a.Local h c s) ⟨rfl, own mapper rfl⟩).bind
        fun mapper _ ⟨same, own⟩ => ?_
      subst same
      exact (Follows.modify fun _ _ _ => trivial).bind fun _ _ _ => .pure (read mapper own)

include unbroken moved in
theorem LocalRealm.planNested {k : ReflectiveMapper} {p : Property} {nested : String} {trail : Trail}
    (listed : lists k.target p) (own : p.nested = some nested)
    (outside : ∀ e ∈ extra, chain.liesUnder e.1 (k.lead ++ nested) = .ok false) {plan plan' : Planner}
    (planned : ∀ k' : ReflectiveMapper, k'.target = p.type.raw ∨ k'.target.class? = none →
      k'.lead = Text.lower (k.lead ++ nested) →
        PlansAlong I (PlannedAlong h c s r r') (plan k' trail) (plan' k' trail)) :
    PlansAlong I (fun o o' => EntriesAlong h c s r r' o.toList o'.toList)
      (planNested ⟨h, c, r.columns, chain⟩ plan k trail p nested)
      (planNested ⟨h, c, r'.columns, chain⟩ plan' k trail p nested) := by
  unfold ReflectiveMapper.planNested
  dsimp only
  rw [MatcherChain.anyUnder_moved unbroken moved outside]
  refine (Follows.itself _).bind fun under _ same => ?_
  subst same
  split
  · refine (Follows.itself _).bind fun owner _ same => ?_
    subst same
    exact (realm.follows_log _ _ _).bind fun _ _ _ => .pure (by simp [EntriesMoved])
  · cases long : outgrown (k.lead ++ nested) r.columns with
    | true =>
      rw [if_pos rfl]
      split
      · exact .throw _ _
      · exact .throw _ _
    | false =>
      -- A column that is no shorter than the lead is still there.
      have fits : outgrown (k.lead ++ nested) r'.columns = false := by
        rw [outgrown, List.all_eq_false] at long ⊢
        obtain ⟨d, member, fits⟩ := long
        exact ⟨d, moved.columns.mem_iff.mpr (List.mem_append_left _ member), fits⟩
      have made : Together .strict (Shared I) (fun a b => a = b ∧ ((a.target = p.type.raw ∨ a.target.class? = none) ∧
          a.lead = Text.lower (k.lead ++ nested))) (child k p) (child k p) := by
        refine together_shared (realm.child k p · listed ·) fun u _ k' returned => ?_
        obtain ⟨serial, q, v, ran, same, _⟩ := run_child k p u
        rw [ran] at returned
        cases returned
        exact ⟨(property_class same).imp_right And.left, by rw [own]; rfl⟩
      rw [fits, if_neg Bool.false_ne_true]
      refine (Follows.lift (l := .strict) (fun _ => id) made).bind fun k' _ both => ?_
      obtain ⟨rfl, target, lead⟩ := both
      refine (planned k' target lead).bind fun o o' both => .pure ?_
      cases o with
      | none =>
        cases both
        simp [EntriesMoved]
      | some q =>
        obtain ⟨q', rfl, moved⟩ := both
        exact ⟨_, _, rfl, ⟨q', rfl, moved⟩, rfl⟩

include unbroken moved irrelevant in
theorem LocalRealm.planEntries {k : ReflectiveMapper} {trail : Trail}
    (place : Places lists m.target m.lead k.target k.lead) {plan plan' : Planner}
    (planned : ∀ k' : ReflectiveMapper, Places lists m.target m.lead k'.target k'.lead ∨ k'.target.class? = none →
      PlansAlong I (PlannedAlong h c s r r') (plan k' trail) (plan' k' trail)) {ps : List Property}
    (listed : ∀ p ∈ ps, lists k.target p) :
    PlansAlong I (EntriesAlong h c s r r') (planEntries ⟨h, c, r.columns, chain⟩ plan k trail ps)
      (planEntries ⟨h, c, r'.columns, chain⟩ plan' k trail ps) := by
  induction ps with
  | nil => exact .pure (by simp [EntriesMoved])
  | cons p ps ih =>
    have rest := ih fun p' member => listed p' (List.mem_cons_of_mem p member)
    have first := listed p List.mem_cons_self
    have more : ∀ o o' : Option Entry, EntriesAlong h c s r r' o.toList o'.toList →
        PlansAlong I (EntriesAlong h c s r r')
          (do return o.toList ++ (← ReflectiveMapper.planEntries ⟨h, c, r.columns, chain⟩ plan k trail ps))
          (do return o'.toList ++ (← ReflectiveMapper.planEntries ⟨h, c, r'.columns, chain⟩ plan' k trail ps)) :=
      fun o o' own => rest.bind fun es fs others => .pure (own.append others)
    unfold ReflectiveMapper.planEntries
    split
    · exact rest
    · next mappable =>
      rw [Bool.not_eq_true] at mappable
      split
      · next plain =>
        exact (realm.planColumn unbroken moved fun e member =>
          (irrelevant e member).unread _ _ p place first mappable plain).bind more
      · next nested own =>
        refine (realm.planNested unbroken moved first own (fun e member =>
          (irrelevant e member).outside _ _ p nested place first mappable own) fun k' target lead => ?_).bind more
        refine planned k' (target.imp_left fun same => ?_)
        rw [same, lead]
        exact place.nested first mappable own

variable (single : ∀ raw lead marker, Places lists m.target m.lead raw lead → marks raw marker →
  Row.Single r.columns marker)

include unbroken moved irrelevant single in
theorem LocalRealm.planStep {k : ReflectiveMapper} {trail : Trail} (some : r.columns ≠ [])
    (place : Places lists m.target m.lead k.target k.lead ∨ k.target.class? = none) {plan plan' : Planner}
    (planned : ∀ (k' : ReflectiveMapper) trail,
      Places lists m.target m.lead k'.target k'.lead ∨ k'.target.class? = none →
        PlansAlong I (PlannedAlong h c s r r') (plan k' trail) (plan' k' trail)) :
    PlansAlong I (PlannedAlong h c s r r') (planStep ⟨h, c, r.columns, chain⟩ plan k trail)
      (planStep ⟨h, c, r'.columns, chain⟩ plan' k trail) := by
  have some' : r'.columns ≠ [] := by
    intro none
    have lengths := moved.columns.length_eq
    rw [none, List.length_append] at lengths
    exact some (List.eq_nil_of_length_eq_zero (by simp only [List.length_nil] at lengths; omega))
  unfold ReflectiveMapper.planStep
  split
  · refine (Follows.itself _).bind fun owner _ same => ?_
    exact Follows.bind (S := fun _ _ => False) (.throw _ _) fun _ _ never => never.elim
  · have looked := together_shared (Q := fun o => ∀ t ∈ o, k.target.class?.isSome ∧
        (∀ p ∈ t.properties, lists k.target p) ∧ ∀ mk ∈ t.nullMarker, marks k.target mk)
      (fun u kind => (realm.table k.target u kind).1) fun u kind o returned t known => by
        cases known
        exact ⟨class_of_table returned, (realm.table k.target u kind).2 t returned,
          realm.marked k.target u kind t returned⟩
    refine (Follows.lift (l := .strict) (fun _ => id) looked).bind fun o _ ⟨same, known⟩ => ?_
    subst same
    cases o with
    | none =>
      refine (Follows.itself _).bind fun owner _ same => .throw _ _
    | some t =>
      obtain ⟨named, listed, marked⟩ := known t rfl
      -- What has a table is a class, and so it stands in its place.
      have here : Places lists m.target m.lead k.target k.lead := place.resolve_right fun unnamed => by
        rw [unnamed] at named
        contradiction
      refine (realm.planEntries unbroken moved irrelevant here (planned · _) listed).bind fun es fs entries => ?_
      dsimp only
      rw [entries.isEmpty, List.isEmpty_eq_false_iff.mpr some, List.isEmpty_eq_false_iff.mpr some']
      split
      · exact .pure rfl
      · refine .pure ⟨_, rfl, rfl, fun mk own i found => ?_, entries.ordered⟩
        have marks := marked mk own
        obtain ⟨j, v, there, value, value'⟩ := moved.named (single _ _ mk here marks)
          (fun e member => (irrelevant e member).unmarked _ _ mk here marks) found
        exact ⟨j, there, v, value, value'⟩

include unbroken moved irrelevant single in
theorem LocalRealm.planAbove (some : r.columns ≠ []) {n n' : Nat} (le : n ≤ n') (k : ReflectiveMapper) (trail : Trail)
    (place : Places lists m.target m.lead k.target k.lead ∨ k.target.class? = none) (stop : Planner) :
    PlansAlong I (PlannedAlong h c s r r')
      (planAbove ⟨h, c, r.columns, chain⟩ (fun _ _ => throw .exhausted) n k trail)
      (planAbove ⟨h, c, r'.columns, chain⟩ stop n' k trail) := by
  induction n generalizing k trail n' with
  | zero => exact .throw _ _
  | succ n ih =>
    cases n' with
    | zero => contradiction
    | succ n' =>
      exact realm.planStep unbroken moved irrelevant single some place fun k' trail place =>
        ih (Nat.le_of_succ_le_succ le) k' trail place

end Planning

theorem trailBound_mono (s : Schema) {columns columns' : List String} (inside : columns ⊆ columns') :
    trailBound s columns ≤ trailBound s columns' := by
  have along : ∀ (ns : List Nat) (least most : Nat), least ≤ most → (∀ n ∈ ns, n ≤ most) →
      ns.foldl max least ≤ most := by
    intro ns
    induction ns with
    | nil => exact fun _ _ le _ => le
    | cons n ns ih =>
      intro least most le all
      exact ih _ _ (max_le le (all n List.mem_cons_self)) fun k member => all k (List.mem_cons_of_mem n member)
  have longer : longest columns ≤ longest columns' := by
    refine along _ _ _ (Nat.zero_le _) fun n member => ?_
    obtain ⟨d, known, rfl⟩ := List.mem_map.mp member
    exact le_longest (inside known)
  exact Nat.mul_le_mul_left _ (Nat.add_le_add_right longer 3)

theorem run_refuseLeftover {c : Context} {u : World}
    (lenient : ((u.settings[c.settings]?).getD default).strictMatching = false) (chain : MatcherChain)
    (m : ReflectiveMapper) (unread : List String) : (refuseLeftover c chain m unread).run u = (.ok (), u) := by
  have read : (settings c).run u = (.ok ((u.settings[c.settings]?).getD default), u) := rfl
  unfold refuseLeftover
  rw [run_bind_ok read, lenient]
  rfl

section Specializing

variable {s : Schema} {st : Settings} {h : Hooks} {c : Context} {lists : RawType → Property → Prop}
  {marks : RawType → String → Prop} {I : World → Prop} (realm : LocalRealm s st h c lists marks I)
  {m : ReflectiveMapper} {w u : World} (here : I w)
include realm here

/-- Specialization plans, and does no more where no column is refused for being left over. -/
theorem LocalRealm.specialize_planned (lenient : st.strictMatching = false) {columns unread : List String}
    {p : Plan} {n : String} (named : m.typeName = .ok n) (still : I u)
    (planned : ((planWithin ⟨h, c, columns, st.chain⟩ (trailBound s columns) m []).run columns).run w =
      (.ok (some p, unread), u)) : ∃ v, (m.specialize h c columns).run w = (.ok p, v) ∧ I v := by
  have read : (MappingM.settings c).run w = (.ok st, w) := by
    rw [← realm.settings w here]
    rfl
  have kept := run_refuseLeftover (realm.settings u still ▸ lenient) st.chain m unread
  unfold specialize
  rw [run_bind_ok read, run_bind_ok (run_get w), realm.schema w here, run_bind_ok planned]
  dsimp only
  rw [run_bind_ok kept, named]
  exact ⟨_, rfl, realm.log _ _ _ u still⟩

theorem LocalRealm.planned_of_specialize {columns : List String} {p : Plan} {v : World}
    (specialized : (m.specialize h c columns).run w = (.ok p, v)) : ∃ n unread u, m.typeName = .ok n ∧
      ((planWithin ⟨h, c, columns, st.chain⟩ (trailBound s columns) m []).run columns).run w =
        (.ok (some p, unread), u) := by
  have read : (MappingM.settings c).run w = (.ok st, w) := by
    rw [← realm.settings w here]
    rfl
  unfold specialize at specialized
  rw [run_bind_ok read, run_bind_ok (run_get w), realm.schema w here, run_bind] at specialized
  rcases planned : ((planWithin ⟨h, c, columns, st.chain⟩ (trailBound s columns) m []).run columns).run w with
    ⟨e | ⟨_ | q, unread⟩, u⟩ <;> rw [planned] at specialized
  · cases specialized
  · cases named : m.typeName <;> rw [named] at specialized <;> cases specialized
  · dsimp only at specialized
    rw [run_bind] at specialized
    rcases refused : (refuseLeftover c st.chain m unread).run u with ⟨e | _, u'⟩ <;> rw [refused] at specialized
    · cases specialized
    · cases named : m.typeName with
      | error e =>
        rw [named] at specialized
        cases specialized
      | ok n =>
        rw [named] at specialized
        cases specialized
        exact ⟨n, unread, u, rfl, rfl⟩

/-- A mapper specialized for a row is specialized to the same, but for the places of columns, for a rearranged
one. -/
theorem LocalRealm.specialize_moved (lenient : st.strictMatching = false) (unbroken : st.chain.broken = false)
    {extra : List (String × Value)} {r r' : Row} (moved : r.Rearranged extra r') (some : r.columns ≠ [])
    (irrelevant : ∀ e ∈ extra, Irrelevant st.chain lists marks m e.1)
    (single : ∀ raw lead marker, Places lists m.target m.lead raw lead → marks raw marker →
      Row.Single r.columns marker) {p : Plan} {v : World}
    (specialized : (m.specialize h c r.columns).run w = (.ok p, v)) :
    ∃ p' v', (m.specialize h c r'.columns).run w = (.ok p', v') ∧ p.Moved r r' (·.Local h c s) p' ∧
      OfSchema s v v' := by
  obtain ⟨n, unread, u, named, planned⟩ := realm.planned_of_specialize here specialized
  have longer := trailBound_mono s fun d member => moved.columns.mem_iff.mpr (List.mem_append_left _ member)
  have along := realm.planAbove unbroken moved irrelevant single some longer m [] (.inl .start)
    fun _ _ => throw .exhausted
  rw [← planWithin_above, ← planWithin_above] at along
  obtain ⟨o, unread', u', planned', both, _, rfl, still⟩ :=
    along r.columns r'.columns trivial w w ⟨rfl, here⟩ _ _ u planned
  obtain ⟨p', rfl, same⟩ := both
  obtain ⟨v', specialized', still'⟩ := realm.specialize_planned here lenient named still planned'
  obtain ⟨_, again, first⟩ := realm.specialize_planned here lenient named still planned
  cases again.symm.trans specialized
  exact ⟨p', v', specialized', same, realm.schema v first, realm.schema v' still'⟩

end Specializing
end ReflectiveMapper
/-! ### Contexts of local mappers -/

def World.Marks (w : World) (c : Context) (raw : RawType) (marker : String) : Prop :=
  ∃ t ∈ raw.class?.bind (w.tableFor c), marker ∈ t.nullMarker

theorem World.Tabled.marks {n : Nat} {w u : World} {c : Context} (tabled : w.Tabled n c c u) {raw : RawType}
    {t : PropertyTable} (known : raw.class?.bind (u.tableFor c) = some t) :
    ∀ mk ∈ t.nullMarker, w.Marks c raw mk := by
  obtain ⟨cls, named, found⟩ := Option.bind_eq_some_iff.mp known
  rcases (tabled cls).cases with ⟨_, missing⟩ | ⟨x, y, first, now, twins⟩
  · rw [missing] at found
    contradiction
  · cases now.symm.trans found
    have same := congrArg PropertyTable.nullMarker (id twins : Serial.upTo n x = Serial.upTo n t)
    replace same : x.nullMarker = t.nullMarker := same
    exact fun mk own => ⟨x, Option.bind_eq_some_iff.mpr ⟨cls, named, first⟩, same ▸ own⟩

namespace ReflectiveMapper

section Realms

variable {w : World} {c : Context} {h : Hooks}

theorem local_level {fs : List ColumnFactory} (library : ∀ f ∈ fs, f.Library) (h : Hooks) :
    LocalRealm w.schema ((w.settings[c.settings]?).getD default) h c (w.Lists c) (w.Marks c) (w.Level c fs) where
  toRealm := realm_level library h
  settings u here := by rw [here.settings]
  marked raw u here t found := by
    obtain ⟨v, ran, _⟩ := run_table_for c raw u
    rw [ran] at found
    exact here.tabled.marks (World.consult_some found)
  own key u here m found := by
    have supplies := supplies_findColumnAs (s := w.schema) library h c key key.nullable
    obtain ⟨o, y, v, ran, comes, alike, _, _⟩ := supplies u here.stocked
    unfold Registry.findColumn at found
    rw [ran] at found
    cases found
    obtain ⟨n, rfl, same⟩ := foundAlike_some alike.symm
    exact ((findingAs_library library comes n rfl).alike same.symm).looks_local

end Realms

/-- A row that is mapped to something is mapped to the same when its columns change places, each with its
value, and when columns are added that nothing in the types asks for. No more than one column may be a marker,
and columns left over must not be refused. -/
theorem rearranged_mapped {w : World} {h : Hooks} {c : Context} {I : World → Prop}
    (realm : LocalRealm w.schema ((w.settings[c.settings]?).getD default) h c (w.Lists c) (w.Marks c) I) (here : I w)
    {chain : MatcherChain} (chained : ((w.settings[c.settings]?).getD default).chain = chain)
    (unbroken : chain.broken = false) (lenient : ((w.settings[c.settings]?).getD default).strictMatching = false)
    (m : ReflectiveMapper) {extra : List (String × Value)} {r r' : Row} (moved : r.Rearranged extra r')
    (some : r.columns ≠ []) (irrelevant : ∀ e ∈ extra, Irrelevant chain (w.Lists c) (w.Marks c) m e.1)
    (single : ∀ raw lead marker, Places (w.Lists c) m.target m.lead raw lead → w.Marks c raw marker →
      Row.Single r.columns marker) {v : Value}
    (mapped : outcome ((RowMapper.reflective m).apply h c) w r = .ok v) :
    outcome ((RowMapper.reflective m).apply h c) w r' = .ok v := by
  subst chained
  unfold outcome at mapped ⊢
  rcases planned : (m.specialize h c r.columns).run w with ⟨e | p, u⟩
  · rw [apply_unspecialized planned] at mapped
    contradiction
  · obtain ⟨p', u', planned', same, schemas⟩ :=
      realm.specialize_moved here lenient unbroken moved some irrelevant single planned
    rw [apply_reflective planned] at mapped
    rw [apply_reflective planned']
    have alike : ReadAlike r r' r r' := ⟨r.wasNull, rfl, by rw [← moved.wasNull]⟩
    rcases ran : ((p.apply h c).run r).run u with ⟨e | ⟨a, row⟩, u''⟩ <;> rw [ran] at mapped
    · contradiction
    · cases mapped
      obtain ⟨b, row', v', ran', rfl, _⟩ := same.follows r r' alike u u' schemas _ row u'' ran
      rw [ran']
      rfl

def orders : Schema := .declare
  [⟨"Person", [], some "p_id", .record [{ name := "name", type := .cls (.builtin .text) }] none⟩,
    ⟨"Order", [], none, .record [{ name := "id", type := .cls (.builtin .int) },
      { name := "buyer", type := .marked (.cls (.declared "Person")) [.nested "p_"],
        fallback := some (.value .null) }] none⟩]

def ordersWorld : World := (Session.start orders [] ⟨.fresh true, none, []⟩).toOption.getD default

def order : ReflectiveMapper := ⟨0, .cls (.declared "Order"), ""⟩

theorem orders_started : Session.start orders [] ⟨.fresh true, none, []⟩ = .ok ordersWorld := rfl

theorem orders_realm :
    LocalRealm ordersWorld.schema ((ordersWorld.settings[0]?).getD default) (Session.hooks Session.depth) ⟨0, 0, 0⟩
      (ordersWorld.Lists ⟨0, 0, 0⟩) (ordersWorld.Marks ⟨0, 0, 0⟩)
      (ordersWorld.Level ⟨0, 0, 0⟩ ((ordersWorld.registries[0]?).getD default).columns.factories) ∧
      ordersWorld.Level ⟨0, 0, 0⟩ ((ordersWorld.registries[0]?).getD default).columns.factories ordersWorld := by
  have owned : ordersWorld.registries[0]? = some ((ordersWorld.registries[0]?).getD default) := rfl
  have library : ∀ f ∈ ((ordersWorld.registries[0]?).getD default).columns.factories, f.Library := by
    decide +kernel
  have reached : Reached orders ordersWorld := Reached.after (congrArg Except.toOption orders_started) []
  have realm := local_level (w := ordersWorld) (c := ⟨0, 0, 0⟩) library (Session.hooks Session.depth)
  exact ⟨realm, World.level_of_reached reached owned library⟩

theorem orders_places {raw : RawType} {lead : String}
    (place : Places (ordersWorld.Lists ⟨0, 0, 0⟩) order.target order.lead raw lead) :
    raw = order.target ∧ lead = "" ∨ raw = .cls (.declared "Person") ∧ lead = "p_" := by
  have own : ((ordersWorld.tableFor ⟨0, 0, 0⟩ (.declared "Order")).all fun t => t.properties.all fun p =>
      p.nested.all fun nested => nested = "p_" && p.type.raw.same (.cls (.declared "Person"))) = true := by
    decide +kernel
  have person : ((ordersWorld.tableFor ⟨0, 0, 0⟩ (.declared "Person")).all fun t => t.properties.all fun p =>
      p.nested.isNone) = true := by
    decide +kernel
  induction place with
  | start => exact .inl ⟨rfl, rfl⟩
  | nested _ listed _ nested ih =>
    rcases ih with ⟨rfl, rfl⟩ | ⟨rfl, rfl⟩
    · have known := listed.of_table own
      rw [nested, Option.all_some, Bool.and_eq_true, decide_eq_true_eq] at known
      rcases RawType.same_class known.2 with ⟨same, _⟩ | ⟨_, never⟩
      · exact .inr ⟨same, by rw [known.1]; rfl⟩
      · contradiction
    · have known := listed.of_table person
      rw [nested] at known
      contradiction

theorem orders_marks {raw : RawType} {lead marker : String}
    (place : Places (ordersWorld.Lists ⟨0, 0, 0⟩) order.target order.lead raw lead)
    (marks : ordersWorld.Marks ⟨0, 0, 0⟩ raw marker) : marker = "p_id" := by
  have computed : [ClassRef.declared "Order", .declared "Person"].all (fun cls =>
      (ordersWorld.tableFor ⟨0, 0, 0⟩ cls).all fun t => t.nullMarker.all (· = "p_id")) = true := by
    decide +kernel
  have only : ∀ cls ∈ [ClassRef.declared "Order", .declared "Person"],
      ordersWorld.Marks ⟨0, 0, 0⟩ (.cls cls) marker → marker = "p_id" := by
    rintro cls member ⟨t, known, own⟩
    have all := (Option.all_eq_true _ _).mp (List.all_eq_true.mp computed cls member) t known
    exact of_decide_eq_true ((Option.all_eq_true _ _).mp all marker own)
  rcases orders_places place with ⟨rfl, _⟩ | ⟨rfl, _⟩
  · exact only _ (by simp) marks
  · exact only _ (by simp) marks

theorem orders_irrelevant : Irrelevant standardChain (ordersWorld.Lists ⟨0, 0, 0⟩) (ordersWorld.Marks ⟨0, 0, 0⟩)
    order "total" := by
  have computed : [(ClassRef.declared "Order", ""), (.declared "Person", "p_")].all (fun place =>
      (ordersWorld.tableFor ⟨0, 0, 0⟩ place.1).all fun t => t.properties.all fun p =>
        !standardChain.usable.any (·.accepts "total" (place.2 ++ p.columnName)) &&
          p.nested.all fun nested => !standardChain.usable.any (·.liesUnder "total" (place.2 ++ nested))) = true := by
    decide +kernel
  have asked : ∀ raw lead p, Places (ordersWorld.Lists ⟨0, 0, 0⟩) order.target order.lead raw lead →
      ordersWorld.Lists ⟨0, 0, 0⟩ raw p →
        standardChain.usable.any (·.accepts "total" (lead ++ p.columnName)) = false ∧
          ∀ nested ∈ p.nested, standardChain.usable.any (·.liesUnder "total" (lead ++ nested)) = false := by
    intro raw lead p place listed
    have tests := List.all_eq_true.mp computed
    have known : (!standardChain.usable.any (·.accepts "total" (lead ++ p.columnName)) &&
        p.nested.all fun nested => !standardChain.usable.any (·.liesUnder "total" (lead ++ nested))) = true := by
      rcases orders_places place with ⟨rfl, rfl⟩ | ⟨rfl, rfl⟩
      · exact listed.of_table (tests (.declared "Order", "") (by simp))
      · exact listed.of_table (tests (.declared "Person", "p_") (by simp))
    rw [Bool.and_eq_true, Bool.not_eq_true', Option.all_eq_true] at known
    exact ⟨known.1, fun nested own => (Bool.not_eq_true' _).mp (known.2 nested own)⟩
  refine ⟨fun raw lead p place listed _ _ => ?_, fun raw lead p nested place listed _ own => ?_, ?_⟩
  · rw [MatcherChain.accepts_unbroken rfl, (asked raw lead p place listed).1]
  · rw [MatcherChain.liesUnder_unbroken rfl, (asked raw lead p place listed).2 nested own]
  · intro raw lead marker place marks
    rw [orders_marks place marks]
    decide +kernel

def orderRow : Row := ⟨["id", "p_id", "p_name"], [.int 1, .int 7, .text "x"], false⟩

def totalRow : Row := ⟨["p_name", "total", "id", "p_id"], [.text "x", .int 9, .int 1, .int 7], false⟩

def orderValue : Value := .object "Order" true [("id", .int 1), ("buyer", .object "Person" true [("name", .text "x")])]

/-- An order with a total, its columns in another order, is mapped to what it is mapped to without. -/
theorem rearranged_mapped_order :
    outcome ((RowMapper.reflective order).apply (Session.hooks Session.depth) ⟨0, 0, 0⟩) ordersWorld orderRow =
      .ok orderValue ∧
    outcome ((RowMapper.reflective order).apply (Session.hooks Session.depth) ⟨0, 0, 0⟩) ordersWorld totalRow =
      .ok orderValue := by
  have mapped : outcome ((RowMapper.reflective order).apply (Session.hooks Session.depth) ⟨0, 0, 0⟩) ordersWorld
      orderRow = .ok orderValue := rfl
  have cells : [("p_name", Value.text "x"), ("total", .int 9), ("id", .int 1), ("p_id", .int 7)].Perm
      [("id", .int 1), ("p_id", .int 7), ("p_name", .text "x"), ("total", .int 9)] :=
    @List.perm_append_comm _ [_, _] [_, _]
  have moved : Row.Rearranged [("total", .int 9)] orderRow totalRow := ⟨cells, rfl, rfl, rfl⟩
  have only : ∀ (k : Nat) (d : String), orderRow.columns[k]? = some d → Text.lower d = Text.lower "p_id" → k = 1
    | 0, _, rfl, same => absurd same (by decide +kernel)
    | 1, _, _, _ => rfl
    | 2, _, rfl, same => absurd same (by decide +kernel)
  have single : Row.Single orderRow.columns "p_id" := fun i j d e here there same same' =>
    (only i d here same).trans (only j e there same').symm
  have chained : ((ordersWorld.settings[0]?).getD default).chain = standardChain := rfl
  refine ⟨mapped, rearranged_mapped orders_realm.1 orders_realm.2 chained rfl rfl order moved
    (List.cons_ne_nil _ _) (fun e member => ?_) (fun raw lead marker place marks => ?_) mapped⟩
  · rw [List.mem_singleton.mp member]
    exact orders_irrelevant
  · rw [orders_marks place marks]
    exact single

end ReflectiveMapper
end RowMapping
