import RowMapping.Proofs.Mapper.Coupled
import RowMapping.Proofs.Mapper.Leftovers
import RowMapping.Proofs.Session.Switched

/-! The strict switches. Sessions that differ in nothing but that the second has more of its switches on map every
row to the same value, or the second refuses columns left over, or a property type without a mapper, as the
switches say. -/
namespace RowMapping

open MappingM ReflectiveMapper

def Context.among (c : Context) (ss : List Settings) : Settings := (ss[c.settings]?).getD default

/-- What settings refuse and laxer ones let pass. -/
def Settings.refusals (s : Settings) : Leniency where
  first _ := False
  second e := (s.strictMatching = true ∧ ∃ owner columns, e = .leftoverColumns owner columns) ∨
    (s.strictTypes = true ∧ ∃ owner property type, e = .noSuchMapper owner property type)

/-- The second settings have the matchers of the first, and its switches on, if not more. -/
structure Settings.Stricter (s t : Settings) : Prop where
  matchers : s.matchers = t.matchers
  matching : s.strictMatching = true → t.strictMatching = true
  types : s.strictTypes = true → t.strictTypes = true

namespace Settings.Stricter

variable {s t : Settings} (stricter : s.Stricter t)
include stricter

theorem chain : s.chain = t.chain := congrArg MatcherChain.ofEntries stricter.matchers

theorem matching_off (off : t.strictMatching = false) : s.strictMatching = false := by
  refine Bool.eq_false_iff.mpr fun on => ?_
  rw [stricter.matching on] at off
  contradiction

theorem types_off (off : t.strictTypes = false) : s.strictTypes = false := by
  refine Bool.eq_false_iff.mpr fun on => ?_
  rw [stricter.types on] at off
  contradiction

end Settings.Stricter

/-- The context is as strict in the second settings as in the first, if not stricter, and matches columns by matchers
throughout. -/
structure Context.Tightens (c : Context) (ss ts : List Settings) : Prop
    extends Settings.Stricter (c.among ss) (c.among ts) where
  unbroken : (c.among ss).chain.broken = false

/-- What comes to the same under stricter settings, or is refused by them. -/
abbrev Refined (c : Context) (ss ts : List Settings) {α : Type} (x : MappingM α) : Prop :=
  Aligned (c.among ts).refusals c ss ts x

abbrev RefinedOver (c : Context) (ss ts : List Settings) {σ α : Type} (x : StateT σ MappingM α) : Prop :=
  AlignedOver (c.among ts).refusals c ss ts x

abbrev RefinedTo (c : Context) (ss ts : List Settings) {σ α : Type} (good : α → Prop) (x : StateT σ MappingM α) :
    Prop := TogetherOver (c.among ts).refusals (World.Switched c ss ts) (fun a b => a = b ∧ good a) x x

/-- Entries that read columns by mappers that do not heed the switches. -/
def EntriesBlind (es : List Entry) : Prop := ∀ e ∈ es, e.2.Reads ColumnMapper.Blind

def FoundBlind (o : Option Plan) : Prop := ∀ p ∈ o, p.Reads ColumnMapper.Blind

theorem RefinedTo.bind {c : Context} {ss ts : List Settings} {σ α β : Type} {good : α → Prop} {fine : β → Prop}
    {x : StateT σ MappingM α} {f : α → StateT σ MappingM β} (first : RefinedTo c ss ts good x)
    (rest : ∀ a, good a → RefinedTo c ss ts fine (f a)) : RefinedTo c ss ts fine (x >>= f) :=
  TogetherOver.bind first fun a _ ⟨same, own⟩ => same ▸ rest a own

section Planning

variable {c : Context} {ss ts : List Settings} {h : Hooks} {columns : List String} {chain : MatcherChain}

theorem together_settings (tightens : c.Tightens ss ts) {l : Leniency} :
    Together l (World.Switched c ss ts) (fun s t => s.Stricter t ∧ t = c.among ts) (settings c) (settings c) := by
  rintro w _ ⟨rfl, rfl, discreet⟩
  exact .inr ⟨⟨tightens.toStricter, rfl⟩, rfl, rfl, discreet⟩

theorem refined_fallbackMapper (tightens : c.Tightens ss ts) (owner : String) (p : Property) :
    Together (c.among ts).refusals (World.Switched c ss ts) (fun x y => x = y ∧ x.Blind)
      (fallbackMapper ⟨h, c, columns, chain⟩ owner p) (fallbackMapper ⟨h, c, columns, chain⟩ owner p) := by
  unfold fallbackMapper
  refine (together_settings tightens).bind fun s t ⟨stricter, second⟩ => ?_
  have raw : Together (c.among ts).refusals (World.Switched c ss ts) (fun x y => x = y ∧ x.Blind) (do
      log .warning .mapping ("No column mapper for " ++ owner ++ "." ++ p.name ++ " of type " ++ p.type.text ++
        "; using raw column values")
      return ColumnMapper.raw) (do
      log .warning .mapping ("No column mapper for " ++ owner ++ "." ++ p.name ++ " of type " ++ p.type.text ++
        "; using raw column values")
      return ColumnMapper.raw) := (aligned_log _ _ _).bind_same fun _ => .pure ⟨rfl, trivial⟩
  dsimp only
  cases strict : t.strictTypes with
  | false =>
    rw [stricter.types_off strict]
    exact raw
  | true => exact .of_refused fun v => ⟨_, rfl, .inr ⟨second ▸ strict, _, _, _, rfl⟩⟩

theorem refined_planColumn (aligned : h.Aligned (c.among ts).refusals c ss ts) (tightens : c.Tightens ss ts)
    (m : ReflectiveMapper) (p : Property) :
    RefinedTo c ss ts (fun o => EntriesBlind o.toList) (planColumn ⟨h, c, columns, chain⟩ m p) := by
  unfold planColumn
  refine (TogetherOver.liftSame _).bind_same fun owner => (TogetherOver.liftSame _).bind_same fun found => ?_
  have taken : ∀ (index : Nat) (x : ColumnMapper), x.Blind → RefinedTo c ss ts (fun o => EntriesBlind o.toList) (do
      modify fun unread => unread.erase ((columns[index]?).getD "")
      return some (p, PlanSource.column x index) : Planning (Option Entry)) := by
    refine fun index x own => (TogetherOver.modify _).bind fun _ _ _ => .pure ⟨rfl, ?_⟩
    exact List.forall_mem_singleton.mpr (PlanSource.Reads.column own)
  cases found with
  | none => exact .pure ⟨rfl, List.forall_mem_nil _⟩
  | some index =>
    refine (TogetherOver.lift (supplied_findColumn aligned p.type.boxed)).bind fun known _ ⟨same, own⟩ => ?_
    subst same
    cases known with
    | some x => exact (taken index x (own x rfl))
    | none =>
      exact (TogetherOver.lift (refined_fallbackMapper tightens owner p)).bind fun y _ ⟨same, own⟩ =>
        same ▸ taken index y own

theorem refined_planNested {plan : Planner} (planned : ∀ m trail, RefinedTo c ss ts FoundBlind (plan m trail))
    (m : ReflectiveMapper) (trail : Trail) (p : Property) (nested : String) :
    RefinedTo c ss ts (fun o => EntriesBlind o.toList)
      (planNested ⟨h, c, columns, chain⟩ plan m trail p nested) := by
  unfold planNested
  refine (TogetherOver.liftSame _).bind_same fun under => ?_
  split
  · refine (TogetherOver.liftSame _).bind_same fun owner => ?_
    exact (TogetherOver.lift (aligned_log _ _ _)).bind_same fun _ => .pure ⟨rfl, List.forall_mem_nil _⟩
  · split
    · split
      · exact .throw _
      · exact .throw _
    · refine (TogetherOver.lift (aligned_child m p)).bind_same fun made => ?_
      refine RefinedTo.bind (planned made trail) fun found own => .pure ⟨rfl, ?_⟩
      cases found with
      | none => exact List.forall_mem_nil _
      | some sub => exact List.forall_mem_singleton.mpr (PlanSource.Reads.nested (own sub rfl))

theorem refined_planEntries (aligned : h.Aligned (c.among ts).refusals c ss ts) (tightens : c.Tightens ss ts)
    {plan : Planner} (planned : ∀ m trail, RefinedTo c ss ts FoundBlind (plan m trail)) (m : ReflectiveMapper)
    (trail : Trail) (ps : List Property) :
    RefinedTo c ss ts EntriesBlind (planEntries ⟨h, c, columns, chain⟩ plan m trail ps) := by
  induction ps with
  | nil => exact .pure ⟨rfl, List.forall_mem_nil _⟩
  | cons p ps ih =>
    have more : ∀ o : Option Entry, EntriesBlind o.toList → RefinedTo c ss ts EntriesBlind
        (do return o.toList ++ (← planEntries ⟨h, c, columns, chain⟩ plan m trail ps)) :=
      fun o own => RefinedTo.bind ih fun es rest => .pure ⟨rfl, List.forall_mem_append.mpr ⟨own, rest⟩⟩
    unfold planEntries
    split
    · exact ih
    · split
      · exact RefinedTo.bind (refined_planColumn aligned tightens m p) more
      · exact RefinedTo.bind (refined_planNested planned m trail p _) more

theorem refined_planWithin (aligned : h.Aligned (c.among ts).refusals c ss ts) (tightens : c.Tightens ss ts)
    (fuel : Nat) (m : ReflectiveMapper) (trail : Trail) :
    RefinedTo c ss ts FoundBlind (planWithin ⟨h, c, columns, chain⟩ fuel m trail) := by
  -- Sub-objects are planned with one less, by the planner that `planEntries` is given.
  induction fuel generalizing m trail with
  | zero => exact .throw _
  | succ fuel ih =>
    unfold planWithin
    split
    · refine (TogetherOver.liftSame _).bind_same fun owner => ?_
      exact (TogetherOver.throw (S := fun _ _ => False) _).bind fun _ _ never => never.elim
    · refine (TogetherOver.lift (aligned_table c m.target)).bind_same fun found => ?_
      cases found with
      | none => exact (TogetherOver.liftSame _).bind_same fun owner => .throw _
      | some table =>
        refine RefinedTo.bind (refined_planEntries aligned tightens ih m _ _) fun entries own => ?_
        split
        · exact .pure ⟨rfl, by rintro _ ⟨⟩⟩
        · refine .pure ⟨rfl, ?_⟩
          rintro _ ⟨⟩
          exact .mk fun e member => own e ((ordered_perm entries).mem_iff.mp member)

theorem refined_draft (aligned : h.Aligned (c.among ts).refusals c ss ts) (tightens : c.Tightens ss ts)
    (m : ReflectiveMapper) (columns : List String) :
    Together (c.among ts).refusals (World.Switched c ss ts) (fun a b => a = b ∧ FoundBlind a.1)
      (m.draft h c columns) (m.draft h c columns) := by
  unfold draft
  refine (together_settings tightens).bind fun s t ⟨stricter, _⟩ => ?_
  rw [stricter.chain]
  refine (aligned_get World.schema fun _ _ => rfl).bind fun w v schema => ?_
  rw [schema]
  exact (refined_planWithin aligned tightens _ m [] columns).mono fun a b same => ⟨Prod.ext same.1.1 same.2, same.1.2⟩

theorem refined_refuseLeftover (tightens : c.Tightens ss ts) (m : ReflectiveMapper) {owner : String}
    (named : m.typeName = .ok owner) (unread : List String) :
    Refined c ss ts (refuseLeftover c (c.among ss).chain m unread) := by
  unfold refuseLeftover
  rw [leftover_unbroken tightens.unbroken, named]
  refine (together_settings tightens).bind fun s t ⟨stricter, second⟩ => ?_
  cases strict : t.strictMatching with
  | false =>
    rw [stricter.matching_off strict]
    exact .pure rfl
  | true =>
    cases left : (unread.filter fun name => (c.among ss).chain.usable.any (·.liesUnder name m.lead)) with
    | nil =>
      cases s.strictMatching with
      | false => exact .pure rfl
      | true => exact .pure rfl
    | cons name names =>
      exact .of_refused fun v => ⟨_, rfl, .inl ⟨second ▸ strict, _, _, rfl⟩⟩

theorem refined_conclude (tightens : c.Tightens ss ts) (m : ReflectiveMapper) (columns : List String)
    {drafted : Option Plan × List String} (named : ∀ p ∈ drafted.1, m.target.class?.isSome)
    (blind : FoundBlind drafted.1) :
    Together (c.among ts).refusals (World.Switched c ss ts) (fun p q => p = q ∧ p.Reads ColumnMapper.Blind)
      (conclude c (c.among ss).chain m columns drafted) (conclude c (c.among ss).chain m columns drafted) := by
  obtain ⟨_ | p, unread⟩ := drafted
  · exact (Together.liftSame _).bind_same fun owner => .throw _
  · obtain ⟨owner, name⟩ := typeName_of_class (named p rfl)
    refine (refined_refuseLeftover tightens m name unread).bind_same fun _ => ?_
    refine (Together.liftSame _).bind_same fun _ => (aligned_log _ _ _).bind_same fun _ => ?_
    exact .pure ⟨rfl, blind p rfl⟩

/-- Specialization under stricter settings makes the same plan, or refuses it. -/
theorem refined_specialize (aligned : h.Aligned (c.among ts).refusals c ss ts) (tightens : c.Tightens ss ts)
    (m : ReflectiveMapper) (columns : List String) :
    Together (c.among ts).refusals (World.Switched c ss ts) (fun p q => p = q ∧ p.Reads ColumnMapper.Blind)
      (m.specialize h c columns) (m.specialize h c columns) := by
  have drafted : Together (c.among ts).refusals (World.Switched c ss ts)
      (fun a b => (a = b ∧ FoundBlind a.1) ∧ ∀ p ∈ a.1, m.target.class?.isSome) (m.draft h c columns)
      (m.draft h c columns) := by
    refine (refined_draft aligned tightens m columns).along fun w (o, unread) drafted => ?_
    exact (drawn_draft (u := ((m.draft h c columns).run w).2) (Prod.ext drafted rfl)).named
  have concluded : Together (c.among ts).refusals (World.Switched c ss ts)
      (fun p q => p = q ∧ p.Reads ColumnMapper.Blind) (m.draft h c columns >>= conclude c (c.among ss).chain m columns)
      (m.draft h c columns >>= conclude c (c.among ss).chain m columns) := by
    refine drafted.bind fun a b ⟨⟨same, blind⟩, named⟩ => ?_
    subst same
    exact refined_conclude tightens m columns named blind
  rintro w _ ⟨rfl, rfl, discreet⟩
  have chains : ((ts[c.settings]?).getD default : Settings).chain = (c.among w.settings).chain := tightens.chain.symm
  rw [run_specialize_draft, run_specialize_draft, chains]
  exact concluded _ _ ⟨rfl, rfl, discreet⟩

end Planning

/-! ### Mapping -/

section Mapping

variable {c : Context} {ss ts : List Settings} {h : Hooks} {l : Leniency}

theorem aligned_conversant (aligned : h.Aligned l c ss ts) (tightens : c.Tightens ss ts) :
    Conversant l (World.Switched c ss ts) (fun s t => s.matchers = t.matchers) h h c c where
  settings := (together_settings tightens).mono fun _ _ both => both.1.matchers
  columnFor key := (aligned.findColumn key).mono fun _ _ both => congrArg Option.isSome both.1
  rowFor key := (aligned.findRow key).mono fun _ _ both => congrArg Option.isSome both.1
  column := aligned.column
  row := aligned.row

/-- What a mapper of the caller computes depends on no switches, counts of its calls included. -/
theorem aligned_run (aligned : h.Aligned l c ss ts) (tightens : c.Tightens ss ts)
    {delegate : TypeExpr → Reading Value} (delegates : ∀ type, AlignedOver l c ss ts (delegate type))
    {m : CustomMapper} (blind : m.Blind) (index : Option Int) : AlignedOver l c ss ts (m.run h c delegate index) := by
  by_cases counts : m.spec.behaviour = .count
  · unfold CustomMapper.run CustomMapper.compute
    rw [counts]
    split
    · exact .throw _
    · exact (TogetherOver.lift (aligned_count m)).bind_same fun _ => .pure rfl
  · exact (aligned_conversant aligned tightens).run delegates blind counts index

theorem aligned_applies (aligned : h.Aligned l c ss ts) (tightens : c.Tightens ss ts) :
    Applies l (World.Switched c ss ts) ColumnMapper.Blind h h c c where
  schema w v worlds := by rw [worlds.second]
  column m blind index := by
    have schemas : ∀ w v, World.Switched c ss ts w v → w.schema = v.schema := fun w v worlds => by rw [worlds.second]
    cases m with
    | custom f =>
      refine together_schema schemas fun w v _ => ?_
      have delegates := (aligned_conversant aligned tightens).columnOver index
      exact aligned_run aligned tightens delegates blind (some index)
    | misplaced m => exact together_schema schemas fun w v _ => .throw _
    | value origin target =>
      exact together_library (m := .value origin target) schemas h h c c trivial index
    | array serial container origin element =>
      exact together_library (m := .array serial container origin element) schemas h h c c trivial index
    | raw => exact together_columnOf index

theorem refined_apply (aligned : h.Aligned (c.among ts).refusals c ss ts) (tightens : c.Tightens ss ts)
    {m : RowMapper} (blind : m.Blind) : RefinedOver c ss ts (m.apply h c) := by
  have applies := aligned_applies aligned tightens
  cases m with
  | single serial mapper index => exact applies.column mapper blind index
  | reflective m =>
    refine TogetherOver.get.bind_same fun row => ?_
    refine (TogetherOver.lift (refined_specialize aligned tightens m row.columns)).bind fun p _ ⟨same, reads⟩ => ?_
    subst same
    exact applies.plan reads
  | planned serial p => exact applies.plan blind
  | custom m => exact aligned_run aligned tightens (aligned_conversant aligned tightens).rowOver blind m.spec.index
  | misplaced m => exact .throw _

theorem refined_hooks (tightens : c.Tightens ss ts) (depth : Nat) :
    (Session.hooks depth).Aligned (c.among ts).refusals c ss ts := by
  induction depth with
  | zero =>
    exact ⟨rfl, fun _ => .throw _, fun _ => .throw _, fun _ _ _ => .throw _, fun _ _ => .throw _⟩
  | succ depth ih =>
    have applies := aligned_applies ih tightens
    refine ⟨rfl, supplied_findColumn ih, supplied_findRow ih, fun type index row => ?_, fun type row => ?_⟩
    · refine (supplied_findColumn ih (.of type)).bind fun found own => ?_
      cases found with
      | none => exact .pure rfl
      | some m => exact (applies.column m (own m rfl) index row).mono fun _ _ same => Prod.ext same.1 same.2
    · refine (supplied_findRow ih (.of type)).bind fun found own => ?_
      cases found with
      | none => exact .pure rfl
      | some m => exact (refined_apply ih tightens (own m rfl) row).mono fun _ _ same => Prod.ext same.1 same.2

theorem refined_run' {x : Reading Value} (refined : RefinedOver c ss ts x) (row : Row) :
    Refined c ss ts (x.run' row) := by
  rw [StateT.run'_eq, map_eq_pure_bind]
  exact (refined row).bind fun _ _ same => .pure same.1

theorem refined_mapOne (tightens : c.Tightens ss ts) (depth : Nat) (type : Descriptor) (row : Row) :
    Refined c ss ts (Session.mapOne (Session.hooks depth) c type row) := by
  have aligned := refined_hooks tightens depth
  refine (supplied_requireRow aligned type).bind fun m _ ⟨same, blind⟩ => ?_
  subst same
  exact refined_run' (refined_apply aligned tightens blind) row

end Mapping

/-! ### The four settings of the switches -/

def World.switched (w : World) (c : Context) (matching types : Bool) : World :=
  { w with
    settings := w.settings.modify c.settings fun s => { s with strictMatching := matching, strictTypes := types } }

/-- Switches that do nothing but refuse. What comes with both of them on comes with any; what comes with both of them
off comes with any, unless the first is on and refuses columns left over, or the second is on and refuses a property
type without a mapper. -/
def OnlyRefuse {α : Type} (come : Bool → Bool → Except Failure α) : Prop :=
  (∀ v, come true true = .ok v → ∀ matching types, come matching types = .ok v) ∧
  ∀ v, come false false = .ok v → ∀ matching types, come matching types = .ok v ∨
    (matching = true ∧ ∃ owner columns, come matching types = .error (.leftoverColumns owner columns)) ∨
    (types = true ∧ ∃ owner property type, come matching types = .error (.noSuchMapper owner property type))

section Switches

variable {w : World} {c : Context}

theorem among_switched (matching types : Bool) :
    c.among (w.switched c matching types).settings =
      ((w.settings[c.settings]?).map fun s => { s with strictMatching := matching, strictTypes := types }).getD
        default := by
  rw [Context.among, World.switched, List.getElem?_modify_eq]
  rfl

theorem tightens_switched (unbroken : (c.among w.settings).chain.broken = false)
    {matching types matching' types' : Bool}
    (first : matching = true → matching' = true) (second : types = true → types' = true) :
    c.Tightens (w.switched c matching types).settings (w.switched c matching' types').settings := by
  rw [Context.among] at unbroken
  constructor
  · rw [among_switched, among_switched]
    cases w.settings[c.settings]? with
    | none => exact ⟨rfl, id, id⟩
    | some s => exact ⟨rfl, first, second⟩
  · rw [among_switched]
    cases known : w.settings[c.settings]? with
    | none => rfl
    | some s =>
      rw [known] at unbroken
      exact unbroken

theorem refusals_switched {matching types : Bool} {e : Failure}
    (refused : (c.among (w.switched c matching types).settings).refusals.second e) :
    (matching = true ∧ ∃ owner columns, e = .leftoverColumns owner columns) ∨
      (types = true ∧ ∃ owner property type, e = .noSuchMapper owner property type) := by
  rw [among_switched] at refused
  cases known : w.settings[c.settings]? with
  | none =>
    rw [known] at refused
    rcases refused with ⟨never, _⟩ | ⟨never, _⟩
    · contradiction
    · contradiction
  | some s =>
    rw [known] at refused
    exact refused

theorem onlyRefuse_of_refined {α : Type} {x : MappingM α}
    (refined : ∀ ss ts, c.Tightens ss ts → Refined c ss ts x)
    (discreet : ((w.registries[c.registry]?).getD default).Discreet)
    (unbroken : (c.among w.settings).chain.broken = false) :
    OnlyRefuse fun matching types => (x.run (w.switched c matching types)).1 := by
  have compared : ∀ matching types matching' types' : Bool, (matching = true → matching' = true) →
      (types = true → types' = true) →
      (∃ e, (x.run (w.switched c matching' types')).1 = .error e ∧
          (c.among (w.switched c matching' types').settings).refusals.second e) ∨
        (x.run (w.switched c matching types)).1 = (x.run (w.switched c matching' types')).1 := by
    intro matching types matching' types' first second
    have together := refined _ _ (tightens_switched (w := w) unbroken first second)
    rcases together _ _ ⟨rfl, rfl, discreet⟩ with (⟨_, _, never⟩ | refused) | ⟨outcomes, _⟩
    · exact never.elim
    · exact .inl refused
    · exact .inr outcomes.eq
  constructor
  · intro v came matching types
    rcases compared matching types true true (fun _ => rfl) (fun _ => rfl) with ⟨e, failed, _⟩ | same
    · cases came.symm.trans failed
    · exact same.trans came
  · intro v came matching types
    rcases compared false false matching types (fun never => nomatch never) (fun never => nomatch never) with
      ⟨e, failed, refused⟩ | same
    · rcases refusals_switched refused with ⟨on, owner, columns, rfl⟩ | ⟨on, owner, property, type, rfl⟩
      · exact .inr (.inl ⟨on, owner, columns, failed⟩)
      · exact .inr (.inr ⟨on, owner, property, type, failed⟩)
    · exact .inl (same.symm.trans came)

end Switches

/-- In a context of matchers whose factories run no commands and whose mappers do not heed the switches, the strict
switches do nothing but refuse: not of what a reflective mapper makes of a row, and not of what mapping the row to a
type comes to. -/
theorem switches_only_refuse {w : World} {c : Context} (discreet : ((w.registries[c.registry]?).getD default).Discreet)
    (matchers : ((w.settings[c.settings]?).getD default).chain.broken = false) (depth : Nat) (m : ReflectiveMapper)
    (type : Descriptor) (row : Row) :
    OnlyRefuse (fun matching types =>
        outcome ((RowMapper.reflective m).apply (Session.hooks depth) c) (w.switched c matching types) row) ∧
      OnlyRefuse (fun matching types =>
        ((Session.mapOne (Session.hooks depth) c type row).run (w.switched c matching types)).1) := by
  constructor
  · have applied : ∀ ss ts, c.Tightens ss ts →
        Refined c ss ts (((RowMapper.reflective m).apply (Session.hooks depth) c).run' row) :=
      fun ss ts tightens =>
        refined_run' (refined_apply (m := .reflective m) (refined_hooks tightens depth) tightens trivial) row
    have only := onlyRefuse_of_refined applied discreet matchers
    simp only [run'_run] at only
    exact only
  · exact onlyRefuse_of_refined (fun ss ts tightens => refined_mapOne tightens depth type row) discreet matchers

def parcels : Schema := .declare
  [⟨"Label", [], none, .record [] none⟩,
    ⟨"Parcel", [], none, .record [{ name := "id", type := .cls (.builtin .int) },
      { name := "label", type := .cls (.declared "Label"), fallback := some (.value .null) }] none⟩]

def matchedReader : CustomMapper where
  serial := 90
  step := 0
  wrapped := true
  spec :=
    { form := .object
      name := none
      behaviour := .written fun i => .ask .settings fun s => .ask (.value (i.getD 0)) fun v =>
        .yield (if s.matchers.isEmpty then .null else v)
      index := none
      returns := none
      handover := .absent }

theorem blind_matchedReader : matchedReader.Blind :=
  fun _ => .settings fun _ _ same => .ask (fun never => nomatch never) fun _ => same ▸ .yield _

def parcelsWorld : World :=
  let w := (Session.start parcels [] ⟨.fresh true, none, []⟩).toOption.getD default
  { w with registries :=
      [(Session.reflectiveRegistry 0).registerColumn (.fixed (.of (.cls (.builtin .int))) (.custom matchedReader))] }

def parcel : Descriptor := .of (.cls (.declared "Parcel"))

def labelled : Row := ⟨["id", "shelf", "label"], [.text "7", .text "B", .text "fragile"], false⟩

def parcelOf (row : Row) (matching types : Bool) : Except Failure Value :=
  ((Session.mapOne (Session.hooks Session.depth) ⟨0, 0, 0⟩ parcel row).run
    (parcelsWorld.switched ⟨0, 0, 0⟩ matching types)).1

theorem discreet_parcels : ((parcelsWorld.registries[0]?).getD default).Discreet where
  rows f member := by
    cases List.mem_singleton.mp member
    trivial
  columns f member := by
    rcases List.mem_cons.mp member with rfl | member
    · exact blind_matchedReader
    · rcases List.mem_pair.mp member with rfl | rfl
      · trivial
      · trivial
  keptRows e never := nomatch never
  keptColumns e never := nomatch never

/-- A parcel without its label comes to one value. A shelf that is no property is refused by the first switch, and a
label by the second. -/
theorem switches_only_refuse_parcel :
    (∃ v, ∀ matching types, parcelOf ⟨["id"], [.text "7"], false⟩ matching types = .ok v) ∧
      (∃ v, parcelOf labelled false false = .ok v) ∧
      (∃ owner columns, parcelOf labelled true false = .error (.leftoverColumns owner columns)) ∧
      ∃ owner property type, parcelOf labelled false true = .error (.noSuchMapper owner property type) := by
  have only : ∀ row, OnlyRefuse (parcelOf row) := fun row =>
    (switches_only_refuse (w := parcelsWorld) (c := ⟨0, 0, 0⟩) discreet_parcels rfl Session.depth default parcel row).2
  have ready : (parcelOf ⟨["id"], [.text "7"], false⟩ true true).toOption.isSome = true := by decide +kernel
  have lax : (parcelOf labelled false false).toOption.isSome = true := by decide +kernel
  have refused : (parcelOf labelled true false).toOption = none ∧ (parcelOf labelled false true).toOption = none := by
    simp only [← Option.isNone_iff_eq_none]
    decide +kernel
  obtain ⟨v, mapped⟩ := Option.isSome_iff_exists.mp ready
  obtain ⟨u, passed⟩ := Option.isSome_iff_exists.mp lax
  have came : parcelOf labelled false false = .ok u := congrArg Prod.fst (run_of_toOption passed)
  refine ⟨⟨v, (only _).1 v (congrArg Prod.fst (run_of_toOption mapped))⟩, ⟨u, came⟩, ?_, ?_⟩
  · rcases (only labelled).2 u came true false with same | ⟨_, left⟩ | ⟨never, _⟩
    · rw [same] at refused
      cases refused.1
    · exact left
    · cases never
  · rcases (only labelled).2 u came false true with same | ⟨never, _⟩ | ⟨_, unmapped⟩
    · rw [same] at refused
      cases refused.2
    · cases never
    · exact unmapped

end RowMapping
