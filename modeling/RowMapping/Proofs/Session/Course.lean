import RowMapping.Proofs.Session.Leads
import RowMapping.Proofs.Types.Sameness

/-! The course of a session: look-ups, plans, mappings and commands lead from a world only to worlds
that a course admits, if the hooks and the keeping of found mappers do. -/
namespace RowMapping

open MappingM

namespace Course

variable {R : World → World → Prop} (course : Course R)
include course

/-! ### The state -/

theorem fresh : Leads R fresh := fun _ => course.aside rfl rfl rfl

theorem note (s : String) : Leads R (note s) := fun _ => course.aside rfl rfl rfl

theorem log (level : LogLevel) (logger : Logger) (text : String) :
    Leads R (log level logger text) := by
  intro w
  show R w (if _ then _ else _)
  split
  · exact course.aside rfl rfl rfl
  · exact course.refl w

theorem context (name : String) : Leads R (context name) := by
  refine course.bind course.get fun w => ?_
  split
  · exact course.pure _
  · exact course.throw _

theorem nameContext (name : String) (c : Context) : Leads R (nameContext name c) :=
  fun _ => course.aside rfl rfl rfl

theorem registry (c : Context) : Leads R (registry c) :=
  course.bind course.get fun _ => course.pure _

theorem tables (c : Context) : Leads R (tables c) := course.bind course.get fun _ => course.pure _

theorem settings (c : Context) : Leads R (settings c) :=
  course.bind course.get fun _ => course.pure _

theorem changeSettings (c : Context) (f : Settings → Settings) : Leads R (changeSettings c f) :=
  fun _ => course.aside rfl rfl rfl

theorem addSettings (s : Settings) : Leads R (addSettings s) := fun _ => course.aside rfl rfl rfl

theorem saved (name : String) : Leads R (saved name) := by
  refine course.bind course.get fun w => ?_
  split
  · exact course.pure _
  · exact course.throw _

theorem save (name : String) (m : RowMapper) : Leads R (save name m) :=
  fun _ => course.aside rfl rfl rfl

theorem derive? (c : Context) {w : World} {n : String} {cls : Class}
    (known : w.schema.find? n = some cls) : R w ((derive? c cls).run w).2 := by
  unfold MappingM.derive?
  rw [run_bind_ok (run_get w), run_bind_ok (run_get w)]
  cases told : PropertyTable.describe w.schema w.next cls with
  | error e => exact course.refl w
  | ok o =>
    cases o with
    | none => exact course.refl w
    | some t =>
      refine course.trans (v := { w with next := w.next + 1 }) (course.aside rfl rfl rfl) ?_
      exact course.change (.derived (w := { w with next := w.next + 1 }) c.tables known told)

theorem table? (c : Context) (raw : RawType) : Leads R (table? c raw) := by
  unfold MappingM.table?
  refine course.bind (course.tables c) fun ts => ?_
  split
  · exact course.pure _
  · exact course.pure _
  · next n _ =>
    intro w
    rw [run_bind_ok (run_get w)]
    split
    · exact course.refl w
    · next cls known =>
      split
      · exact course.refl w
      · exact course.derive? c known

/-! ### Look-ups -/

variable {h : Hooks} (lead : h.Lead R)

section Lookups

include lead

theorem askCustom (f : CustomFactory) (key : Descriptor) :
    Leads R (Registry.askCustom h f key) := by
  unfold Registry.askCustom
  refine course.bind (course.note _) fun _ => ?_
  split
  · refine course.bind course.get fun w => ?_
    dsimp only
    split
    · refine course.bind (fun _ => course.aside rfl rfl rfl) fun _ => ?_
      exact course.bind (lead.perform _) fun _ => course.pure _
    · exact course.pure _
  · exact course.pure _

theorem follow {Mapper : Type} (c : Context) (p : Procedure Command Mapper) :
    Leads R (Registry.follow h c p) := by
  induction p with
  | answer m => exact course.pure _
  | raise r => exact course.throw _
  | column type next ih => exact course.bind (lead.findColumn c type) ih
  | row type next ih => exact course.bind (lead.findRow c type) ih
  | perform commands next ih =>
    exact course.bind course.fresh fun n => course.bind (lead.perform _) fun _ => ih

end Lookups

def Element (R : World → World → Prop) (element : Option (MappingM (Option ColumnMapper))) : Prop :=
  ∀ x ∈ element, Leads R x

theorem arrayFrom (container : Builtin) (found : Option ColumnMapper) :
    Leads R (Registry.arrayFrom container found) := by
  unfold Registry.arrayFrom
  split
  · exact course.bind course.fresh fun _ => course.pure _
  · exact course.pure _

theorem arrayOf (key : Descriptor) {element : Option (MappingM (Option ColumnMapper))}
    (he : Element R element) : Leads R (Registry.arrayOf key element) := by
  unfold Registry.arrayOf
  split
  · exact course.bind (he _ rfl) (course.arrayFrom _)
  · exact course.pure _

theorem scalarOf (origin : Nat) (key : Descriptor) : Leads R (Registry.scalarOf origin key) := by
  unfold Registry.scalarOf
  split
  · refine course.bind course.get fun w => ?_
    split
    · exact course.pure _
    · exact course.pure _
  · exact course.pure _

theorem reflectiveFor (c : Context) (targets : Option (List RawType)) (lead : String)
    (key : Descriptor) : Leads R (Registry.reflectiveFor c targets lead key) := by
  unfold Registry.reflectiveFor
  split
  · refine course.bind (course.table? c key.raw) fun found => ?_
    split
    · exact course.bind course.fresh fun _ => course.pure _
    · exact course.pure _
  · exact course.pure _

theorem askColumn (lead : h.Lead R) (c : Context) (key : Descriptor)
    {element : Option (MappingM (Option ColumnMapper))} (he : Element R element)
    (f : ColumnFactory) : Leads R (Registry.askColumn h c key element f) := by
  cases f with
  | scalars origin => exact course.scalarOf origin key
  | arrays => exact course.arrayOf key he
  | fixed target mapper => exact course.pure _
  | custom f => exact course.bind (course.askCustom lead f key) fun _ => course.pure _
  | written name ask => exact course.follow lead c (ask key)
  | reflective targets lead =>
    exact course.bind (course.reflectiveFor c targets lead key) fun _ => course.pure _

theorem scan {Factory Mapper : Type} {ask : Factory → MappingM (Option Mapper)}
    (asked : ∀ f, Leads R (ask f)) (fs : List Factory) : Leads R (Chain.scan ask fs) := by
  induction fs with
  | nil => exact course.pure _
  | cons f fs ih =>
    refine course.bind (asked f) fun found => ?_
    split
    · exact course.pure _
    · exact ih

theorem askRow (lead : h.Lead R) (c : Context) (key : Descriptor)
    (he : Element R (Registry.findElement h c key.args)) (f : RowFactory) :
    Leads R (Registry.askRow h c key f) := by
  cases f with
  | reflective targets lead =>
    exact course.bind (course.reflectiveFor c targets lead key) fun _ => course.pure _
  | fixed target mapper => exact course.pure _
  | custom f => exact course.bind (course.askCustom lead f key) fun _ => course.pure _
  | written name ask => exact course.follow lead c (ask key)
  | scalars origin => exact course.bind (course.scalarOf origin key) fun _ => course.pure _
  | arrays => exact course.bind (course.arrayOf key he) fun _ => course.pure _

omit course in
theorem element_of_column {c : Context}
    (column : ∀ key nullable, Leads R (Registry.findColumnAs h c key nullable))
    (args : List Descriptor) : Element R (Registry.findElement h c args) := by
  cases args with
  | nil => simp [Element, Registry.findElement]
  | cons d ds =>
    rintro x ⟨⟩
    exact column d true

theorem recordColumn {c : Context} {generation : Nat} {key : Descriptor}
    (kept : ∀ m, Leads R (Registry.keepColumn c generation key m)) (found : Option ColumnMapper) :
    Leads R (Registry.recordColumn c generation key found) := by
  cases found with
  | none => exact course.log _ _ _
  | some m => exact course.bind (kept m) fun _ => course.log _ _ _

theorem resolveColumn (lead : h.Lead R) {c : Context}
    (kept : ∀ generation key m, Leads R (Registry.keepColumn c generation key m))
    (key : Descriptor) {element : Option (MappingM (Option ColumnMapper))}
    (he : Element R element) : Leads R (Registry.resolveColumn h c key element) := by
  refine course.bind (course.registry c) fun r => ?_
  dsimp only
  split
  · exact course.pure _
  · refine course.bind (course.scan (course.askColumn lead c key he) _) fun found => ?_
    exact course.bind (course.recordColumn (kept _ key) found) fun _ => course.pure _

/-- Column look-ups lead where a course admits if what they keep does. -/
theorem findColumnAs (lead : h.Lead R) {c : Context}
    (kept : ∀ generation key m, Leads R (Registry.keepColumn c generation key m))
    (key : Descriptor) (nullable : Bool) : Leads R (Registry.findColumnAs h c key nullable) := by
  induction key using Descriptor.induct_args generalizing nullable with
  | step key ih =>
  obtain ⟨raw, args, admitted⟩ := key
  refine course.resolveColumn lead kept _ ?_
  cases args with
  | nil => simp [Element, Registry.findElement]
  | cons d ds =>
    rintro x ⟨⟩
    exact ih d List.mem_cons_self true

theorem singleFor {c : Context} {key : Descriptor}
    (column : Leads R (Registry.findColumn h c key)) : Leads R (Registry.singleFor h c key) := by
  refine course.bind column fun found => ?_
  split
  · exact course.bind course.fresh fun _ => course.pure _
  · exact course.pure _

theorem buildRow (lead : h.Lead R) {c : Context}
    (column : ∀ key nullable, Leads R (Registry.findColumnAs h c key nullable))
    (key : Descriptor) (fs : List RowFactory) : Leads R (Registry.buildRow h c key fs) := by
  have asked := course.askRow lead c key (element_of_column column key.args)
  refine course.bind (course.scan asked fs) fun found => ?_
  split
  · exact course.pure _
  · exact course.singleFor (column key key.nullable)

theorem recordRow {c : Context} {key : Descriptor}
    (kept : ∀ m, Leads R (Registry.keepRow c key m)) (found : Option RowMapper) :
    Leads R (Registry.recordRow c key found) := by
  cases found with
  | none => exact course.log _ _ _
  | some m => exact course.bind (kept m) fun _ => course.log _ _ _

theorem findRow (lead : h.Lead R) {c : Context}
    (column : ∀ key nullable, Leads R (Registry.findColumnAs h c key nullable))
    (kept : ∀ key m, Leads R (Registry.keepRow c key m)) (key : Descriptor) :
    Leads R (Registry.findRow h c key) := by
  refine course.bind (course.registry c) fun r => ?_
  dsimp only
  split
  · exact course.pure _
  · refine course.bind (course.buildRow lead column key _) fun found => ?_
    exact course.bind (course.recordRow (kept key) found) fun _ => course.pure _

end Course

structure Registry.Lead (R : World → World → Prop) (h : Hooks) : Prop where
  column : ∀ c key nullable, Leads R (Registry.findColumnAs h c key nullable)
  row : ∀ c key, Leads R (Registry.findRow h c key)

theorem Registry.Lead.findColumn {R : World → World → Prop} {h : Hooks} (lookup : Registry.Lead R h)
    (c : Context) (key : Descriptor) : Leads R (Registry.findColumn h c key) :=
  lookup.column c key key.nullable

namespace Course

variable {R : World → World → Prop} (course : Course R) {h : Hooks}
include course

theorem requireRow (lookup : Registry.Lead R h) (c : Context) (key : Descriptor) :
    Leads R (Registry.requireRow h c key) := by
  refine course.bind (lookup.row c key) fun found => ?_
  split
  · exact course.pure _
  · exact course.throw _

/-! ### Plans -/

section Plans

open ReflectiveMapper

variable {s : Scope}

theorem fallbackMapper (owner : String) (p : Property) :
    Leads R (ReflectiveMapper.fallbackMapper s owner p) := by
  refine course.bind (course.settings s.context) fun _ => ?_
  split
  · exact course.bind (course.throw _) fun _ => course.bind (course.log _ _ _) fun _ => course.pure _
  · exact course.bind (course.log _ _ _) fun _ => course.pure _

theorem planColumn (lookup : Registry.Lead R s.hooks) (m : ReflectiveMapper) (p : Property) :
    LeadsOver R (ReflectiveMapper.planColumn s m p) := by
  refine course.bindOver (course.liftOver (course.lift _)) fun owner => ?_
  refine course.bindOver (course.liftOver (course.lift _)) fun found => ?_
  split
  · exact course.pureOver _
  · refine course.bindOver (course.liftOver (lookup.findColumn _ _)) fun mapper => ?_
    split
    · refine course.bindOver (course.pureOver _) fun _ => ?_
      exact course.bindOver (course.modifyOver _) fun _ => course.pureOver _
    · refine course.bindOver (course.liftOver (course.fallbackMapper _ _)) fun _ => ?_
      exact course.bindOver (course.modifyOver _) fun _ => course.pureOver _

omit course in
def PlannerLeads (R : World → World → Prop) (plan : Planner) : Prop :=
  ∀ m trail, LeadsOver R (plan m trail)

theorem child (m : ReflectiveMapper) (p : Property) : Leads R (ReflectiveMapper.child m p) := by
  unfold ReflectiveMapper.child
  refine course.bind course.get fun w => ?_
  split
  · exact course.pure _
  · refine course.bind course.fresh fun _ => ?_
    exact course.bind (fun _ => course.aside rfl rfl rfl) fun _ => course.pure _

theorem planNested {plan : Planner} (planned : PlannerLeads R plan) (m : ReflectiveMapper)
    (trail : Trail) (p : Property) (nested : String) :
    LeadsOver R (ReflectiveMapper.planNested s plan m trail p nested) := by
  refine course.bindOver (course.liftOver (course.lift _)) fun under => ?_
  split
  · refine course.bindOver (course.liftOver (course.lift _)) fun _ => ?_
    exact course.bindOver (course.liftOver (course.log _ _ _)) fun _ => course.pureOver _
  · split
    · split
      · exact course.throwOver _
      · exact course.throwOver _
    · refine course.bindOver (course.liftOver (course.child _ _)) fun made => ?_
      exact course.bindOver (planned made trail) fun _ => course.pureOver _

theorem planEntries (lookup : Registry.Lead R s.hooks) {plan : Planner}
    (planned : PlannerLeads R plan) (m : ReflectiveMapper) (trail : Trail) (ps : List Property) :
    LeadsOver R (ReflectiveMapper.planEntries s plan m trail ps) := by
  induction ps with
  | nil => exact course.pureOver _
  | cons p ps ih =>
    unfold ReflectiveMapper.planEntries
    split
    · exact ih
    · split
      · refine course.bindOver (course.planColumn lookup m p) fun _ => ?_
        exact course.bindOver ih fun _ => course.pureOver _
      · refine course.bindOver (course.planNested planned m trail p _) fun _ => ?_
        exact course.bindOver ih fun _ => course.pureOver _

theorem planWithin (lookup : Registry.Lead R s.hooks) (fuel : Nat) :
    PlannerLeads R (ReflectiveMapper.planWithin s fuel) := by
  induction fuel with
  | zero => exact fun _ _ => course.throwOver _
  | succ fuel ih =>
    intro m trail
    unfold ReflectiveMapper.planWithin
    split
    · exact course.bindOver (course.liftOver (course.lift _)) fun _ => course.throwOver _
    · refine course.bindOver (course.liftOver (course.table? _ _)) fun table => ?_
      split
      · exact course.bindOver (course.liftOver (course.lift _)) fun _ => course.throwOver _
      · refine course.bindOver (course.planEntries lookup ih _ _ _) fun entries => ?_
        split
        · exact course.pureOver _
        · exact course.pureOver _

theorem refuseLeftover (c : Context) (chain : MatcherChain) (m : ReflectiveMapper)
    (unread : List String) : Leads R (ReflectiveMapper.refuseLeftover c chain m unread) := by
  refine course.bind (course.settings c) fun st => ?_
  split
  · refine course.bind (course.lift _) fun left => ?_
    split
    · exact course.bind (course.lift _) fun _ => course.throw _
    · exact course.pure _
  · exact course.pure _

theorem specializeReflective (lookup : Registry.Lead R h) (c : Context) (m : ReflectiveMapper)
    (columns : List String) : Leads R (m.specialize h c columns) := by
  refine course.bind (course.settings c) fun st => course.bind course.get fun w => ?_
  refine course.bind (course.planWithin lookup _ m [] columns) fun planned => ?_
  split
  split
  · exact course.bind (course.lift _) fun _ => course.throw _
  · refine course.bind (course.refuseLeftover c _ m _) fun _ => course.bind (course.lift _) fun _ => ?_
    exact course.bind (course.log _ _ _) fun _ => course.pure _

end Plans

/-! ### Mappings -/

theorem columnOf (index : Int) : LeadsOver R (Reading.column index) := by
  refine course.bindOver course.getOver fun row => ?_
  refine course.bindOver (course.liftOver (course.lift _)) fun read => ?_
  exact course.bindOver (course.setOver _) fun _ => course.pureOver _

theorem wasNull : LeadsOver R Reading.wasNull :=
  course.bindOver course.getOver fun _ => course.pureOver _

theorem requireIndex (i : Option Int) : LeadsOver R (requireIndex i) := by
  cases i with
  | none => exact course.throwOver _
  | some i => exact course.pureOver _

section Customs

variable (lead : h.Lead R) (c : Context)
include lead

theorem put (q : Question) : LeadsOver R (q.put h c) := by
  cases q with
  | value index => exact course.columnOf index
  | wasNull => exact course.wasNull
  | columns => exact course.bindOver course.getOver fun _ => course.pureOver _
  | settings => exact course.liftOver (course.settings c)
  | hasColumn type => exact course.bindOver (course.liftOver (lead.findColumn c type)) fun _ => course.pureOver _
  | hasRow type => exact course.bindOver (course.liftOver (lead.findRow c type)) fun _ => course.pureOver _
  | column type index => exact fun row => lead.column c type index row
  | row type => exact fun row => lead.row c type row
  | rowOf type other => exact course.bindOver (course.liftOver (lead.row c type other)) fun _ => course.pureOver _

theorem followScript (script : Script) : LeadsOver R (script.follow h c) := by
  induction script with
  | yield v => exact course.pureOver _
  | raise r => exact course.throwOver _
  | ask q next ih => exact course.bindOver (course.put lead c q) ih

theorem compute {delegate : TypeExpr → Reading Value} (delegated : ∀ t, LeadsOver R (delegate t))
    (m : CustomMapper) (index : Option Int) : LeadsOver R (m.compute h c delegate index) := by
  unfold CustomMapper.compute
  split
  · exact course.pureOver _
  · exact course.bindOver (course.requireIndex _) course.columnOf
  · refine course.bindOver (course.requireIndex _) fun i => ?_
    exact course.bindOver (course.columnOf i) fun _ => course.pureOver _
  · refine course.bindOver (course.requireIndex _) fun i => ?_
    exact course.bindOver (course.columnOf i) fun _ => course.pureOver _
  · refine course.bindOver (course.requireIndex _) fun i => ?_
    exact course.bindOver (course.columnOf i) fun _ => course.pureOver _
  · exact course.bindOver course.wasNull fun _ => course.pureOver _
  · refine course.bindOver course.getOver fun row => ?_
    refine course.bindOver (course.mapMOver (fun p => ?_) _) fun _ => course.pureOver _
    exact course.bindOver (course.columnOf _) fun _ => course.pureOver _
  · have counted : Leads R (countCall m) := fun _ => course.aside rfl rfl rfl
    exact course.bindOver (course.liftOver counted) fun _ => course.pureOver _
  · exact delegated _
  · exact course.throwOver _
  · exact course.followScript lead c _

theorem runCustom {delegate : TypeExpr → Reading Value} (delegated : ∀ t, LeadsOver R (delegate t))
    (m : CustomMapper) (index : Option Int) : LeadsOver R (m.run h c delegate index) := by
  unfold CustomMapper.run
  split
  · exact course.throwOver _
  · exact course.compute lead c delegated m index

end Customs

theorem specializeCustom (m : CustomMapper) (columns : List String) :
    Leads R (m.specialize columns) := by
  unfold CustomMapper.specialize
  split
  · exact course.pure _
  · exact course.pure _
  · exact course.bind (course.note _) fun _ => course.pure _
  · exact course.bind (course.note _) fun _ => course.pure _

theorem applyColumn (lead : h.Lead R) (c : Context) (m : ColumnMapper) (index : Int) :
    LeadsOver R (m.apply h c index) := by
  refine course.bindOver (course.liftOver course.get) fun w => ?_
  cases m with
  | value origin target =>
    exact course.bindOver (course.columnOf _) fun _ => course.liftOver (course.lift _)
  | array serial container origin element =>
    refine course.bindOver (course.columnOf _) fun v => ?_
    split
    · exact course.pureOver _
    · split
      · exact course.liftOver (course.lift _)
      · exact course.throwOver _
  | raw => exact course.columnOf _
  | custom f => exact course.runCustom lead c (fun t row => lead.column c t index row) f _
  | misplaced m => exact course.throwOver _

theorem isNullMarked (marker : Option String) : LeadsOver R (isNullMarked marker) := by
  cases marker with
  | none => exact course.pureOver _
  | some marker =>
    refine course.bindOver course.getOver fun row => ?_
    dsimp only
    split
    · exact course.bindOver (course.columnOf _) fun _ => course.wasNull
    · exact course.throwOver _

mutual

theorem applyPlan (lead : h.Lead R) (c : Context) : ∀ p : Plan, LeadsOver R (p.apply h c)
  | .mk table entries => by
    unfold Plan.apply
    refine course.bindOver (course.isNullMarked _) fun marked => ?_
    split
    · exact course.pureOver _
    · refine course.bindOver (applyEntries lead c table entries _) fun set => ?_
      split
      · exact course.pureOver _
      · exact course.bindOver (course.liftOver course.get) fun w => course.liftOver (course.lift _)

theorem applyEntries (lead : h.Lead R) (c : Context) (table : PropertyTable) :
    ∀ (es : List (Property × PlanSource)) (ks : Keywords),
      LeadsOver R (RowMapping.applyEntries h c table es ks)
  | [], _ => course.pureOver _
  | (p, source) :: rest, ks => by
    unfold RowMapping.applyEntries
    refine course.bindOver (applySource lead c source) fun v => ?_
    refine course.bindOver course.wasNull fun _ => ?_
    split
    · exact course.pureOver _
    · exact applyEntries lead c table rest _

theorem applySource (lead : h.Lead R) (c : Context) : ∀ s : PlanSource, LeadsOver R (s.apply h c)
  | .column mapper index => course.applyColumn lead c mapper index
  | .nested plan => applyPlan lead c plan

end

theorem applyRow (lead : h.Lead R) (lookup : Registry.Lead R h) (c : Context) (m : RowMapper) :
    LeadsOver R (m.apply h c) := by
  cases m with
  | single serial mapper index => exact course.applyColumn lead c mapper index
  | reflective m =>
    refine course.bindOver course.getOver fun row => ?_
    refine course.bindOver (course.liftOver (course.specializeReflective lookup c m _)) fun plan => ?_
    exact course.applyPlan lead c plan
  | planned serial plan => exact course.applyPlan lead c plan
  | custom m => exact course.runCustom lead c (fun t row => lead.row c t row) m _
  | misplaced m => exact course.throwOver _

theorem specializeRow (lookup : Registry.Lead R h) (c : Context) (columns : List String)
    (m : RowMapper) : Leads R (m.specialize h c columns) := by
  unfold RowMapper.specialize
  split
  · refine course.bind (course.specializeReflective lookup c _ columns) fun plan => ?_
    exact course.bind course.fresh fun _ => course.pure _
  · exact course.bind (course.specializeCustom _ columns) fun _ => course.pure _
  · exact course.pure _

theorem mapRows (lead : h.Lead R) (lookup : Registry.Lead R h) (c : Context) (rows : List Row) :
    ∀ (ready : Option RowMapper) (m : RowMapper), Leads R (RowMapping.mapRows h c ready m rows) := by
  induction rows with
  | nil => exact fun _ _ => course.pure _
  | cons row rows ih =>
    intro ready m
    unfold RowMapping.mapRows
    split
    · refine course.bind (course.pure _) fun r => ?_
      refine course.bind (course.applyRow lead lookup c r row) fun _ => ?_
      exact course.bind (ih _ _) fun _ => course.pure _
    · refine course.bind (course.specializeRow lookup c _ m) fun r => ?_
      refine course.bind (course.applyRow lead lookup c r row) fun _ => ?_
      exact course.bind (ih _ _) fun _ => course.pure _

end Course
end RowMapping
