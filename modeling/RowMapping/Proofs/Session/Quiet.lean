import RowMapping.Proofs.Mapper.Answers
import RowMapping.Proofs.Schema.Tables
import RowMapping.Proofs.Session.Lockstep

/-! Commands on contexts in step. A quiet command registers nothing but mappers and factories that keep no
state and run no commands, and properties whose sub-objects have classes for types. Given in two contexts
in step it is answered alike and leaves them in step. -/
namespace RowMapping

open MappingM

def FactorySpec.Quiet : FactorySpec → Prop
  | .reflective .. | .scalars | .arrays => True
  | .custom _ _ mapper onBuild => mapper.stateless = true ∧ onBuild = []
  | .written _ columns rows =>
    (∀ d, (columns d).Matched .exact 0 ColumnMapper.Stateless (columns d)) ∧
      ∀ d, (rows d).Matched .exact 0 RowMapper.Stateless (rows d)

def Registered.Quiet : Registered → Prop
  | .mapper spec => spec.stateless = true
  | .factory spec => spec.Quiet

def PropertySpec.NestsClass (p : PropertySpec) : Prop :=
  p.property.nested.isSome → p.property.type.raw.class?.isSome

/-- Registrations, settings, look-ups, mappings and copies that involve nothing that keeps state. -/
def Command.Quiet : Command → Prop
  | .registerRow _ what _ | .registerColumn _ what _ => what.Quiet
  | .registerProperties _ _ listed _ _ => ∀ p ∈ listed, p.NestsClass
  | .copyContext .. | .configure .. | .findRow .. | .findColumn .. | .requireRow .. | .mapOne ..
  | .mapMany .. | .mapCursor .. | .mapColumn .. => True
  | _ => False

section Commands

variable {c d : Context} {a b : World}

/-! ### Registrations -/

theorem locked_newMapper (wrapped : Bool) (spec : MapperSpec) :
    Locked c d a b (fun m m' => Twins 0 m m' ∧ m.spec = spec) (Session.newMapper wrapped spec)
      (Session.newMapper wrapped spec) := by
  refine idling_lockstep.fresh.bind fun s t serials => .pure ⟨?_, rfl⟩
  simp only [Twins, Serial.upTo, serials]

theorem locked_customFactory {mapper : MapperSpec} (stateless : mapper.stateless = true) (name : String)
    (claim : Claim) {onBuild : List Command} (silent : onBuild = []) :
    Locked c d a b (CustomFactory.Matched .exact 0) (Session.customFactory name claim mapper onBuild)
      (Session.customFactory name claim mapper onBuild) := by
  refine (locked_newMapper false mapper).bind fun m m' ⟨twins, same⟩ => ?_
  refine idling_lockstep.fresh.bind fun s t _ => .pure ⟨?_, twins, same ▸ stateless, silent, silent⟩
  rintro key _ rfl
  rfl

theorem locked_rowFactory {spec : FactorySpec} (quiet : spec.Quiet) :
    Locked c d a b (RowFactory.Matched .exact 0) (Session.rowFactory spec) (Session.rowFactory spec) := by
  cases spec with
  | reflective targets lead => exact .pure (.reflective _ lead)
  | scalars => exact idling_lockstep.fresh.bind fun s t serials => .pure (.scalars serials)
  | arrays => exact .pure .arrays
  | custom name claim mapper onBuild =>
    exact (locked_customFactory quiet.1 name claim quiet.2).bind fun f g matched => .pure (.custom matched)
  | written name columns rows =>
    refine .pure (.written name ?_)
    rintro key _ rfl
    exact quiet.2 key

theorem locked_columnFactory {spec : FactorySpec} (quiet : spec.Quiet) :
    Locked c d a b (ColumnFactory.Matched .exact 0) (Session.columnFactory spec)
      (Session.columnFactory spec) := by
  cases spec with
  | reflective targets lead => exact .pure (.reflective _ lead)
  | scalars => exact idling_lockstep.fresh.bind fun s t serials => .pure (.scalars serials)
  | arrays => exact .pure .arrays
  | custom name claim mapper onBuild =>
    exact (locked_customFactory quiet.1 name claim quiet.2).bind fun f g matched => .pure (.custom matched)
  | written name columns rows =>
    refine .pure (.written name ?_)
    rintro key _ rfl
    exact quiet.1 key

theorem registeredType_twin {m m' : CustomMapper} (twins : Twins 0 m m') (target : Option TypeExpr) :
    Session.registeredType m target = Session.registeredType m' target := by
  obtain ⟨spec, _, _, _⟩ := CustomMapper.twins_spec twins
  simp only [Session.registeredType, CustomMapper.ownName, spec]

theorem locked_registeredRow {what : Registered} (quiet : what.Quiet) (target : Option TypeExpr) :
    Locked c d a b (RowFactory.Matched .exact 0) (Session.registeredRow what target)
      (Session.registeredRow what target) := by
  cases what with
  | mapper spec =>
    refine (locked_newMapper true spec).bind fun m m' ⟨twins, same⟩ => ?_
    rw [registeredType_twin twins]
    refine (Together.liftSame _).bind fun type _ one => ?_
    subst one
    have own : m.spec.stateless = true := same ▸ quiet
    exact .pure (.fixed type (congrArg RowMapper.custom twins) own)
  | factory spec => exact locked_rowFactory quiet

theorem locked_registeredColumn {what : Registered} (quiet : what.Quiet) (target : Option TypeExpr) :
    Locked c d a b (ColumnFactory.Matched .exact 0) (Session.registeredColumn what target)
      (Session.registeredColumn what target) := by
  cases what with
  | mapper spec =>
    refine (locked_newMapper true spec).bind fun m m' ⟨twins, same⟩ => ?_
    rw [registeredType_twin twins]
    refine (Together.liftSame _).bind fun type _ one => ?_
    subst one
    have own : m.spec.stateless = true := same ▸ quiet
    exact .pure (.fixed type (congrArg ColumnMapper.custom twins) own)
  | factory spec => exact locked_columnFactory quiet

theorem locked_registerRow {what : Registered} (quiet : what.Quiet) (target : Option TypeExpr) :
    Locked c d a b (fun _ _ => True) (Session.registerRow c what target)
      (Session.registerRow d what target) := by
  refine (locked_registeredRow quiet target).bind fun f g matched => ?_
  refine (locked_changeRegistry fun r t same => ?_).bind fun _ _ _ => locked_record _ _
  exact ⟨same.rows.register matched, same.columns⟩

theorem locked_registerColumn {what : Registered} (quiet : what.Quiet) (target : Option TypeExpr) :
    Locked c d a b (fun _ _ => True) (Session.registerColumn c what target)
      (Session.registerColumn d what target) := by
  refine (locked_registeredColumn quiet target).bind fun f g matched => ?_
  refine (locked_changeRegistry fun r t same => ?_).bind fun _ _ _ => locked_record _ _
  exact ⟨same.rows, same.columns.register matched⟩

/-! ### Properties -/

theorem TableStore.find_declare (s : TableStore) (t : PropertyTable) (cls : ClassRef) :
    (s.declare t).find? cls = if t.target = cls then some t else s.find? cls := by
  unfold find? declare lookup?
  split
  · next same => simp [same]
  · next other =>
    have kept : (List.find? (fun e => decide (e.1 = cls)) (s.declared.filter (·.1 != t.target))) =
        List.find? (fun e => decide (e.1 = cls)) s.declared := by
      rw [List.find?_filter]
      congr 1
      funext e
      by_cases one : e.1 = cls
      · simp [one, Ne.symm other]
      · simp [one]
    simp [other, kept]

theorem tableFor_declare {w : World} {e : Context} (present : e.tables < w.tables.length)
    (t : PropertyTable) (cls : ClassRef) :
    ((changeTables e (·.declare t)).run w).2.tableFor e cls =
      if t.target = cls then (match cls with
        | .builtin _ => some t
        | .declared n => (w.schema.find? n).map fun _ => t)
      else w.tableFor e cls := by
  have store : ((w.tables.modify e.tables (·.declare t))[e.tables]?).getD default =
      ((w.tables[e.tables]?).getD default).declare t := by
    rw [List.getElem?_modify_eq, List.getElem?_eq_getElem present]
    rfl
  show (World.tableFor { w with tables := w.tables.modify e.tables (·.declare t) } e cls) = _
  cases cls with
  | builtin k =>
    simp only [World.tableFor, store, TableStore.find_declare]
  | declared n =>
    simp only [World.tableFor, store, TableStore.find_declare]
    cases w.schema.find? n with
    | none => simp
    | some cls =>
      split
      · rfl
      · rfl

theorem beside_declare (c : Context) (t : PropertyTable) (w : World) :
    w.Beside c ((changeTables c (·.declare t)).run w).2 where
  schema := rfl
  contexts := rfl
  registryCount := rfl
  registry _ _ := rfl
  tableCount := List.length_modify ..
  tabled e other cls := by
    have kept : (w.tables.modify c.tables (·.declare t))[e.tables]? = w.tables[e.tables]? := by
      simp [other.symm]
    have same : ((changeTables c (·.declare t)).run w).2.tableFor e cls = w.tableFor e cls := by
      show World.tableFor { w with tables := w.tables.modify c.tables (·.declare t) } e cls = _
      cases cls <;> simp only [World.tableFor, kept]
    rw [same]
    exact .refl _
  settingCount := rfl
  setting _ _ := rfl

theorem locked_declare {t t' : PropertyTable} (twins : Twins 0 t t') (nested : t.NestsClasses) :
    Locked c d a b (fun _ _ => True) (changeTables c (·.declare t)) (changeTables d (·.declare t')) := by
  have numbered : Serial.upTo 0 t = Serial.upTo 0 t' := twins
  have target : (Serial.upTo 0 t).target = (Serial.upTo 0 t').target := by rw [numbered]
  replace target : t.target = t'.target := target
  intro w v lockstep
  have inStep := lockstep.inStep
  have first := tableFor_declare inStep.present.1 t
  have second := tableFor_declare inStep.present.2 t'
  refine .inr ⟨trivial, ⟨inStep.schema, inStep.registry, inStep.settings, ?_, fun cls => ?_, fun cls s known => ?_⟩,
    lockstep.first.trans (beside_declare c t w), lockstep.second.trans (beside_declare d t' v)⟩
  · rw [(beside_declare c t w).tableCount, (beside_declare d t' v).tableCount]
    exact inStep.present
  · rw [first, second, ← target]
    split
    · cases cls with
      | builtin k => exact foundTwins_some twins
      | declared n =>
        rw [inStep.schema]
        dsimp only
        cases v.schema.find? n with
        | none => rfl
        | some cls => exact foundTwins_some twins
    · exact inStep.tabled cls
  · rw [first] at known
    split at known
    · have own : s = t := by
        cases cls with
        | builtin k => exact (Option.some.inj known).symm
        | declared n =>
          obtain ⟨_, _, own⟩ := Option.map_eq_some_iff.mp known
          exact own.symm
      exact own ▸ nested
    · exact inStep.nested cls s known

theorem locked_registerProperties (type : TypeExpr) {properties : List PropertySpec}
    (nested : ∀ p ∈ properties, p.NestsClass) (builder : Option Builder) (nullMarker : Option String) :
    Locked c d a b (fun _ _ => True) (Session.registerProperties c type properties builder nullMarker)
      (Session.registerProperties d type properties builder nullMarker) := by
  unfold Session.registerProperties
  split
  · next cls =>
    refine Together.get.bind fun w v lockstep => ?_
    rw [lockstep.inStep.schema]
    refine idling_lockstep.fresh.bind fun s t serials => locked_declare ?_ ?_
    · simp only [Twins, Serial.upTo, PropertyTable.declared, serials]
    · intro p member
      obtain ⟨q, own, rfl⟩ := List.mem_map.mp (mem_distinctProperties member)
      exact nested q own
  · exact .pure trivial

/-! ### Settings -/

theorem beside_changeSettings (c : Context) (f : Settings → Settings) (w : World) :
    w.Beside c ((changeSettings c f).run w).2 where
  schema := rfl
  contexts := rfl
  registryCount := rfl
  registry _ _ := rfl
  tableCount := rfl
  tabled e _ := World.tabled_of_tables rfl rfl (Nat.zero_le _) (Nat.zero_le _) e
  settingCount := List.length_modify ..
  setting i other := by
    show (w.settings.modify c.settings f)[i]? = _
    simp [other.symm]

theorem locked_changeSettings (f : Settings → Settings) :
    Locked c d a b (fun _ _ => True) (changeSettings c f) (changeSettings d f) := by
  intro w v lockstep
  have inStep := lockstep.inStep
  obtain ⟨s, one, other⟩ := inStep.settings
  refine .inr ⟨trivial, ⟨inStep.schema, inStep.registry, ⟨f s, ?_, ?_⟩, inStep.present, inStep.tabled,
    inStep.nested⟩, lockstep.first.trans (beside_changeSettings c f w),
    lockstep.second.trans (beside_changeSettings d f v)⟩
  · show (w.settings.modify c.settings f)[c.settings]? = _
    rw [List.getElem?_modify_eq, one]
    rfl
  · show (v.settings.modify d.settings f)[d.settings]? = _
    rw [List.getElem?_modify_eq, other]
    rfl

theorem locked_assign (assignment : Assignment) :
    Locked c d a b (fun _ _ => True) (Session.assign c assignment) (Session.assign d assignment) := by
  refine locked_settings.bind_same fun s => ?_
  split
  · exact locked_changeSettings _
  · exact .throw _

theorem locked_configure (assignments : List Assignment) (appended : List (Option Matcher)) :
    Locked c d a b (· = ·) (Session.configure c assignments appended)
      (Session.configure d assignments appended) := by
  refine (Together.forM (fun one => locked_assign one) assignments).bind fun _ _ _ => ?_
  refine (locked_changeSettings _).bind fun _ _ _ => ?_
  refine locked_settings.bind_same fun s => ?_
  exact .pure rfl

end Commands
end RowMapping
