import RowMapping.Proofs.Session.Comes
import RowMapping.Proofs.Schema.Tabled
import RowMapping.Proofs.Types.Sameness

/-! How look-ups fail. Whatever factories are asked, a look-up fails with what a factory of the caller
raised, because annotations name what nothing declares, or because look-ups are nested too deep. -/
namespace RowMapping

open MappingM

/-- A factory of the caller raised it, annotations cannot be resolved, or look-ups were nested too
deep. -/
def Failure.OfLookup (e : Failure) : Prop := (∃ r, e = .raised r) ∨ e = .undeclared ∨ e = .exhausted

abbrev Refuses {α : Type} (x : MappingM α) : Prop :=
  Comes (fun _ => True) Failure.OfLookup (fun _ => True) x

structure Hooks.Refuse (h : Hooks) : Prop where
  perform : ∀ commands, Refuses (h.perform commands)
  findColumn : ∀ c key, Refuses (h.findColumn c key)
  findRow : ∀ c key, Refuses (h.findRow c key)

theorem refuses_of_ok {α : Type} {x : MappingM α} (ok : ∀ u, ∃ a, (x.run u).1 = .ok a) : Refuses x := by
  intro u _
  obtain ⟨a, returned⟩ := ok u
  rw [returned]
  exact ⟨trivial, fun _ _ => trivial, nofun⟩

theorem refuses_modify (f : World → World) : Refuses (modify f : MappingM PUnit) :=
  refuses_of_ok fun _ => ⟨_, rfl⟩

namespace Hooks.Refuse

variable {h : Hooks} (refuse : h.Refuse) {c : Context}
include refuse

theorem askCustom (f : CustomFactory) (key : Descriptor) : Refuses (Registry.askCustom h f key) := by
  refine (refuses_modify _).bind fun _ _ => ?_
  split
  · refine Comes.get.bind fun w _ => ?_
    split
    · exact (refuses_modify _).bind fun _ _ => (refuse.perform _).bind fun _ _ => .pure trivial
    · exact .pure trivial
  · exact .pure trivial

theorem follow {Mapper : Type} (p : Procedure Command Mapper) : Refuses (Registry.follow h c p) := by
  induction p with
  | answer m => exact .pure trivial
  | raise r => exact .throw (.inl ⟨r, rfl⟩)
  | column type next ih => exact (refuse.findColumn c type).bind fun m _ => ih m
  | row type next ih => exact (refuse.findRow c type).bind fun m _ => ih m
  | perform commands next ih =>
    exact (refuses_of_ok fun _ => ⟨_, rfl⟩ : Refuses fresh).bind fun n _ =>
      (refuse.perform _).bind fun _ _ => ih

end Hooks.Refuse

/-! ### Look-ups -/

theorem refuses_scalarOf (origin : Nat) (key : Descriptor) : Refuses (Registry.scalarOf origin key) := by
  unfold Registry.scalarOf
  split
  · refine Comes.get.bind fun w _ => ?_
    split
    · exact .pure trivial
    · exact .pure trivial
  · exact .pure trivial

theorem refuses_fresh : Refuses fresh := refuses_of_ok fun _ => ⟨_, rfl⟩

theorem refuses_log (level : LogLevel) (logger : Logger) (text : String) :
    Refuses (log level logger text) := refuses_modify _

theorem refuses_arrayOf (key : Descriptor) {element : Option (MappingM (Option ColumnMapper))}
    (items : ∀ x ∈ element, Refuses x) : Refuses (Registry.arrayOf key element) := by
  unfold Registry.arrayOf
  split
  · refine (items _ rfl).bind fun found _ => ?_
    unfold Registry.arrayFrom
    split
    · exact refuses_fresh.bind fun _ _ => .pure trivial
    · exact .pure trivial
  · exact .pure trivial

theorem refuses_reflectiveFor (c : Context) (targets : Option (List RawType)) (lead : String)
    (key : Descriptor) : Refuses (Registry.reflectiveFor c targets lead key) := by
  have looked : Refuses (table? c key.raw) := by
    intro u _
    obtain ⟨v, ran, _⟩ := run_table_for c key.raw u
    rw [ran]
    exact ⟨trivial, fun _ _ => trivial, fun e failed => .inr (.inl (World.consult_error failed).1)⟩
  unfold Registry.reflectiveFor
  split
  · refine looked.bind fun found _ => ?_
    split
    · exact refuses_fresh.bind fun _ _ => .pure trivial
    · exact .pure trivial
  · exact .pure trivial

namespace Hooks.Refuse

variable {h : Hooks} (refuse : h.Refuse) (c : Context)
include refuse

theorem columnAs (key : Descriptor) (nullable : Bool) :
    Refuses (Registry.findColumnAs h c key nullable) := by
  induction key using Descriptor.induct_args generalizing nullable with
  | step key ih =>
  obtain ⟨raw, args, admitted⟩ := key
  have items : ∀ x ∈ Registry.findElement h c args, Refuses x := by
    cases args with
    | nil => nofun
    | cons d ds =>
      rintro x ⟨⟩
      exact ih d List.mem_cons_self true
  have asked : ∀ f, Refuses (Registry.askColumn h c (.mk raw args nullable)
      (Registry.findElement h c args) f) := by
    intro f
    cases f with
    | scalars origin => exact refuses_scalarOf _ _
    | arrays => exact refuses_arrayOf _ items
    | fixed target mapper => exact .pure trivial
    | custom f => exact (refuse.askCustom f _).bind fun _ _ => .pure trivial
    | written name ask => exact refuse.follow _
    | reflective targets lead => exact (refuses_reflectiveFor c _ _ _).bind fun _ _ => .pure trivial
  refine Comes.bind (Q := fun _ => True) (refuses_of_ok fun _ => ⟨_, rfl⟩) fun r _ => ?_
  dsimp only
  split
  · exact .pure trivial
  · refine (Comes.scan trivial fun f _ => asked f).bind fun found _ => ?_
    have recorded : Refuses (Registry.recordColumn c r.columns.generation (.mk raw args nullable) found) := by
      cases found with
      | none => exact refuses_log _ _ _
      | some m => exact (refuses_modify _).bind fun _ _ => refuses_log _ _ _
    exact recorded.bind fun _ _ => .pure trivial

theorem row (key : Descriptor) : Refuses (Registry.findRow h c key) := by
  have items : ∀ x ∈ Registry.findElement h c key.args, Refuses x := by
    cases key.args with
    | nil => nofun
    | cons d ds =>
      rintro x ⟨⟩
      exact refuse.columnAs c d true
  have asked : ∀ f, Refuses (Registry.askRow h c key f) := by
    intro f
    cases f with
    | reflective targets lead => exact (refuses_reflectiveFor c _ _ _).bind fun _ _ => .pure trivial
    | fixed target mapper => exact .pure trivial
    | custom f => exact (refuse.askCustom f _).bind fun _ _ => .pure trivial
    | written name ask => exact refuse.follow _
    | scalars origin => exact (refuses_scalarOf _ _).bind fun _ _ => .pure trivial
    | arrays => exact (refuses_arrayOf _ items).bind fun _ _ => .pure trivial
  have single : Refuses (Registry.singleFor h c key) := by
    refine (refuse.columnAs c key key.nullable).bind fun found _ => ?_
    split
    · exact refuses_fresh.bind fun _ _ => .pure trivial
    · exact .pure trivial
  refine Comes.bind (Q := fun _ => True) (refuses_of_ok fun _ => ⟨_, rfl⟩) fun r _ => ?_
  dsimp only
  split
  · exact .pure trivial
  · have built : Refuses (Registry.buildRow h c key r.rows.factories) := by
      refine (Comes.scan trivial fun f _ => asked f).bind fun found _ => ?_
      split
      · exact .pure trivial
      · exact single
    refine built.bind fun found _ => ?_
    have recorded : Refuses (Registry.recordRow c key found) := by
      cases found with
      | none => exact refuses_log _ _ _
      | some m => exact (refuses_modify _).bind fun _ _ => refuses_log _ _ _
    exact recorded.bind fun _ _ => .pure trivial

end Hooks.Refuse

/-- Look-ups of a session fail with what factories of the caller raise, for annotations that cannot be
resolved, or for being nested too deep. Commands that factories run may fail, but report it. -/
theorem refuse_hooks (depth : Nat) : (Session.hooks depth).Refuse := by
  induction depth with
  | zero =>
    have deep : Failure.exhausted.OfLookup := .inr (.inr rfl)
    exact ⟨fun commands => Comes.forM fun _ _ => .throw deep, fun _ _ => .throw deep, fun _ _ => .throw deep⟩
  | succ depth ih =>
    exact ⟨fun commands => Comes.forM fun _ _ => refuses_of_ok fun _ => ⟨_, rfl⟩,
      fun c key => ih.columnAs c key key.nullable, ih.row⟩

theorem refuses_findColumn (depth : Nat) (c : Context) (key : Descriptor) :
    Refuses (Registry.findColumn (Session.hooks depth) c key) :=
  (refuse_hooks depth).columnAs c key key.nullable

end RowMapping
