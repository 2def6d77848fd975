import RowMapping.Proofs.Mapper.Reuse
import RowMapping.Proofs.Schema.Tables
import RowMapping.Proofs.Session.Numbers

/-! Use without a trace. Look-ups and mappings in a context, and registrations that are refused, fill caches
and tables and make mappers, and may fail halfway. What is looked up or mapped afterwards comes to what it
would have come to without them. -/
namespace RowMapping

open MappingM

/-- The registration of a mapper for which no type is given, and which declares none. -/
def Command.Refused : Command → Prop
  | .registerRow _ (.mapper spec) none | .registerColumn _ (.mapper spec) none => Session.declaredType? spec = none
  | _ => False

def Command.Reads (w : World) (c : Context) (command : Command) : Prop :=
  ∃ name, command.reads? = some name ∧ w.bound name = some c

section Refused

variable {spec : MapperSpec} (undeclared : Session.declaredType? spec = none) (u : World)
include undeclared

theorem run_registeredRow_refused : (Session.registeredRow (.mapper spec) none).run u =
    (.error (.mapperInference (CustomMapper.mk u.next 0 true spec).ownName), { u with next := u.next + 1 }) := by
  have made : (Session.newMapper true spec).run u = (.ok ⟨u.next, 0, true, spec⟩, { u with next := u.next + 1 }) := rfl
  unfold Session.registeredRow Session.registeredType
  rw [run_bind_ok made]
  simp only [Option.map_none, Option.none_or, undeclared]
  rfl

theorem run_registeredColumn_refused : (Session.registeredColumn (.mapper spec) none).run u =
    (.error (.mapperInference (CustomMapper.mk u.next 0 true spec).ownName), { u with next := u.next + 1 }) := by
  have made : (Session.newMapper true spec).run u = (.ok ⟨u.next, 0, true, spec⟩, { u with next := u.next + 1 }) := rfl
  unfold Session.registeredColumn Session.registeredType
  rw [run_bind_ok made]
  simp only [Option.map_none, Option.none_or, undeclared]
  rfl

end Refused

theorem idles_context {name : String} {f : Context → MappingM Answer} {u : World}
    (rest : ∀ c, u.Idles ((f c).run u).2) : u.Idles ((context name >>= f).run u).2 := by
  rw [run_bind, run_context]
  cases u.bound name with
  | none => exact .refl u
  | some c => exact rest c

theorem Command.Refused.idles {command : Command} (refused : command.Refused) (h : Hooks) (u : World) :
    u.Idles ((Session.run h command).run u).2 := by
  have idle : u.Idles { u with next := u.next + 1 } := ⟨rfl, Nat.le_succ _⟩
  unfold Refused at refused
  split at refused
  · refine idles_context fun c => ?_
    unfold Session.registerRow
    rw [bind_assoc, run_bind_error (run_registeredRow_refused refused u)]
    exact idle
  · refine idles_context fun c => ?_
    unfold Session.registerColumn
    rw [bind_assoc, run_bind_error (run_registeredColumn_refused refused u)]
    exact idle
  · contradiction

section Traces

variable {w u v : World} {c : Context} {l : Prop}

theorem World.Used.told (used : w.Used c u) (reports : List Report) (log : List LogRecord) :
    w.Used c { u with reports := reports, log := log } :=
  used.aside rfl le_rfl ⟨[], (List.append_nil _).symm, nofun⟩

theorem World.Used.named (used : w.Used c u) {name : String} (known : w.bound name = some c) :
    (context name).run u = (.ok c, u) := by
  rw [run_context, World.bound, used.contexts, ← World.bound, known]

variable (traceless : w.Traceless c l)
include traceless

theorem used_step (used : w.Used c u) {command : Command} (use : command.Reads w c ∨ command.Refused) :
    w.Used c (Session.after [command] u) := by
  have clear := used.told [] []
  suffices after : w.Used c
      ((Session.run (Session.hooks Session.depth) command).run { u with reports := [], log := [] }).2
    from after.told u.reports u.log
  rcases use with ⟨name, reads, known⟩ | refused
  · rw [Session.run_reads reads, run_bind_ok (clear.named known)]
    exact ((bearing_hooks traceless Session.depth).answer ⟨clear, clear⟩ command).1.2
  · exact clear.idle (refused.idles _ _)

theorem used_after (used : w.Used c u) {commands : List Command}
    (uses : ∀ command ∈ commands, command.Reads w c ∨ command.Refused) : w.Used c (Session.after commands u) := by
  induction commands generalizing u with
  | nil => exact used
  | cons command commands ih =>
    exact ih (used_step traceless used (uses command List.mem_cons_self)) fun next member =>
      uses next (List.mem_cons_of_mem command member)

/-- In two worlds of use, look-ups and mappings come to the same, if neither is cut short. -/
theorem outcome_used (usedU : w.Used c u) (usedV : w.Used c v) {command : Command} (reads : command.Reads w c) :
    Session.outcome command u = Session.outcome command v ∨ l ∧
      (Session.outcome command u = .error .exhausted ∨ Session.outcome command v = .error .exhausted) := by
  obtain ⟨name, named, known⟩ := reads
  have clearU := usedU.told [] []
  have clearV := usedV.told [] []
  have answered := (coupled_hooks traceless Session.depth).answer command _ _ ⟨clearU, clearV⟩
  unfold Session.outcome
  rw [Session.run_reads named, run_bind_ok (clearU.named known), run_bind_ok (clearV.named known)]
  rcases answered with (⟨_, cut, allowed, rfl⟩ | ⟨_, cut, allowed, rfl⟩) | ⟨same, _⟩
  · exact .inr ⟨allowed, .inl cut⟩
  · exact .inr ⟨allowed, .inr cut⟩
  · exact .inl same.eq

end Traces

/-! ### Sessions -/

section Sessions

variable {s : Schema} {loggers : List Logger} {spec : ContextSpec} {w₀ w : World} {history : List Command}
  {c : Context}

theorem traceless_after (started : Session.start s loggers spec = .ok w₀) (honest : Honest w₀ history)
    (now : w = Session.after history w₀) (pure : (w.ground c).Pure) {l : Prop}
    (direct : l ∨ (w.registryOf c).Direct) : w.Traceless c l := by
  obtain ⟨allowed, closed, own⟩ := honest
  have reached : Reached s w := now ▸ Reached.after (congrArg Except.toOption started) history
  have numbered : w.Numbered allowed := now ▸ numbered_after closed (numbered_start started) own
  exact
    { pure := pure
      direct := direct
      distinct := fun cls t known => ((World.regular_of_reached reached).tableFor known).distinct
      numbered := fun e member => (numbered.children e member).1 }

/-- Uses leave no trace. In a context of pure factories, look-ups and mappings, whatever they came to, and
registrations that were refused do not matter to a later look-up or mapping: it comes to the same as without
them. Factories that look types up themselves may make a difference in one way: found mappers that are kept
save look-ups, so that the recursion limit may end one use and not the other. -/
theorem uses_leave_no_trace (started : Session.start s loggers spec = .ok w₀) (honest : Honest w₀ history)
    (now : w = Session.after history w₀) (pure : (w.ground c).Pure) {commands : List Command}
    (uses : ∀ command ∈ commands, command.Reads w c ∨ command.Refused) {command : Command}
    (reads : command.Reads w c) :
    Session.outcome command (Session.after commands w) = Session.outcome command w ∨
      ¬(w.registryOf c).Direct ∧ (Session.outcome command (Session.after commands w) = .error .exhausted ∨
        Session.outcome command w = .error .exhausted) := by
  have traceless := traceless_after started honest now pure (Classical.em _).symm
  have unused := World.Used.refl pure
  exact outcome_used traceless (used_after traceless unused uses) unused reads

end Sessions

/-! ### Readers -/

def readersWorld : World := (Session.start readers [] ⟨.fresh true, none, []⟩).toOption.getD default

def shout : Command := .registerColumn "main" (.mapper shouter) none

def shouting : World := Session.after [shout] readersWorld

/-- A reader whose home cannot be read, and a mapper that is declared for no type. -/
def mistakes : List Command :=
  [.mapOne "main" reader (.entries [("id", .int 7), ("Home_street", .text "Elm"), ("Home_zipCode", .text "?")]),
    .registerRow "main" (.mapper ⟨.object, none, .const .null, none, none, .absent⟩) none]

theorem shouting_pure : (shouting.ground ⟨0, 0, 0⟩).Pure ∧ (shouting.registryOf ⟨0, 0, 0⟩).Direct := by
  have rows : (shouting.registryOf ⟨0, 0, 0⟩).rows.factories = [.reflective none ""] := rfl
  have columns : ∃ m : ColumnMapper, m.Stateless ∧ (shouting.registryOf ⟨0, 0, 0⟩).columns.factories =
      [.fixed (.of (.union .keyword [.cls (.builtin .text), .none])) m, .scalars 0, .arrays] := by
    refine ⟨_, ?_, rfl⟩
    rfl
  obtain ⟨m, stateless, columns⟩ := columns
  have eachRow : ∀ f ∈ (shouting.registryOf ⟨0, 0, 0⟩).rows.factories, f = .reflective none "" := by
    rw [rows]
    exact fun f member => List.mem_singleton.mp member
  have eachColumn : ∀ f ∈ (shouting.registryOf ⟨0, 0, 0⟩).columns.factories, f = .scalars 0 ∨ f = .arrays ∨
      f = .fixed (.of (.union .keyword [.cls (.builtin .text), .none])) m := by
    rw [columns]
    intro f member
    simp only [List.mem_cons, List.not_mem_nil, or_false] at member
    tauto
  have unkept : (shouting.registryOf ⟨0, 0, 0⟩).rows.cache.isEmpty = true ∧
      (shouting.registryOf ⟨0, 0, 0⟩).columns.cache.isEmpty = true := by decide +kernel
  obtain ⟨keptRows, keptColumns⟩ := And.imp List.isEmpty_iff.mp List.isEmpty_iff.mp unkept
  refine ⟨⟨fun f member => ?_, fun f member => ?_, fun e member => ?_, fun e member => ?_⟩, fun f member => ?_,
    fun f member => ?_⟩
  · rw [eachRow f member]
    exact ⟨.reflective none "", .reflective none ""⟩
  · rcases eachColumn f member with rfl | rfl | rfl
    · exact ⟨.scalars rfl, .scalars rfl⟩
    · exact ⟨.arrays, .arrays⟩
    · exact ⟨.fixed _ (.refl _) stateless, .fixed _ (.refl _) stateless⟩
  · exact absurd (keptRows ▸ member) List.not_mem_nil
  · exact absurd (keptColumns ▸ member) List.not_mem_nil
  · rw [eachRow f member]
    trivial
  · rcases eachColumn f member with rfl | rfl | rfl <;> trivial

/-- Mistakes leave children behind, but readers are read as before. -/
theorem uses_leave_no_trace_readers :
    mistakes.map (fun c => (Session.outcome c shouting).toOption.isNone) = [true, true] ∧
      (Session.after mistakes shouting).children.length = 1 ∧
      ((Session.outcome (visit "main") shouting).toOption.any fun
        | .value v => v.same (.object "Reader" true [("id", .int 7),
            ("home", .object "Home" true [("street", .tuple [.text "Elm", .text "!"]), ("zip", .int 123)]),
            ("nick", .tuple [.text "Ada", .text "!"])])
        | _ => false) = true ∧
      Session.outcome (visit "main") (Session.after mistakes shouting) = Session.outcome (visit "main") shouting := by
  have started : Session.start readers [] ⟨.fresh true, none, []⟩ = .ok readersWorld := rfl
  have honest : Honest readersWorld [shout] := by
    refine ⟨fun _ command => command = shout, fun n command own => ?_, rfl, trivial⟩
    rw [own]
    trivial
  have known : shouting.bound "main" = some ⟨0, 0, 0⟩ := rfl
  have uses : ∀ command ∈ mistakes, command.Reads shouting ⟨0, 0, 0⟩ ∨ command.Refused := by
    intro command member
    rcases List.mem_pair.mp member with rfl | rfl
    · exact .inl ⟨"main", rfl, known⟩
    · exact .inr rfl
  have reads : (visit "main").Reads shouting ⟨0, 0, 0⟩ := ⟨"main", rfl, known⟩
  have same := uses_leave_no_trace started honest rfl shouting_pure.1 uses reads
  exact ⟨by decide +kernel, by decide +kernel, by decide +kernel,
    same.resolve_right fun cut => cut.1 shouting_pure.2⟩

end RowMapping
