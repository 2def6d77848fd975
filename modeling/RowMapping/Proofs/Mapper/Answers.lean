import RowMapping.Proofs.Mapper.Bearing
import RowMapping.Proofs.Mapper.Coupled

/-! Look-ups and mappings as commands. In contexts that map side by side they are answered alike, and they
lead wherever look-ups and mappings do. -/
namespace RowMapping

open MappingM

def Command.reads? : Command → Option String
  | .findRow x _ | .findColumn x _ | .requireRow x _ | .mapOne x .. | .mapMany x .. | .mapCursor x ..
  | .mapColumn x .. => some x
  | _ => none

def Session.answer (h : Hooks) (c : Context) : Command → MappingM Answer
  | .findRow _ type => do shownOrNull (← Registry.findRow h c (.of type))
  | .findColumn _ type => do
    let found ← Registry.findColumn h c (.of type)
    return found.elim .null fun m => .text m.shown
  | .requireRow _ type => do
    let m ← Registry.requireRow h c (.of type)
    return .text (← m.shown)
  | .mapOne _ type row => do
    let row ← row.row
    return .value (← mapOne h c (.of type) row)
  | .mapMany _ type rows => do
    let rows ← rows.mapM fun r => (r.row : MappingM Row)
    return .values (← mapMany h c (.of type) rows)
  | .mapCursor _ type cursor => mapCursor h c type cursor
  | .mapColumn _ type row index => mapColumn h c type row index
  | _ => throw .misuse

theorem Session.run_reads {command : Command} {name : String} (reads : command.reads? = some name) (h : Hooks) :
    run h command = context name >>= fun c => answer h c command := by
  cases command <;> cases reads <;> rfl

/-! ### What mappers show -/

section Shown

variable (n : Nat)

theorem ColumnMapper.shown_upTo (m : ColumnMapper) : (Serial.upTo n m).shown = m.shown := by
  cases m <;> rfl

theorem Plan.shown_upTo (p : Plan) : (p.upTo n).shown = p.shown := by
  obtain ⟨t, es⟩ := p
  have names : (Plan.upTo n (.mk t es)).propertyNames = (Plan.mk t es).propertyNames := by
    simp [Plan.upTo, Plan.propertyNames, Plan.entries, entriesUpTo_eq]
  unfold Plan.shown
  rw [names]
  rfl

theorem RowMapper.shown_upTo (m : RowMapper) : (Serial.upTo n m).shown = m.shown := by
  cases m with
  | single serial mapper index => cases mapper <;> rfl
  | planned serial plan => exact congrArg Except.ok (Plan.shown_upTo n plan)
  | misplaced m => exact congrArg Except.ok (ColumnMapper.shown_upTo n m)
  | reflective | custom => rfl

variable {n}

theorem ColumnMapper.shown_twin {m m' : ColumnMapper} (twins : Twins n m m') : m.shown = m'.shown := by
  rw [← ColumnMapper.shown_upTo n m, ← ColumnMapper.shown_upTo n m',
    show Serial.upTo n m = Serial.upTo n m' from twins]

theorem RowMapper.shown_twin {m m' : RowMapper} (twins : Twins n m m') : m.shown = m'.shown := by
  rw [← RowMapper.shown_upTo n m, ← RowMapper.shown_upTo n m',
    show Serial.upTo n m = Serial.upTo n m' from twins]

end Shown

/-! ### Side by side -/

namespace Coupled

variable {l : Leniency} {R : World → World → Prop} {n : Nat} {listed : RawType → Property → Prop}
  {h k : Hooks} {c d : Context} (coupled : Coupled l R n listed h k c d)
include coupled

theorem shownRow (key : Descriptor) :
    Together l R (· = ·) (do Session.shownOrNull (← Registry.findRow h c key))
      (do Session.shownOrNull (← Registry.findRow k d key)) := by
  refine (coupled.findRow key).bind fun o p found => ?_
  rcases found.cases with ⟨rfl, rfl⟩ | ⟨m, m', rfl, rfl, twins, _⟩
  · exact .pure rfl
  · simp only [Session.shownOrNull, RowMapper.shown_twin twins]
    refine (Together.liftSame _).bind_same fun s => ?_
    exact .pure rfl

theorem shownColumn (key : Descriptor) :
    Together l R (· = ·)
      (do let found ← Registry.findColumn h c key
          return found.elim Answer.null fun m => .text m.shown)
      (do let found ← Registry.findColumn k d key
          return found.elim Answer.null fun m => .text m.shown) := by
  refine (coupled.parallel.column key).bind fun o p found => .pure ?_
  rcases found.1.cases with ⟨rfl, rfl⟩ | ⟨m, m', rfl, rfl, twins⟩
  · rfl
  · exact congrArg Answer.text (ColumnMapper.shown_twin twins)

theorem requiredRow (key : Descriptor) :
    Together l R (· = ·)
      (do let m ← Registry.requireRow h c key
          return Answer.text (← m.shown))
      (do let m ← Registry.requireRow k d key
          return Answer.text (← m.shown)) := by
  refine (coupled.requireRow key).bind fun m m' both => ?_
  rw [RowMapper.shown_twin both.1]
  refine (Together.liftSame _).bind_same fun s => ?_
  exact .pure rfl

theorem mapColumn (type : TypeExpr) (row : RowSpec) (index : Int) :
    Together l R (· = ·) (Session.mapColumn h c type row index) (Session.mapColumn k d type row index) := by
  refine (Together.liftSame _).bind_same fun row => ?_
  refine (coupled.parallel.column (.of type)).bind fun o p ⟨found, good⟩ => ?_
  rcases found.cases with ⟨rfl, rfl⟩ | ⟨m, m', rfl, rfl, twins⟩
  · exact .pure rfl
  · dsimp only
    rw [← ColumnMapper.apply_twin _ d (good m rfl) twins]
    refine (coupled.applies.column m (good m rfl) index row).bind fun x y same => .pure ?_
    rw [same.1, same.2]

theorem mapCursor (type : TypeExpr) (cursor : Cursor) :
    Together l R (· = ·) (Session.mapCursor h c type cursor) (Session.mapCursor k d type cursor) := by
  refine (coupled.requireRow (.of type)).bind fun m m' both => ?_
  dsimp only
  refine (coupled.mapRows both.1 both.2 foundAs_none _).bind_same fun vs => ?_
  split
  · exact .throw _
  · exact .pure rfl

theorem answer (command : Command) :
    Together l R (· = ·) (Session.answer h c command) (Session.answer k d command) := by
  cases command with
  | findRow _ type => exact coupled.shownRow (.of type)
  | findColumn _ type => exact coupled.shownColumn (.of type)
  | requireRow _ type => exact coupled.requiredRow (.of type)
  | mapOne _ type row =>
    refine (Together.liftSame _).bind_same fun row => ?_
    refine (coupled.mapOne (.of type) row).bind_same fun v => ?_
    exact .pure rfl
  | mapMany _ type rows =>
    refine (Together.mapM (S := (· = ·)) (fun _ => .liftSame _) rows).bind fun rows _ same => ?_
    rw [List.forall₂_eq_eq_eq] at same
    subst same
    refine (coupled.mapMany (.of type) rows).bind_same fun vs => ?_
    exact .pure rfl
  | mapCursor _ type cursor => exact coupled.mapCursor type cursor
  | mapColumn _ type row index => exact coupled.mapColumn type row index
  | newContext | copyContext | registerRow | registerColumn | registerProperties | sameRow | sameColumn
  | factories | configure | reflectiveMapper | specializeSaved | specializeType | mapSaved | children
  | properties | sameProperties | build => exact .throw _

end Coupled

/-! ### Where they lead -/

theorem Bearing.answer {R : World → World → Prop} {h : Hooks} {c : Context}
    {listed : RawType → Property → Prop} {fit : World → ReflectiveMapper → Prop}
    (bearing : Bearing R h c listed fit) {u : World} (here : R u u) (command : Command) :
    Brings R Anything (Session.answer h c command) u := by
  have pass := bearing.toPassage
  have rowOf : ∀ (r : RowSpec) v, R v v → Brings R Anything (liftM r.row : MappingM Row) v :=
    fun r v there => (Brings.lift there r.row).mono fun _ _ _ _ => trivial
  cases command with
  | findRow _ type =>
    refine (bearing.findRow (.of type) here).bind pass fun v o on _ => ?_
    have there := pass.settled on
    cases o with
    | none => exact .pure there trivial
    | some m => exact (Brings.lift there _).bind pass fun _ _ on _ => .pure (pass.settled on) trivial
  | findColumn _ type =>
    exact (bearing.findColumn (.of type) here).bind pass fun _ _ on _ => .pure (pass.settled on) trivial
  | requireRow _ type =>
    refine (bearing.requireRow (.of type) here).bind pass fun v m on _ => ?_
    exact (Brings.lift (pass.settled on) _).bind pass fun _ _ on _ => .pure (pass.settled on) trivial
  | mapOne _ type row =>
    refine (rowOf row u here).bind pass fun v row on _ => ?_
    exact (bearing.mapOne (.of type) row (pass.settled on)).bind pass fun _ _ on _ =>
      .pure (pass.settled on) trivial
  | mapMany _ type rows =>
    refine (Brings.mapM pass here rowOf rows).bind pass fun v rows on _ => ?_
    exact (bearing.mapMany (.of type) rows (pass.settled on)).bind pass fun _ _ on _ =>
      .pure (pass.settled on) trivial
  | mapCursor _ type cursor =>
    refine (bearing.requireRow (.of type) here).bind pass fun v m on fits => ?_
    refine (bearing.mapRows fits (fun _ none => by cases none) _ (pass.settled on)).bind pass fun v vs on _ => ?_
    split
    · exact .throw (pass.settled on) _
    · exact .pure (pass.settled on) trivial
  | mapColumn _ type row index =>
    refine (rowOf row u here).bind pass fun v row on _ => ?_
    refine (bearing.findColumn (.of type) (pass.settled on)).bind pass fun v o on _ => ?_
    have there := pass.settled on
    cases o with
    | none => exact .pure there trivial
    | some m =>
      exact (bearing.columnMapper m index there row).bind pass fun _ _ on _ => .pure (pass.settled on) trivial
  | newContext | copyContext | registerRow | registerColumn | registerProperties | sameRow | sameColumn
  | factories | configure | reflectiveMapper | specializeSaved | specializeType | mapSaved | children
  | properties | sameProperties | build => exact .throw here _

end RowMapping
