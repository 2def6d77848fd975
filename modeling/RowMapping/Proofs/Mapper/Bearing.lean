import RowMapping.Proofs.Mapper.Reading
import RowMapping.Proofs.Session.Brings

/-! Mapping that bears on a world. Where look-ups, property tables and child mappers bring what a relation
of worlds admits, so do plans, and so does whatever is made of rows by them. -/
namespace RowMapping

open MappingM ReflectiveMapper

def ColumnMapper.reflects : ColumnMapper → List ReflectiveMapper
  | .misplaced m => [m]
  | _ => []

def RowMapper.reflects : RowMapper → List ReflectiveMapper
  | .reflective m => [m]
  | .single _ m _ | .misplaced m => m.reflects
  | _ => []

/-! ### Reading -/

namespace Passage

variable {R : World → World → Prop} (pass : Passage R) {u : World} (here : R u u)
include pass here

theorem columnOf (index : Int) : BringsOver R Anything (Reading.column index) u := by
  refine (BringsOver.get here).bind pass fun v row on _ => ?_
  refine (BringsOver.lift pass (.lift (pass.settled on) _)).bind pass fun v read on _ => ?_
  exact (BringsOver.set (pass.settled on) _).bind pass fun _ _ on _ => .pure (pass.settled on) trivial

theorem wasNull : BringsOver R Anything Reading.wasNull u :=
  (BringsOver.get here).bind pass fun _ _ on _ => .pure (pass.settled on) trivial

theorem readAt (i : Option Int) {f : Int → Value → Reading Value}
    (rest : ∀ i x v, R v v → BringsOver R Anything (f i x) v) :
    BringsOver R Anything (do let i ← requireIndex i; f i (← Reading.column i)) u := by
  cases i with
  | none => exact (BringsOver.throw (Q := fun _ _ => False) here _).bind pass fun _ _ _ never => never.elim
  | some i =>
    refine (BringsOver.pure (Q := Anything) here trivial).bind pass fun v i on _ => ?_
    exact (pass.columnOf (pass.settled on) i).bind pass fun v x on _ => rest i x v (pass.settled on)

theorem isNullMarked (marker : Option String) : BringsOver R Anything (isNullMarked marker) u := by
  cases marker with
  | none => exact .pure here trivial
  | some marker =>
    refine (BringsOver.get here).bind pass fun v row on _ => ?_
    have there := pass.settled on
    dsimp only
    split
    · exact (pass.columnOf there _).bind pass fun _ _ on _ => pass.wasNull (pass.settled on)
    · exact .throw there _

end Passage

/-! ### Contexts -/

/-- A context in which look-ups and child mappers bring what `R` admits. Of the reflective mappers that
are found, and of their children, `fit` holds; properties of their tables are `listed`. -/
structure Bearing (R : World → World → Prop) (h : Hooks) (c : Context) (listed : RawType → Property → Prop)
    (fit : World → ReflectiveMapper → Prop) : Prop extends Passage R where
  idle : ∀ {u v}, R u u → u.Idles v → R u v
  counted : ∀ {u} (calls : List (Nat × Nat)), R u u → R u { u with calls := calls }
  stays : ∀ {u v m}, R u v → fit u m → fit v m
  table : ∀ {u} raw, R u u →
    Brings R (fun _ o => ∀ t ∈ o, ∀ p ∈ t.properties, listed raw p) (table? c raw) u
  child : ∀ {u m p}, R u u → fit u m → listed m.target p → Brings R fit (child m p) u
  findColumn : ∀ {u} key, R u u → Brings R Anything (Registry.findColumn h c key) u
  findRow : ∀ {u} key, R u u →
    Brings R (fun v o => ∀ m ∈ o, ∀ r ∈ m.reflects, fit v r) (Registry.findRow h c key) u
  columnFor : ∀ {u} key, R u u → Brings R Anything (h.findColumn c key) u
  rowFor : ∀ {u} key, R u u → Brings R Anything (h.findRow c key) u
  column : ∀ {u} type index row, R u u → Brings R Anything (h.column c type index row) u
  row : ∀ {u} type row, R u u → Brings R Anything (h.row c type row) u

namespace Bearing

variable {R : World → World → Prop} {h : Hooks} {c : Context} {listed : RawType → Property → Prop}
  {fit : World → ReflectiveMapper → Prop} (bearing : Bearing R h c listed fit) {u : World} (here : R u u)

/-! ### Plans -/

section Plans

variable {columns : List String} {chain : MatcherChain}

include bearing here

theorem fresh : Brings R Anything fresh u :=
  ⟨bearing.idle here ⟨rfl, Nat.le_succ _⟩, fun _ _ => trivial⟩

theorem note (s : String) : Brings R Anything (note s) u :=
  ⟨bearing.idle here ⟨rfl, Nat.le_refl _⟩, fun _ _ => trivial⟩

theorem log (level : LogLevel) (logger : Logger) (text : String) :
    Brings R Anything (MappingM.log level logger text) u :=
  ⟨bearing.idle here (World.idles_log level logger text u), fun _ _ => trivial⟩

omit bearing in
theorem settings (c : Context) : Brings R Anything (settings c) u := ⟨here, fun _ _ => trivial⟩

theorem fallbackMapper (owner : String) (p : Property) :
    Brings R Anything (fallbackMapper ⟨h, c, columns, chain⟩ owner p) u := by
  have logged : ∀ v, R v v → Brings R Anything
      (do MappingM.log .warning .mapping ("No column mapper for " ++ owner ++ "." ++ p.name ++ " of type "
            ++ p.type.text ++ "; using raw column values")
          return .raw : MappingM ColumnMapper) v := fun v there =>
    (bearing.log there _ _ _).bind bearing.toPassage fun _ _ on _ => .pure (bearing.settled on) trivial
  refine (settings here c).bind bearing.toPassage fun v s on _ => ?_
  have there := bearing.settled on
  dsimp only
  split
  · refine (Brings.throw (Q := Anything) there _).bind bearing.toPassage fun v _ on _ => ?_
    exact logged v (bearing.settled on)
  · exact logged v there

theorem planColumn (m : ReflectiveMapper) (p : Property) :
    BringsOver R Anything (planColumn ⟨h, c, columns, chain⟩ m p) u := by
  have pass := bearing.toPassage
  refine (BringsOver.lift pass (.lift here _)).bind pass fun v owner on _ => ?_
  refine (BringsOver.lift pass (.lift (pass.settled on) _)).bind pass fun v found on _ => ?_
  have there := pass.settled on
  cases found with
  | none => exact .pure there trivial
  | some index =>
    refine (BringsOver.lift pass (bearing.findColumn _ there)).bind pass fun v o on _ => ?_
    have there := pass.settled on
    have taken : ∀ (x : ColumnMapper) v, R v v → BringsOver R Anything
        (do modify fun unread => unread.erase ((columns[index]?).getD "")
            return some (p, .column x index) : Planning (Option Entry)) v := fun x v there =>
      (BringsOver.modify there _).bind pass fun _ _ on _ => .pure (pass.settled on) trivial
    cases o with
    | some x =>
      refine (BringsOver.pure (Q := Anything) there trivial).bind pass fun v x on _ => ?_
      exact taken x v (pass.settled on)
    | none =>
      refine (BringsOver.lift pass (bearing.fallbackMapper there _ _)).bind pass fun v x on _ => ?_
      exact taken x v (pass.settled on)

end Plans

def Plans (R : World → World → Prop) (fit : World → ReflectiveMapper → Prop) (plan : Planner) : Prop :=
  ∀ {u m} trail, R u u → fit u m → BringsOver R Anything (plan m trail) u

section Plans

variable {columns : List String} {chain : MatcherChain} {m : ReflectiveMapper} (fits : fit u m)

include bearing here fits

theorem planNested {plan : Planner} (plans : Plans R fit plan) (trail : Trail) {p : Property}
    (own : listed m.target p) (nested : String) :
    BringsOver R Anything (planNested ⟨h, c, columns, chain⟩ plan m trail p nested) u := by
  have pass := bearing.toPassage
  refine (BringsOver.lift pass (.lift here _)).bind pass fun v under on _ => ?_
  have there := pass.settled on
  split
  · refine (BringsOver.lift pass (.lift there _)).bind pass fun v owner on _ => ?_
    refine (BringsOver.lift pass (bearing.log (pass.settled on) _ _ _)).bind pass fun _ _ on _ => ?_
    exact .pure (pass.settled on) trivial
  · split
    · split
      · exact .throw there _
      · exact .throw there _
    · refine (BringsOver.lift pass (bearing.child there (bearing.stays on fits) own)).bind pass
        fun v made on its => ?_
      exact (plans trail (pass.settled on) its).bind pass fun _ _ on _ => .pure (pass.settled on) trivial

theorem planEntries {plan : Planner} (plans : Plans R fit plan) (trail : Trail) {ps : List Property}
    (own : ∀ p ∈ ps, listed m.target p) :
    BringsOver R Anything (planEntries ⟨h, c, columns, chain⟩ plan m trail ps) u := by
  have pass := bearing.toPassage
  induction ps generalizing u with
  | nil => exact .pure here trivial
  | cons p ps ih =>
    have others := fun p' member => own p' (List.mem_cons_of_mem p member)
    have more : ∀ v (o : Option Entry), R u v → BringsOver R Anything
        (do return o.toList ++ (← ReflectiveMapper.planEntries ⟨h, c, columns, chain⟩ plan m trail ps)) v :=
      fun v o on => (ih (pass.settled on) (bearing.stays on fits) others).bind pass
        fun _ _ on _ => .pure (pass.settled on) trivial
    unfold ReflectiveMapper.planEntries
    split
    · exact ih here fits others
    · split
      · exact (bearing.planColumn here m p).bind pass fun v o on _ => more v o on
      · refine (bearing.planNested here fits plans trail (own p List.mem_cons_self) _).bind pass ?_
        exact fun v o on _ => more v o on

end Plans

section Specialized

variable {columns : List String} {chain : MatcherChain}

include bearing

theorem planWithin (fuel : Nat) : Plans R fit (planWithin ⟨h, c, columns, chain⟩ fuel) := by
  have pass := bearing.toPassage
  induction fuel with
  | zero => exact fun _ here _ => .throw here _
  | succ fuel ih =>
    intro u m trail here fits
    unfold ReflectiveMapper.planWithin
    split
    · refine (BringsOver.lift pass (.lift here _)).bind pass fun v owner on _ => ?_
      exact (BringsOver.throw (Q := fun _ _ => False) (pass.settled on) _).bind pass fun _ _ _ never =>
        never.elim
    · refine (BringsOver.lift pass (bearing.table m.target here)).bind pass fun v o on lists => ?_
      have there := pass.settled on
      split
      · exact (BringsOver.lift pass (.lift there _)).bind pass fun _ _ on _ => .throw (pass.settled on) _
      · next t =>
        refine (bearing.planEntries there (bearing.stays on fits) ih _ (lists t rfl)).bind pass
          fun _ entries on _ => ?_
        split
        · exact .pure (pass.settled on) trivial
        · exact .pure (pass.settled on) trivial

variable {m : ReflectiveMapper} (fits : fit u m)
include here

theorem refuseLeftover (m : ReflectiveMapper) (unread : List String) :
    Brings R Anything (refuseLeftover c chain m unread) u := by
  have pass := bearing.toPassage
  refine (settings here c).bind pass fun v s on _ => ?_
  have there := pass.settled on
  split
  · refine (Brings.lift there _).bind pass fun v left on _ => ?_
    split
    · exact (Brings.lift (pass.settled on) _).bind pass fun _ _ on _ => .throw (pass.settled on) _
    · exact .pure (pass.settled on) trivial
  · exact .pure there trivial

include fits in
theorem specialize (columns : List String) : Brings R Anything (m.specialize h c columns) u := by
  have pass := bearing.toPassage
  refine (settings here c).bind pass fun v s on _ => ?_
  refine (Brings.get (pass.settled on)).bind pass fun v' w on' _ => ?_
  have still := bearing.stays (pass.trans on on') fits
  refine (bearing.planWithin _ [] (pass.settled on') still columns).bind pass fun v planned on _ => ?_
  have there := pass.settled on
  split
  split
  · exact (Brings.lift there _).bind pass fun _ _ on _ => .throw (pass.settled on) _
  · refine (bearing.refuseLeftover there m _).bind pass fun _ _ on _ => ?_
    refine (Brings.lift (pass.settled on) _).bind pass fun _ _ on _ => ?_
    exact (bearing.log (pass.settled on) _ _ _).bind pass fun _ _ on _ => .pure (pass.settled on) trivial

end Specialized

/-! ### Mapping -/

section Mapping

include bearing

theorem countCall (here : R u u) (m : CustomMapper) : Brings R Anything (countCall m) u :=
  ⟨bearing.counted _ here, fun _ _ => trivial⟩

theorem put (q : Question) (here : R u u) : BringsOver R Anything (q.put h c) u := by
  have pass := bearing.toPassage
  have given : ∀ {α β : Type} (f : α → β) v (a : α), R v v →
      BringsOver R Anything (pure (f a) : Reading β) v := fun _ _ _ there => .pure there trivial
  cases q with
  | value index => exact pass.columnOf here index
  | wasNull => exact pass.wasNull here
  | columns => exact (BringsOver.get here).bind pass fun v _ on _ => given _ v _ (pass.settled on)
  | settings => exact BringsOver.lift pass (settings here c)
  | hasColumn type =>
    exact (BringsOver.lift pass (bearing.columnFor type here)).bind pass fun v _ on _ =>
      given _ v _ (pass.settled on)
  | hasRow type =>
    exact (BringsOver.lift pass (bearing.rowFor type here)).bind pass fun v _ on _ =>
      given _ v _ (pass.settled on)
  | column type index => exact fun row => bearing.column type index row here
  | row type => exact fun row => bearing.row type row here
  | rowOf type other =>
    exact (BringsOver.lift pass (bearing.row type other here)).bind pass fun v _ on _ =>
      given _ v _ (pass.settled on)

theorem follow (script : Script) (here : R u u) : BringsOver R Anything (script.follow h c) u := by
  have pass := bearing.toPassage
  induction script generalizing u with
  | yield v => exact .pure here trivial
  | raise r => exact .throw here _
  | ask q next ih => exact (bearing.put q here).bind pass fun _ a on _ => ih a (pass.settled on)

theorem compute {delegate : TypeExpr → Reading Value}
    (delegates : ∀ type v, R v v → BringsOver R Anything (delegate type) v) (m : CustomMapper)
    (index : Option Int) (here : R u u) : BringsOver R Anything (m.compute h c delegate index) u := by
  have pass := bearing.toPassage
  unfold CustomMapper.compute
  split
  · exact .pure here trivial
  · cases index with
    | none =>
      exact (BringsOver.throw (Q := fun _ _ => False) here _).bind pass fun _ _ _ never => never.elim
    | some i =>
      refine (BringsOver.pure (Q := Anything) here trivial).bind pass fun v i on _ => ?_
      exact pass.columnOf (pass.settled on) i
  · exact pass.readAt here index fun _ _ _ there => .pure there trivial
  · exact pass.readAt here index fun _ _ _ there => .pure there trivial
  · exact pass.readAt here _ fun _ _ _ there => .pure there trivial
  · exact (pass.wasNull here).bind pass fun _ _ on _ => .pure (pass.settled on) trivial
  · refine (BringsOver.get here).bind pass fun v row on _ => ?_
    have pair : ∀ (p : String × Nat) v, R v v → BringsOver R Anything
        (do return Value.list [.text p.1, ← Reading.column p.2] : Reading Value) v := fun p v there =>
      (pass.columnOf there _).bind pass fun _ _ on _ => .pure (pass.settled on) trivial
    exact (BringsOver.mapM pass (pass.settled on) pair _).bind pass fun _ _ on _ =>
      .pure (pass.settled on) trivial
  · refine (BringsOver.lift pass (bearing.countCall here m)).bind pass fun _ _ on _ => ?_
    exact .pure (pass.settled on) trivial
  · exact delegates _ u here
  · exact .throw here _
  · exact bearing.follow _ here

theorem run {delegate : TypeExpr → Reading Value}
    (delegates : ∀ type v, R v v → BringsOver R Anything (delegate type) v) (m : CustomMapper)
    (index : Option Int) (here : R u u) : BringsOver R Anything (m.run h c delegate index) u := by
  unfold CustomMapper.run
  split
  · exact .throw here _
  · exact bearing.compute delegates m index here

theorem columnMapper (m : ColumnMapper) (index : Int) (here : R u u) :
    BringsOver R Anything (m.apply h c index) u := by
  have pass := bearing.toPassage
  refine (BringsOver.lift pass (Brings.get here)).bind pass fun v w on _ => ?_
  have there := pass.settled on
  cases m with
  | value origin target =>
    refine (pass.columnOf there index).bind pass fun v x on _ => ?_
    exact (BringsOver.lift pass (.lift (pass.settled on) _)).mono fun _ _ _ _ => trivial
  | array serial container origin element =>
    refine (pass.columnOf there index).bind pass fun v x on _ => ?_
    have there := pass.settled on
    split
    · exact .pure there trivial
    · split
      · exact (BringsOver.lift pass (.lift there _)).mono fun _ _ _ _ => trivial
      · exact .throw there _
  | raw => exact pass.columnOf there index
  | custom f => exact bearing.run (fun type v there row => bearing.column type index row there) f _ there
  | misplaced => exact .throw there _

theorem plan (q : Plan) (here : R u u) : BringsOver R Anything (q.apply h c) u := by
  have pass := bearing.toPassage
  induction q using Plan.induct_nested generalizing u with
  | step table es ih =>
  -- On the entries still to be read, from wherever the others have led.
  have entries : ∀ es' ⊆ es, ∀ keywords v, R v v →
      BringsOver R Anything (applyEntries h c table es' keywords) v := by
    intro es' inside
    induction es' with
    | nil =>
      intro keywords v there
      unfold applyEntries
      exact .pure there trivial
    | cons e es' rest =>
      intro keywords v there
      obtain ⟨p, source⟩ := e
      have first : BringsOver R Anything (source.apply h c) v := by
        unfold PlanSource.apply
        cases source with
        | column m index => exact bearing.columnMapper m index there
        | nested q => exact ih p q (inside List.mem_cons_self) there
      unfold applyEntries
      refine first.bind pass fun v x on _ => ?_
      refine (pass.wasNull (pass.settled on)).bind pass fun v last on _ => ?_
      split
      · exact .pure (pass.settled on) trivial
      · exact rest (fun _ member => inside (List.mem_cons_of_mem _ member)) _ v (pass.settled on)
  unfold Plan.apply
  refine (pass.isNullMarked here table.nullMarker).bind pass fun v marked on _ => ?_
  split
  · exact .pure (pass.settled on) trivial
  · refine (entries es (List.Subset.refl es) _ v (pass.settled on)).bind pass fun v found on _ => ?_
    have there := pass.settled on
    cases found with
    | none => exact .pure there trivial
    | some keywords =>
      refine (BringsOver.lift pass (Brings.get there)).bind pass fun v w on _ => ?_
      exact (BringsOver.lift pass (.lift (pass.settled on) _)).mono fun _ _ _ _ => trivial

def Fits (fit : World → ReflectiveMapper → Prop) (u : World) (m : RowMapper) : Prop := ∀ r ∈ m.reflects, fit u r

theorem rowMapper {m : RowMapper} (fits : Fits fit u m) (here : R u u) : BringsOver R Anything (m.apply h c) u := by
  have pass := bearing.toPassage
  cases m with
  | single serial mapper index => exact bearing.columnMapper mapper index here
  | reflective m =>
    refine (BringsOver.get here).bind pass fun v row on _ => ?_
    have still := bearing.stays on (fits m List.mem_cons_self)
    refine (BringsOver.lift pass (bearing.specialize (pass.settled on) still _)).bind pass fun v q on _ => ?_
    exact bearing.plan q (pass.settled on)
  | planned serial q => exact bearing.plan q here
  | custom f => exact bearing.run (fun type v there row => bearing.row type row there) f _ here
  | misplaced => exact .throw here _

theorem specializeCustom (m : CustomMapper) (columns : List String) (here : R u u) :
    Brings R Anything (m.specialize columns) u := by
  have pass := bearing.toPassage
  unfold CustomMapper.specialize
  split
  · exact .pure here trivial
  · exact .pure here trivial
  · exact (bearing.note here _).bind pass fun _ _ on _ => .pure (pass.settled on) trivial
  · exact (bearing.note here _).bind pass fun _ _ on _ => .pure (pass.settled on) trivial

theorem specializeRow {m : RowMapper} (fits : Fits fit u m) (columns : List String) (here : R u u) :
    Brings R (Fits fit) (m.specialize h c columns) u := by
  have pass := bearing.toPassage
  cases m with
  | reflective m =>
    refine (bearing.specialize here (fits m List.mem_cons_self) columns).bind pass fun v q on _ => ?_
    refine (bearing.fresh (pass.settled on)).bind pass fun v n on _ => .pure (pass.settled on) ?_
    exact fun _ none => absurd none List.not_mem_nil
  | custom f =>
    refine (bearing.specializeCustom f columns here).bind pass fun v g on _ => .pure (pass.settled on) ?_
    exact fun _ none => absurd none List.not_mem_nil
  | single | planned | misplaced => exact .pure here fits

theorem mapRows {m : RowMapper} (fits : Fits fit u m) {some? : Option RowMapper}
    (ready : ∀ r ∈ some?, Fits fit u r) (rows : List Row) (here : R u u) :
    Brings R Anything (mapRows h c some? m rows) u := by
  have pass := bearing.toPassage
  induction rows generalizing u some? with
  | nil => exact .pure here trivial
  | cons row rows ih =>
    have stays : ∀ {v} (a : RowMapper), R u v → Fits fit u a → Fits fit v a := fun a on fits r member =>
      bearing.stays on (fits r member)
    have rest : ∀ v a, R u v → Fits fit v a → Brings R Anything
        (do let x ← (a.apply h c).run row
            return x.1 :: (← RowMapping.mapRows h c (some a) m rows) : MappingM (List Value)) v := by
      intro v a on its
      refine (bearing.rowMapper its (pass.settled on) row).bind pass fun v' x on' _ => ?_
      have kept : ∀ r ∈ some a, Fits fit v' r := by
        rintro _ ⟨⟩ r member
        exact bearing.stays on' (its r member)
      exact (ih (stays m (pass.trans on on') fits) kept (pass.settled on')).bind pass fun _ _ on _ =>
        .pure (pass.settled on) trivial
    unfold RowMapping.mapRows
    cases some? with
    | none => exact (bearing.specializeRow fits row.columns here).bind pass rest
    | some a => exact (Brings.pure (Q := Fits fit) here (ready a rfl)).bind pass rest

theorem requireRow (key : Descriptor) (here : R u u) : Brings R (Fits fit) (Registry.requireRow h c key) u := by
  have pass := bearing.toPassage
  refine (bearing.findRow key here).bind pass fun v o on its => ?_
  cases o with
  | none => exact .throw (pass.settled on) _
  | some m => exact .pure (pass.settled on) (its m rfl)

theorem mapOne (key : Descriptor) (row : Row) (here : R u u) :
    Brings R Anything (Session.mapOne h c key row) u := by
  have pass := bearing.toPassage
  refine (bearing.requireRow key here).bind pass fun v m on fits => ?_
  rw [StateT.run'_eq, map_eq_pure_bind]
  exact (bearing.rowMapper fits (pass.settled on) row).bind pass fun _ _ on _ => .pure (pass.settled on) trivial

theorem mapMany (key : Descriptor) (rows : List Row) (here : R u u) :
    Brings R Anything (Session.mapMany h c key rows) u := by
  have pass := bearing.toPassage
  refine (bearing.requireRow key here).bind pass fun v m on fits => ?_
  exact bearing.mapRows fits (fun _ none => by cases none) rows (pass.settled on)

theorem hookColumn (type : TypeExpr) (index : Int) (row : Row) (here : R u u) : Brings R Anything
    (do match ← Registry.findColumn h c (.of type) with
        | some m => (m.apply h c index).run row
        | none => return (.text "no mapper", row) : MappingM (Value × Row)) u := by
  have pass := bearing.toPassage
  refine (bearing.findColumn (.of type) here).bind pass fun v o on _ => ?_
  cases o with
  | none => exact .pure (pass.settled on) trivial
  | some m => exact (bearing.columnMapper m index (pass.settled on) row).mono fun _ _ _ _ => trivial

theorem hookRow (type : TypeExpr) (row : Row) (here : R u u) : Brings R Anything
    (do match ← Registry.findRow h c (.of type) with
        | some m => (m.apply h c).run row
        | none => return (.text "no mapper", row) : MappingM (Value × Row)) u := by
  have pass := bearing.toPassage
  refine (bearing.findRow (.of type) here).bind pass fun v o on fits => ?_
  cases o with
  | none => exact .pure (pass.settled on) trivial
  | some m => exact (bearing.rowMapper (fits m rfl) (pass.settled on) row).mono fun _ _ _ _ => trivial

end Mapping
end Bearing
end RowMapping
