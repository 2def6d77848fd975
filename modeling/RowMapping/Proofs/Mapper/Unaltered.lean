import RowMapping.Proofs.Mapper.Failures

/-! Reading leaves rows as they are, up to whether the value read last was null: under mappers of every
kind, plans of them, and the look-ups that come back into a session from within. -/
namespace RowMapping

open MappingM Reading

/-- Whatever comes of the reading, and wherever it leads, the row keeps its columns and values. -/
abbrev Leaves (row : Row) {α : Type} (x : Reading α) : Prop :=
  ComesOver (fun _ => True) (fun _ => True) row.Like (fun _ : α => True) x

theorem Row.Like.refl (row : Row) : row.Like row := ⟨rfl, rfl⟩

theorem Row.get_eq_ok {r r' : Row} {index : Int} {v : Value} (got : r.get index = .ok (v, r')) :
    v ∈ r.values ∧ r' = { r with wasNull := v.isNull } := by
  unfold Row.get at got
  generalize (if index < 0 then index + r.values.length else index) = i at got
  dsimp only at got
  split at got
  · contradiction
  · split at got
    · next present =>
      cases got
      exact ⟨List.mem_of_getElem? present, rfl⟩
    · contradiction

namespace Leaves

variable {row : Row} {α β : Type}

protected theorem pure (a : α) : Leaves row (pure a : Reading α) := ComesOver.pure trivial

protected theorem throw (e : Failure) : Leaves row (throw e : Reading α) := ComesOver.throw trivial

protected theorem lift (x : MappingM α) : Leaves row (liftM x : Reading α) :=
  ComesOver.lift (.anything x)

protected theorem bind {x : Reading α} {f : α → Reading β} (first : Leaves row x)
    (rest : ∀ a, Leaves row (f a)) : Leaves row (x >>= f) :=
  ComesOver.bind first fun a _ => rest a

protected theorem get : Leaves row (get : Reading Row) := ComesOver.get.mono fun _ _ => trivial

protected theorem mapM {f : β → Reading α} (each : ∀ b, Leaves row (f b)) (bs : List β) :
    Leaves row (bs.mapM f) :=
  (ComesOver.mapM fun b _ => each b).mono fun _ _ => trivial

theorem column (index : Int) : Leaves row (column index) := by
  refine ComesOver.get.bind fun r like => ?_
  refine (ComesOver.liftExcept fun _ _ => trivial).bind fun a got => ?_
  obtain ⟨v, after⟩ := a
  obtain ⟨_, rfl⟩ := Row.get_eq_ok got
  exact ComesOver.bind (ComesOver.set like) fun _ _ => Leaves.pure v

theorem wasNull : Leaves row wasNull := Leaves.get.bind fun _ => .pure _

theorem requireIndex (index : Option Int) : Leaves row (requireIndex index) := by
  cases index with
  | none => exact .throw _
  | some i => exact .pure i

theorem nullMarked (marker : Option String) : Leaves row (isNullMarked marker) := by
  cases marker with
  | none => exact .pure _
  | some marker =>
    refine Leaves.get.bind fun r => ?_
    dsimp only
    split
    · exact (column _).bind fun _ => wasNull
    · exact .throw _

end Leaves

structure Hooks.Leave (h : Hooks) : Prop where
  column : ∀ row c type index, Leaves row (fun r => h.column c type index r)
  row : ∀ row c type, Leaves row (fun r => h.row c type r)

namespace Leaves

variable {h : Hooks} {row : Row} {c : Context}

theorem put (leave : h.Leave) (q : Question) : Leaves row (q.put h c) := by
  cases q with
  | value index => exact column index
  | wasNull => exact wasNull
  | columns => exact Leaves.get.bind fun _ => .pure _
  | settings => exact .lift _
  | hasColumn type => exact (Leaves.lift _).bind fun _ => .pure _
  | hasRow type => exact (Leaves.lift _).bind fun _ => .pure _
  | column type index => exact leave.column row c type index
  | row type => exact leave.row row c type
  | rowOf type other => exact (Leaves.lift _).bind fun _ => .pure _

theorem follow (leave : h.Leave) (script : Script) : Leaves row (script.follow h c) := by
  induction script with
  | yield v => exact .pure v
  | raise r => exact .throw _
  | ask q next ih => exact (put leave q).bind ih

theorem custom (leave : h.Leave) {delegate : TypeExpr → Reading Value}
    (handed : ∀ type, Leaves row (delegate type)) (m : CustomMapper) (index : Option Int) :
    Leaves row (m.run h c delegate index) := by
  unfold CustomMapper.run
  split
  · exact .throw _
  · unfold CustomMapper.compute
    split
    · exact .pure _
    · exact (requireIndex _).bind fun i => column i
    · refine (requireIndex _).bind fun i => (column i).bind fun _ => ?_
      exact .pure _
    · exact (requireIndex _).bind fun i => (column i).bind fun _ => .pure _
    · exact (requireIndex _).bind fun i => (column i).bind fun _ => .pure _
    · exact wasNull.bind fun _ => .pure _
    · refine Leaves.get.bind fun _ => Leaves.bind (.mapM (fun p => ?_) _) fun _ => .pure _
      exact (column _).bind fun _ => .pure _
    · exact (Leaves.lift _).bind fun _ => .pure _
    · exact handed _
    · exact .throw _
    · exact follow leave _

end Leaves

namespace Hooks.Leave

variable {h : Hooks} (leave : h.Leave) {row : Row} {c : Context}
include leave

theorem columnMapper (m : ColumnMapper) (index : Int) : Leaves row (m.apply h c index) := by
  refine (Leaves.lift _).bind fun u => ?_
  cases m with
  | value origin target => exact (Leaves.column index).bind fun v => .lift _
  | array serial container origin element =>
    refine (Leaves.column index).bind fun v => ?_
    split
    · exact .pure _
    · split
      · exact .lift _
      · exact .throw _
  | raw => exact .column index
  | custom f => exact .custom leave (fun type => leave.column row c type index) f _
  | misplaced m => exact .throw _

omit leave in
theorem entries {table : PropertyTable} {es : List (Property × PlanSource)}
    (each : ∀ e ∈ es, Leaves row (e.2.apply h c)) (keywords : Keywords) :
    Leaves row (applyEntries h c table es keywords) := by
  induction es generalizing keywords with
  | nil =>
    unfold applyEntries
    exact .pure _
  | cons e es ih =>
    unfold applyEntries
    refine (each e List.mem_cons_self).bind fun v => Leaves.wasNull.bind fun last => ?_
    split
    · exact .pure _
    · exact ih (fun e member => each e (List.mem_cons_of_mem _ member)) _

theorem plan (p : Plan) : Leaves row (p.apply h c) := by
  induction p using Plan.induct_nested with
  | step table es ih =>
  have each : ∀ e ∈ es, Leaves row (e.2.apply h c) := by
    rintro ⟨p, source⟩ member
    unfold PlanSource.apply
    cases source with
    | column mapper index => exact leave.columnMapper mapper index
    | nested q => exact ih p q member
  unfold Plan.apply
  refine (Leaves.nullMarked _).bind fun marked => ?_
  split
  · exact .pure _
  · refine (entries each _).bind fun found => ?_
    cases found with
    | none => exact .pure _
    | some keywords => exact (Leaves.lift _).bind fun u => .lift _

theorem source (x : PlanSource) : Leaves row (x.apply h c) := by
  unfold PlanSource.apply
  cases x with
  | column mapper index => exact leave.columnMapper mapper index
  | nested q => exact leave.plan q

theorem rowMapper (m : RowMapper) : Leaves row (m.apply h c) := by
  cases m with
  | single serial mapper index => exact leave.columnMapper mapper index
  | reflective m => exact Leaves.get.bind fun r => (Leaves.lift _).bind fun p => leave.plan p
  | planned serial p => exact leave.plan p
  | custom m => exact .custom leave (fun type => leave.row row c type) m _
  | misplaced m => exact .throw _

end Hooks.Leave

/-- Within a session every reading leaves the row. -/
theorem leave_hooks (depth : Nat) : (Session.hooks depth).Leave := by
  -- Each return into the session looks a mapper up and applies it with one return less.
  induction depth with
  | zero => exact ⟨fun _ _ _ _ => .throw _, fun _ _ _ => .throw _⟩
  | succ depth ih =>
    constructor
    · intro row c type index r like
      refine (Comes.anything _).bind fun found _ => ?_
      cases found with
      | none => exact .pure ⟨trivial, like⟩
      | some m => exact ih.columnMapper m index r like
    · intro row c type r like
      refine (Comes.anything _).bind fun found _ => ?_
      cases found with
      | none => exact .pure ⟨trivial, like⟩
      | some m => exact ih.rowMapper m r like

theorem Leaves.like {row r : Row} {α : Type} {x : Reading α} {w v : World} {a : α} (leaves : Leaves row x)
    (ran : (x.run row).run w = (.ok (a, r), v)) : row.Like r :=
  (leaves.returned (.refl row) trivial ran).2

end RowMapping
