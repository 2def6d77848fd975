import Mathlib.Data.List.Induction
import RowMapping.Proofs.Registry.Library
import RowMapping.Proofs.Registry.PureLookups

/-! Row look-ups over whole runs of registrations and look-ups in a context with pure factories. A
registration of row factories empties the row cache. One of column factories or of properties leaves it
as it is, so that look-ups agree with the present factories exactly as long as no such registration
changes what a type comes to for which a row mapper is kept. -/
namespace RowMapping

open MappingM Session

theorem FoundAlike.behavesRow {x y : Option RowMapper} (alike : FoundAlike x y) :
    Option.Rel RowMapper.Behaves x y := by
  cases y with
  | none => rw [foundAlike_none alike]; exact .none
  | some n =>
    obtain ⟨m, rfl, one⟩ := foundAlike_some alike
    exact .some (RowMapper.behaves_of_alike one)

inductive Operation where
  | registerRow (what : Registered) (target : Option TypeExpr)
  | registerColumn (what : Registered) (target : Option TypeExpr)
  | registerProperties (type : TypeExpr) (properties : List PropertySpec) (builder : Option Builder)
      (nullMarker : Option String)
  | findRow (key : Descriptor)
  | findColumn (key : Descriptor)

namespace Operation

def run (depth : Nat) (c : Context) : Operation → MappingM Unit
  | .registerRow what target => Session.registerRow c what target
  | .registerColumn what target => Session.registerColumn c what target
  | .registerProperties type properties builder nullMarker =>
    Session.registerProperties c type properties builder nullMarker
  | .findRow key => do let _ ← Registry.findRow (hooks depth) c key
  | .findColumn key => do let _ ← Registry.findColumn (hooks depth) c key

/-- The world after some operations, each of which may have failed. -/
def after (depth : Nat) (c : Context) (ops : List Operation) (w : World) : World :=
  ops.foldl (fun w op => ((op.run depth c).run w).2) w

end Operation

namespace World

def keptRow? (w : World) (c : Context) (key : Descriptor) : Option RowMapper :=
  (w.registries[c.registry]?).bind (·.rows.cached? key)

/-- Every row mapper that is kept is what its type comes to. -/
def Current (c : Context) (w : World) : Prop :=
  ∀ key m, w.keptRow? c key = some m → (w.sources c).Resolves key m

def emptied (w : World) (i : Nat) : World :=
  { w with registries := w.registries.modify i fun r =>
      ⟨{ r.rows with cache := [] }, { r.columns with cache := [] }⟩ }

/-- Row look-ups find what the types come to, and do not fail where they come to it with no more
look-ups nested than the session allows. What they find behaves as what is found when all that is kept
is forgotten. -/
structure Agrees (c : Context) (w : World) : Prop where
  finds : ∀ key depth, Matches (depth + 1) (fun n => (w.sources c).row n key)
    ((Registry.findRow (hooks depth) c key).run w).1
  behaves : ∀ key depth depth' x y u v,
    (Registry.findRow (hooks depth) c key).run w = (.ok x, u) →
    (Registry.findRow (hooks depth') c key).run (w.emptied c.registry) = (.ok y, v) →
      Option.Rel RowMapper.Behaves x y

def RowsStand (i : Nat) (w v : World) : Prop :=
  ∀ r, w.registries[i]? = some r →
    ∃ t, v.registries[i]? = some t ∧ (t.rows.cache = [] ∨ t.rows = r.rows)

theorem rowsStand_of_registries {i : Nat} {w v : World} (same : v.registries = w.registries) :
    w.RowsStand i v := fun r known => ⟨r, same ▸ known, .inr rfl⟩

theorem rowsStand_add (i : Nat) (w : World) (r : Registry) :
    w.RowsStand i { w with registries := w.registries ++ [r] } := by
  intro t known
  refine ⟨t, ?_, .inr rfl⟩
  rw [List.getElem?_append_left (List.getElem?_eq_some_iff.mp known).1]
  exact known

theorem rowsStand_modify (i : Nat) (w : World) (j : Nat) {f : Registry → Registry}
    (stand : ∀ r, (f r).rows.cache = [] ∨ (f r).rows = r.rows) :
    w.RowsStand i { w with registries := w.registries.modify j f } := by
  intro r known
  by_cases here : j = i
  · exact ⟨f r, by simp [known, here], stand r⟩
  · exact ⟨r, by simp [known, here], .inr rfl⟩

/-- Everything but a row look-up that keeps what it finds lets rows stand. -/
theorem course_rowsStand (i : Nat) : Course (RowsStand i) where
  refl w := rowsStand_of_registries rfl
  trans := by
    intro u v w h k r known
    obtain ⟨t, ht, first⟩ := h r known
    obtain ⟨t', ht', second⟩ := k t ht
    refine ⟨t', ht', ?_⟩
    rcases second with none | same
    · exact .inl none
    · rw [same]
      exact first
  change := by
    intro w v change
    cases change with
    | aside _ registries _ => exact rowsStand_of_registries registries
    | derived | declared | tablesAdded => exact rowsStand_of_registries rfl
    | founded | copied => exact rowsStand_add i w _
    | rowRegistered j f => exact rowsStand_modify i w j fun _ => .inl rfl
    | columnRegistered j f => exact rowsStand_modify i w j fun _ => .inr rfl

variable {c : Context} {w : World} {r : Registry}

theorem sources_of_known (known : w.registries[c.registry]? = some r) :
    w.sources c = ⟨w.schema, r.rows.factories, r.columns.factories, w.described c⟩ := by
  simp [sources, known]

theorem keptRow_of_known (known : w.registries[c.registry]? = some r) (key : Descriptor) :
    w.keptRow? c key = r.rows.cached? key := by
  simp [keptRow?, known]

theorem keptRow_of_empty (known : w.registries[c.registry]? = some r) (empty : r.rows.cache = [])
    (key : Descriptor) : w.keptRow? c key = none := by
  simp [keptRow?, known, Chain.cached?, empty]

theorem current_of_empty (known : w.registries[c.registry]? = some r) (empty : r.rows.cache = []) :
    w.Current c := by
  intro key m kept
  rw [keptRow_of_empty known empty] at kept
  contradiction

theorem Serves.sources_eq {o : Sources} (serves : w.Serves o c) : w.sources c = o := by
  obtain ⟨r, known, same⟩ := serves.registry
  rw [sources_of_known known, serves.schema, same.rows, same.columns, serves.described]

theorem Serves.current {o : Sources} (serves : w.Serves o c) : w.Current c := by
  intro key m kept
  rw [serves.sources_eq]
  obtain ⟨r, known, same⟩ := serves.registry
  rw [keptRow_of_known known] at kept
  exact same.kept key m kept

theorem Current.ready (current : w.Current c) (coherent : w.Coherent)
    (known : w.registries[c.registry]? = some r) : w.Ready (w.sources c) c := by
  refine ⟨coherent, rfl, rfl, r, known, ?_, ?_, fun key m kept => ?_⟩
  · rw [sources_of_known known]
  · rw [sources_of_known known]
  · rw [← keptRow_of_known known] at kept
    exact current key m kept

theorem Current.finds (current : w.Current c) (coherent : w.Coherent)
    (known : w.registries[c.registry]? = some r) (pure : (w.sources c).Pure) (key : Descriptor)
    (depth : Nat) : Matches (depth + 1) (fun n => (w.sources c).row n key)
      ((Registry.findRow (hooks depth) c key).run w).1 :=
  (finds_findRow pure depth key w (current.ready coherent known)).2

theorem emptied_finds (coherent : w.Coherent) (known : w.registries[c.registry]? = some r)
    (pure : (w.sources c).Pure) (key : Descriptor) (depth : Nat) :
    Matches (depth + 1) (fun n => (w.sources c).row n key)
      ((Registry.findRow (hooks depth) c key).run (w.emptied c.registry)).1 := by
  have emptied : (w.emptied c.registry).registries[c.registry]? =
      some ⟨{ r.rows with cache := [] }, { r.columns with cache := [] }⟩ := by
    simp [World.emptied, known]
  have same : (w.emptied c.registry).sources c = w.sources c := by
    rw [sources_of_known emptied, sources_of_known known]
    rfl
  have empty : (w.emptied c.registry).Coherent :=
    coherent_modify (fun _ _ _ _ he => absurd he List.not_mem_nil) coherent
  rw [← same]
  exact (current_of_empty emptied rfl).finds empty emptied (same ▸ pure) key depth

theorem agrees_iff_current (coherent : w.Coherent) (known : w.registries[c.registry]? = some r)
    (pure : (w.sources c).Pure) : w.Agrees c ↔ w.Current c := by
  constructor
  · intro agrees key m kept
    rw [keptRow_of_known known] at kept
    have found := agrees.finds key 0
    rw [findRow_hit known kept] at found
    obtain ⟨n, y, hy, alike⟩ := found.1 (some m) rfl
    obtain ⟨m', rfl, one⟩ := foundAlike_some alike.symm
    exact ⟨n, m', hy, one.symm⟩
  · intro current
    refine ⟨current.finds coherent known pure, ?_⟩
    intro key depth depth' x y u v ran ran'
    have found := current.finds coherent known pure key depth
    have anew := emptied_finds coherent known pure key depth'
    rw [ran] at found
    rw [ran'] at anew
    exact (found.unique (Sources.rising_row key) anew).behavesRow

end World

namespace Operation

variable {depth : Nat} {c : Context} {w : World} {r : Registry}

/-- What was kept before the operation and is kept after it is still what its type comes to, if it was
before. -/
def Harmless (depth : Nat) (c : Context) (op : Operation) (w : World) : Prop :=
  ∀ key m, w.keptRow? c key = some m → ((op.run depth c).run w).2.keptRow? c key = some m →
    (w.sources c).Resolves key m → (((op.run depth c).run w).2.sources c).Resolves key m

theorem after_append (before rest : List Operation) (w : World) :
    after depth c (before ++ rest) w = after depth c rest (after depth c before w) :=
  List.foldl_append

theorem kept_run (op : Operation) : Leads World.Kept (op.run depth c) := by
  have course := World.course_kept
  have lookups := (hooks_resolve depth).lookups
  cases op with
  | registerRow what target => exact course.registerRow c what target
  | registerColumn what target => exact course.registerColumn c what target
  | registerProperties type ps builder marker =>
    exact course.registerProperties c type ps builder marker
  | findRow key => exact course.bind (lookups.row c key) fun _ => course.pure _
  | findColumn key => exact course.bind (lookups.findColumn c key) fun _ => course.pure _

theorem kept_after (depth : Nat) (c : Context) (ops : List Operation) (w : World) :
    w.Kept (after depth c ops w) := by
  induction ops generalizing w with
  | nil => exact World.course_kept.refl w
  | cons op ops ih => exact World.course_kept.trans (kept_run op w) (ih _)

theorem pure_before {v : World} (grown : w.Grown v) (known : w.registries[c.registry]? = some r)
    (pure : (v.sources c).Pure) : (w.sources c).Pure := by
  obtain ⟨t, ht, ⟨rows, hrows, _⟩, ⟨columns, hcolumns, _⟩⟩ := grown.registries known
  rw [World.sources_of_known ht] at pure
  rw [World.sources_of_known known]
  constructor
  · intro f hf
    refine pure.rows f ?_
    rw [hrows]
    exact List.mem_append_right rows hf
  · intro f hf
    refine pure.columns f ?_
    rw [hcolumns]
    exact List.mem_append_right columns hf

/-- A registration leaves the rows as they are or keeps nothing, so that only its harm counts. -/
theorem current_of_rowsStand {v : World} (stand : w.RowsStand c.registry v)
    (known : w.registries[c.registry]? = some r) (current : w.Current c)
    (harmless : ∀ key m, w.keptRow? c key = some m → v.keptRow? c key = some m →
      (w.sources c).Resolves key m → (v.sources c).Resolves key m) : v.Current c := by
  obtain ⟨t, ht, none | same⟩ := stand r known
  · exact World.current_of_empty ht none
  · intro key m kept
    have before : w.keptRow? c key = some m := by
      rw [World.keptRow_of_known known, ← same, ← World.keptRow_of_known ht]
      exact kept
    exact harmless key m before kept (current key m before)

theorem current_run (coherent : w.Coherent) (known : w.registries[c.registry]? = some r)
    (pure : (w.sources c).Pure) (current : w.Current c) {op : Operation}
    (harmless : op.Harmless depth c w) : ((op.run depth c).run w).2.Current c := by
  have course := World.course_rowsStand c.registry
  have ready := current.ready coherent known
  cases op with
  | registerRow what target =>
    exact current_of_rowsStand (course.registerRow c what target w) known current harmless
  | registerColumn what target =>
    exact current_of_rowsStand (course.registerColumn c what target w) known current harmless
  | registerProperties type ps builder marker =>
    exact current_of_rowsStand (course.registerProperties c type ps builder marker w) known current
      harmless
  | findRow key =>
    have found := (finds_findRow pure depth key w ready).1
    rw [run, run_bind]
    split <;> next e => rw [e] at found; exact found.serves.current
  | findColumn key =>
    have found := (finds_findColumn pure depth key w ready).1
    rw [run, run_bind]
    split <;> next e => rw [e] at found; exact found.serves.current

theorem registerRow_empties {what : Registered} {target : Option TypeExpr} {v : World}
    (ran : (Session.registerRow c what target).run w = (.ok (), v))
    (known : v.registries[c.registry]? = some r) : r.rows.cache = [] := by
  rw [Session.registerRow, run_bind] at ran
  split at ran
  · next f u _ =>
    rw [run_bind_ok (x := changeRegistry _ _) (a := ()) rfl] at ran
    have registries : v.registries = u.registries.modify c.registry (·.registerRow f) := by
      have told := congrArg (fun result => result.2.registries) ran
      rw [← told]
      show World.registries (if _ then _ else _) = _
      split <;> rfl
    rw [registries, List.getElem?_modify_eq, Option.map_eq_map, Option.map_eq_some_iff] at known
    obtain ⟨t, _, rfl⟩ := known
    rfl
  · cases ran

section Runs

variable {ops : List Operation}

theorem along_run {s : Schema} (reached : Reached s w) (known : w.registries[c.registry]? = some r)
    (pure : ((after depth c ops w).sources c).Pure) {before rest : List Operation}
    (split : ops = before ++ rest) :
    (after depth c before w).Coherent ∧ ((after depth c before w).sources c).Pure ∧
      ∃ r, (after depth c before w).registries[c.registry]? = some r := by
  have first := kept_after depth c before w
  have second := kept_after depth c rest (after depth c before w)
  rw [← after_append, ← split] at second
  obtain ⟨t, ht, _⟩ := first.1.registries known
  exact ⟨first.2 (World.coherent_of_reached reached), pure_before second.1 ht pure, t, ht⟩

theorem current_after {s : Schema} (reached : Reached s w)
    (known : w.registries[c.registry]? = some r) (first : w.Current c)
    (pure : ((after depth c ops w).sources c).Pure)
    (harmless : ∀ before op rest, ops = before ++ op :: rest →
      op.Harmless depth c (after depth c before w)) {before rest : List Operation}
    (split : ops = before ++ rest) : (after depth c before w).Current c := by
  -- On the operations done so far, so that the one just done is the last of them.
  induction before using List.reverseRecOn generalizing rest with
  | nil => exact first
  | append_singleton before op ih =>
    rw [List.append_assoc] at split
    obtain ⟨coherent, pureNow, t, ht⟩ := along_run reached known pure split
    rw [after_append]
    exact current_run coherent ht pureNow (ih split) (harmless before op rest split)

end Runs
end Operation

open Operation

/-- Along every run of registrations and look-ups in a context where all that was kept is current and
all factories are pure: what the sources come to is what a look-up finds when everything kept is
forgotten. Look-ups of all types agree with that if and only if all row mappers that are kept do, and so
they always do right after a row factory is registered. They agree all along the run if and only if no
operation changes what a type comes to for which a row mapper was kept and stays kept. -/
theorem row_lookups_agree {s : Schema} {w : World} (reached : Reached s w) {c : Context} {r : Registry}
    (known : w.registries[c.registry]? = some r) (first : w.Current c) (depth : Nat)
    (ops : List Operation) (pure : ((after depth c ops w).sources c).Pure) :
    (∀ before rest, ops = before ++ rest → ∀ key depth', Matches (depth' + 1)
      (fun n => ((after depth c before w).sources c).row n key)
      ((Registry.findRow (hooks depth') c key).run
        ((after depth c before w).emptied c.registry)).1) ∧
    (∀ before rest, ops = before ++ rest →
      ((after depth c before w).Agrees c ↔ (after depth c before w).Current c)) ∧
    (∀ before what target rest, ops = before ++ .registerRow what target :: rest →
      ∀ v, (Session.registerRow c what target).run (after depth c before w) = (.ok (), v) →
        v.Agrees c) ∧
    ((∀ before rest, ops = before ++ rest → (after depth c before w).Agrees c) ↔
      ∀ before op rest, ops = before ++ op :: rest →
        op.Harmless depth c (after depth c before w)) := by
  have agrees : ∀ before rest, ops = before ++ rest →
      ((after depth c before w).Agrees c ↔ (after depth c before w).Current c) := by
    intro before rest split
    obtain ⟨coherent, pureNow, t, ht⟩ := along_run reached known pure split
    exact World.agrees_iff_current coherent ht pureNow
  refine ⟨?_, agrees, ?_, ?_⟩
  · intro before rest split key depth'
    obtain ⟨coherent, pureNow, t, ht⟩ := along_run reached known pure split
    exact World.emptied_finds coherent ht pureNow key depth'
  · intro before what target rest split v ran
    have next : ops = (before ++ [.registerRow what target]) ++ rest := by rw [split]; simp
    have reaches : after depth c (before ++ [.registerRow what target]) w = v := by
      rw [after_append]
      exact congrArg Prod.snd ran
    obtain ⟨_, _, t, ht⟩ := along_run reached known pure next
    have current := World.current_of_empty ht (registerRow_empties ran (reaches ▸ ht))
    rw [← reaches]
    exact (agrees _ rest next).mpr current
  · constructor
    -- What is kept after an operation is current then, so the operation did no harm.
    · intro all before op rest split key m _ kept _
      have next : ops = (before ++ [op]) ++ rest := by rw [split]; simp
      have current := (agrees _ rest next).mp (all _ rest next)
      rw [after_append] at current
      exact current key m kept
    · intro harmless before rest split
      exact (agrees before rest split).mpr
        (current_after reached known first pure harmless split)

/-! ### A column factory registered too late -/

def RowFactory.isPlain : RowFactory → Bool
  | .scalars _ | .arrays | .fixed .. | .reflective .. => true
  | _ => false

theorem pure_of_plain {o : Sources} (rows : o.rows.all (·.isPlain) = true)
    (columns : o.columns.all (·.isPlain) = true) : o.Pure := by
  constructor
  · intro f hf
    have plain := List.all_eq_true.mp rows f hf
    cases f with
    | custom | written => contradiction
    | reflective | fixed | scalars | arrays => trivial
  · intro f hf
    have plain := List.all_eq_true.mp columns f hf
    cases f with
    | custom | written | reflective => contradiction
    | scalars | arrays | fixed => exact ⟨trivial, trivial⟩

def integer : TypeExpr := .cls (.builtin .int)

def renewInteger : Operation :=
  .registerColumn (.mapper ⟨.function, none, .const (.text "new"), none, none, .absent⟩) (some integer)

def mappedOne (w : World) : Option Value :=
  ((do
    let m ← Registry.requireRow (hooks depth) ⟨0, 0, 0⟩ (.of integer)
    (m.apply (hooks depth) ⟨0, 0, 0⟩).run' ⟨["a"], [.int 1], false⟩ : MappingM Value).run w).1.toOption

/-- Integers are looked up before the factory for them is registered, and stay what they were, though
they come to what the factory makes of them. -/
theorem late_column_unseen :
    ∃ w, (Session.start default [] ⟨.fresh true, none, []⟩).toOption = some w ∧
      ∃ v, after depth ⟨0, 0, 0⟩ [.findRow (.of integer), renewInteger] w = v ∧
        (v.sources ⟨0, 0, 0⟩).Pure ∧ (∃ x, mappedOne v = some x ∧ x.same (.int 1) = true) ∧
          ∃ x, mappedOne (v.emptied 0) = some x ∧ x.same (.text "new") = true := by
  have computed : ((Session.start default [] ⟨.fresh true, none, []⟩).toOption.any fun w =>
      let v := after depth ⟨0, 0, 0⟩ [.findRow (.of integer), renewInteger] w
      (v.sources ⟨0, 0, 0⟩).rows.all (·.isPlain) && (v.sources ⟨0, 0, 0⟩).columns.all (·.isPlain) &&
        ((mappedOne v).any (·.same (.int 1)) && (mappedOne (v.emptied 0)).any (·.same (.text "new")))) =
          true := by decide +kernel
  simp only [Option.any_eq_true, Bool.and_eq_true] at computed
  obtain ⟨w, started, ⟨rows, columns⟩, old, new⟩ := computed
  exact ⟨w, started, _, rfl, pure_of_plain rows columns, old, new⟩

/-- Registered before the first look-up, the factory is seen. -/
theorem row_lookups_agree_early :
    ∃ w, (Session.start default [] ⟨.fresh true, none, []⟩).toOption = some w ∧
      World.Agrees ⟨0, 0, 0⟩ (after depth ⟨0, 0, 0⟩ [renewInteger, .findRow (.of integer)] w) := by
  have computed : ((Session.start default [] ⟨.fresh true, none, []⟩).toOption.any fun w =>
      let v := after depth ⟨0, 0, 0⟩ [renewInteger, .findRow (.of integer)] w
      (v.sources ⟨0, 0, 0⟩).rows.all (·.isPlain) && (v.sources ⟨0, 0, 0⟩).columns.all (·.isPlain) &&
        ((w.registries[0]?).any (·.rows.cache.isEmpty) &&
          ((after depth ⟨0, 0, 0⟩ [renewInteger] w).registries[0]?).any (·.rows.cache.isEmpty))) =
            true := by decide +kernel
  simp only [Option.any_eq_true, Bool.and_eq_true, List.isEmpty_iff] at computed
  obtain ⟨w, started, ⟨rows, columns⟩, ⟨r, known, empty⟩, t, ht, still⟩ := computed
  have reached : Reached default w := Reached.after started []
  have first := World.current_of_empty (c := ⟨0, 0, 0⟩) known empty
  have agrees := row_lookups_agree reached known first depth [renewInteger, .findRow (.of integer)]
    (pure_of_plain rows columns)
  refine ⟨w, started, agrees.2.2.2.mpr (fun before op rest split key m kept => ?_) _ [] rfl⟩
  -- Nothing is kept before either operation.
  cases before with
  | nil =>
    have none := World.keptRow_of_empty (c := ⟨0, 0, 0⟩) known empty key
    cases none.symm.trans kept
  | cons one before =>
    cases before with
    | nil =>
      cases split
      have none := World.keptRow_of_empty (c := ⟨0, 0, 0⟩) ht still key
      cases none.symm.trans kept
    | cons two before => simp at split

end RowMapping
