import RowMapping.Proofs.Registry.Uncached
import RowMapping.Proofs.Schema.Described

/-! What row factories come to when nothing is kept: the newest of them that answers, or else the first
column by what the column factories come to. -/
namespace RowMapping

abbrev RowOracle := Descriptor → RowFinding

structure Sources where
  schema : Schema
  rows : List RowFactory
  columns : List ColumnFactory
  /-- The classes that have properties. -/
  described : ClassRef → Bool

def Procedure.replyRow (look : Oracle) (lookRow : RowOracle) :
    Procedure Command RowMapper → RowFinding
  | .answer m => some m
  | .raise _ => none
  | .column type next => (look type).bind fun found => replyRow look lookRow (next found)
  | .row type next => (lookRow type).bind fun found => replyRow look lookRow (next found)
  | .perform _ next => replyRow look lookRow next

namespace Sources

variable (o : Sources)

def column (depth : Nat) : Oracle := uncached o.schema o.columns depth

/-- A reflective mapper for a type that has properties and is among the targets. Whether a class with
annotations that name what nothing declares has any cannot be told. -/
def reflectiveFor (targets : Option (List RawType)) (lead : String) (key : Descriptor) :
    Option (Option ReflectiveMapper) :=
  if targets.all (fun ts => ts.any key.raw.same) then
    if key.raw.class?.any o.described then some (some ⟨0, key.raw, Text.lower lead⟩)
    else if key.raw.class?.any o.schema.obscure then none
    else some none
  else some none

def answer (look : Oracle) (lookRow : RowOracle) (key : Descriptor) (element : Option Finding) :
    RowFactory → RowFinding
  | .reflective targets lead => (o.reflectiveFor targets lead key).map (Option.map .reflective)
  | .fixed target mapper => some (if key.boxed.same target then some mapper else none)
  | .custom f => some (if f.claims key then some (.custom f.mapper) else none)
  | .written _ ask => (ask key).replyRow look lookRow
  | .scalars origin => some ((scalarFor o.schema origin key).map .misplaced)
  | .arrays => (arrayFor key element).map (Option.map .misplaced)

def single (found : Option ColumnMapper) : Option RowMapper := found.map fun m => .single 0 m 0

/-- What is found for a type with nothing kept, with look-ups of factories nested less than `depth`
deep. -/
def row (o : Sources) : Nat → RowOracle
  | 0, _ => none
  | depth + 1, key =>
    let element := findingElement o.schema o.columns (o.column depth) key.args
    (Chain.scan (o.answer (o.column depth) (o.row depth) key element) o.rows).bind fun
      | some m => some (some m)
      | none => (o.column (depth + 1) key).map single

end Sources

/-! ### Pure factories -/

def Procedure.Silent {Mapper : Type} : Procedure Command Mapper → Prop
  | .answer _ | .raise _ => True
  | .column _ next => ∀ x, Silent (next x)
  | .row _ next => ∀ x, Silent (next x)
  | .perform _ _ => False

/-- Procedures of row factories that run no commands, ask for the same types and, told the same, answer
the same. -/
inductive Procedure.RowLike : Procedure Command RowMapper → Procedure Command RowMapper → Prop
  | answer {m n : Option RowMapper} : FoundAlike m n → RowLike (.answer m) (.answer n)
  | raise (r t : Raise) : RowLike (.raise r) (.raise t)
  | column {d e : Descriptor} {next next' : Option ColumnMapper → Procedure Command RowMapper} :
      d.Alike e → (∀ x y, FoundAlike x y → RowLike (next x) (next' y)) →
        RowLike (.column d next) (.column e next')
  | row {d e : Descriptor} {next next' : Option RowMapper → Procedure Command RowMapper} :
      d.Alike e → (∀ x y, FoundAlike x y → RowLike (next x) (next' y)) →
        RowLike (.row d next) (.row e next')

/-- The factory runs no commands, and its answer depends only on the type and on the column look-ups
that it makes. -/
def ColumnFactory.Pure (f : ColumnFactory) : Prop :=
  f.Dependable ∧ match f with
    | .custom g => g.onBuild = []
    | .written _ ask => ∀ d, (ask d).Silent
    | _ => True

def RowFactory.Pure : RowFactory → Prop
  | .custom f => (∀ d e, d.same e = true → f.claims d = f.claims e) ∧ f.onBuild = []
  | .written _ ask => ∀ d e, d.Alike e → (ask d).RowLike (ask e)
  | .reflective .. | .fixed .. | .scalars _ | .arrays => True

structure Sources.Pure (o : Sources) : Prop where
  rows : ∀ f ∈ o.rows, f.Pure
  columns : ∀ f ∈ o.columns, f.Pure

theorem Sources.Pure.dependable {o : Sources} (pure : o.Pure) : ∀ f ∈ o.columns, f.Dependable :=
  fun f hf => (pure.columns f hf).1

/-! ### Types that are one -/

def RowOracle.Uniform (look : RowOracle) : Prop := ∀ d e, d.Alike e → Agree (look d) (look e)

theorem Procedure.RowLike.replyRow_agree {look : Oracle} {lookRow : RowOracle}
    (uniform : look.Uniform) (uniformRow : lookRow.Uniform) {p q : Procedure Command RowMapper}
    (like : p.RowLike q) : Agree (p.replyRow look lookRow) (q.replyRow look lookRow) := by
  induction like with
  | answer alike => exact congrArg some alike
  | raise r t => rfl
  | column alike _ ih => exact (uniform _ _ alike).bind ih
  | row alike _ ih => exact (uniformRow _ _ alike).bind ih

theorem foundAlike_misplaced {x y : Option ColumnMapper} (alike : FoundAlike x y) :
    FoundAlike (x.map RowMapper.misplaced) (y.map RowMapper.misplaced) := by
  cases y with
  | none =>
    rw [foundAlike_none alike]
    rfl
  | some n =>
    obtain ⟨m, rfl, one⟩ := foundAlike_some alike
    exact congrArg (some ∘ RowMapper.misplaced) one

theorem foundAlike_single {x y : Option ColumnMapper} (alike : FoundAlike x y) :
    FoundAlike (Sources.single x) (Sources.single y) := by
  cases y with
  | none =>
    rw [foundAlike_none alike]
    rfl
  | some n =>
    obtain ⟨m, rfl, one⟩ := foundAlike_some alike
    exact congrArg (fun m => some (RowMapper.single 0 m 0)) one

namespace Sources

variable {o : Sources}

theorem reflectiveFor_alike (targets : Option (List RawType)) (lead : String) {d e : Descriptor}
    (alike : d.Alike e) : o.reflectiveFor targets lead d = o.reflectiveFor targets lead e := by
  rcases alike.raw_cases with ⟨c, hd, he⟩ | ⟨hd, he⟩
  · simp only [reflectiveFor, hd, he]
  · have none : ∀ f : Descriptor, (∀ c, f.raw ≠ .cls c) → f.raw.class? = none := by
      intro f other
      cases raw : f.raw with
      | cls c => exact absurd raw (other c)
      | _ => rfl
    simp [reflectiveFor, none d hd, none e he]

theorem answer_agree {look : Oracle} {lookRow : RowOracle} (uniform : look.Uniform)
    (uniformRow : lookRow.Uniform) {d e : Descriptor} (alike : d.Alike e) {x y : Option Finding}
    (elements : Option.Rel Agree x y) {f : RowFactory} (pure : f.Pure) :
    Agree (o.answer look lookRow d x f) (o.answer look lookRow e y f) := by
  cases f with
  | reflective targets lead => simp only [answer, reflectiveFor_alike targets lead alike]; rfl
  | fixed target mapper => simp only [answer, alike.same_eq]; rfl
  | custom f =>
    have claims : f.claims d = f.claims e := by
      rcases alike with rfl | same
      · rfl
      · exact pure.1 d e same
    simp only [answer, claims]; rfl
  | written name ask => exact (pure d e alike).replyRow_agree uniform uniformRow
  | scalars origin => simp only [answer, scalarFor_alike o.schema origin alike]; rfl
  | arrays =>
    simp only [answer, Option.map_eq_bind]
    exact (arrayFor_agree alike elements).bind fun _ _ one =>
      congrArg some (foundAlike_misplaced one)

theorem column_uniform (pure : o.Pure) (depth : Nat) : (o.column depth).Uniform :=
  uncached_uniform pure.dependable depth

theorem element_agree (pure : o.Pure) (depth : Nat) {d e : Descriptor} (alike : d.Alike e) :
    Option.Rel Agree (findingElement o.schema o.columns (o.column depth) d.args)
      (findingElement o.schema o.columns (o.column depth) e.args) := by
  cases hd : d.args <;> cases he : e.args <;>
    have args := alike.args <;> rw [hd, he] at args <;> cases args
  · exact .none
  · next head _ => exact .some (findingAs_agree pure.dependable (column_uniform pure depth) head true)

theorem row_uniform (pure : o.Pure) (depth : Nat) : RowOracle.Uniform (o.row depth) := by
  induction depth with
  | zero => exact fun _ _ _ => rfl
  | succ depth ih =>
    intro d e alike
    have scanned := Agree.scan fun f hf => answer_agree (o := o) (column_uniform pure depth) ih alike
      (element_agree pure depth alike) (pure.rows f hf)
    refine scanned.bind fun x y found => ?_
    cases y with
    | none =>
      rw [foundAlike_none found]
      simp only [Option.map_eq_bind]
      exact (column_uniform pure (depth + 1) d e alike).bind fun _ _ one =>
        congrArg some (foundAlike_single one)
    | some n =>
      obtain ⟨m, rfl, one⟩ := foundAlike_some found
      exact congrArg (some ∘ some) one

/-! ### Deeper look-ups find more -/

theorem replyRow_below {look look' : Oracle} {lookRow lookRow' : RowOracle}
    (below : look.Below look') (belowRow : ∀ d x, lookRow d = some x → lookRow' d = some x)
    {p : Procedure Command RowMapper} {x : Option RowMapper}
    (found : p.replyRow look lookRow = some x) : p.replyRow look' lookRow' = some x := by
  induction p with
  | answer m => exact found
  | raise r => contradiction
  | column type next ih =>
    simp only [Procedure.replyRow, Option.bind_eq_some_iff] at found ⊢
    obtain ⟨y, hy, found⟩ := found
    exact ⟨y, below _ _ hy, ih y found⟩
  | row type next ih =>
    simp only [Procedure.replyRow, Option.bind_eq_some_iff] at found ⊢
    obtain ⟨y, hy, found⟩ := found
    exact ⟨y, belowRow _ _ hy, ih y found⟩
  | perform commands next ih => exact ih found

theorem answer_below {look look' : Oracle} {lookRow lookRow' : RowOracle} (below : look.Below look')
    (belowRow : ∀ d x, lookRow d = some x → lookRow' d = some x) {d : Descriptor}
    {x y : Option Finding} (elements : Option.Rel (fun x y => ∀ o, x = some o → y = some o) x y)
    (f : RowFactory) (m : Option RowMapper) (found : o.answer look lookRow d x f = some m) :
    o.answer look' lookRow' d y f = some m := by
  cases f with
  | written name ask => exact replyRow_below below belowRow found
  | arrays =>
    obtain ⟨p, hp, rfl⟩ := Option.map_eq_some_iff.mp found
    exact Option.map_eq_some_iff.mpr ⟨p, arrayFor_below elements hp, rfl⟩
  | reflective | fixed | custom | scalars => exact found

theorem element_below {m n : Nat} (le : m ≤ n) (ds : List Descriptor) :
    Option.Rel (fun x y => ∀ o, x = some o → y = some o)
      (findingElement o.schema o.columns (o.column m) ds)
      (findingElement o.schema o.columns (o.column n) ds) := by
  cases ds with
  | nil => exact .none
  | cons d ds => exact .some fun _ => findingAs_below (uncached_mono le)

theorem rising_row (key : Descriptor) : Rising fun n => o.row n key := by
  intro m n x le found
  induction m generalizing n key x with
  | zero => contradiction
  | succ m ih =>
    cases n with
    | zero => omega
    | succ n =>
      have deeper : m ≤ n := by omega
      simp only [row, Option.bind_eq_some_iff] at found ⊢
      obtain ⟨y, scanned, found⟩ := found
      refine ⟨y, scan_below (fun f z => answer_below (uncached_mono deeper)
        (fun d x => ih d deeper) (element_below deeper key.args) f z) scanned, ?_⟩
      cases y with
      | some y => exact found
      | none =>
        obtain ⟨z, hz, rfl⟩ := Option.map_eq_some_iff.mp found
        exact Option.map_eq_some_iff.mpr ⟨z, uncached_mono le key z hz, rfl⟩

end Sources
end RowMapping
