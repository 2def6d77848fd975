import RowMapping.Proofs.Mapper.Cycles
import RowMapping.Proofs.Mapper.Local
import RowMapping.Proofs.Mapper.Resolved

/-! How mapping fails. Where all factories are the library's own, what goes wrong is told by a failure of the
library's own, but for few causes: builders that raise what they may not, values that cannot be kept, rows that
are too short, and properties and matchers that lack a part. -/
namespace RowMapping

open MappingM Reading ReflectiveMapper

/-- A failure of the library's own kind. Callers may raise such, too. -/
def Failure.Own : Failure → Prop
  | .raised r => r.kind = .mapping
  | .rowLength .. | .settings _ | .indexRange | .lacksPart | .misuse | .undeclared | .exhausted => False
  | _ => True

def Value.Holds (v item : Value) : Prop := item = v ∨ ∃ items, arrayItems? v = some items ∧ item ∈ items

/-- How mapping rows by a mapper of the library comes to a failure that is not the library's own. -/
inductive Leaks (w : World) (c : Context) (rows : List Row) : RowMapper → Failure → Prop
  /-- The builder of a class that planning comes to raises what is no refusal of its arguments. -/
  | builder {m k : ReflectiveMapper} {first : Row} {trail : Trail} {t : PropertyTable} {keywords : Keywords}
      {r : Raise} : first ∈ rows →
      Entered ((w.settings[c.settings]?).getD default).chain first.columns (w.Lists c) m k trail →
      k.target.class?.bind (w.tableFor c) = some t →
      PropertyTable.construct w.schema t.builder keywords = .error (.raised r) → r.rejects = false →
      r.kind ≠ .mapping → Leaks w c rows (.reflective m) (.raised r)
  /-- Planning comes to a class whose annotations name what nothing declares. -/
  | undeclared {m k : ReflectiveMapper} {first : Row} {trail : Trail} : first ∈ rows →
      Entered ((w.settings[c.settings]?).getD default).chain first.columns (w.Lists c) m k trail →
      k.target.class?.any w.schema.obscure = true → Leaks w c rows (.reflective m) .undeclared
  /-- A matcher is asked that is none, or a nested property has a type without a name. -/
  | nameless {m : ReflectiveMapper} {first : Row} : first ∈ rows →
      ((w.settings[c.settings]?).getD default).chain.broken = true ∨
        Nameless ((w.settings[c.settings]?).getD default).chain first.columns (w.Lists c) m →
      Leaks w c rows (.reflective m) .lacksPart
  /-- A row is shorter than one that was planned for. -/
  | short {m : ReflectiveMapper} {first row : Row} : first ∈ rows → row ∈ rows →
      row.values.length < first.columns.length → Leaks w c rows (.reflective m) .indexRange
  /-- A row has no first column. -/
  | empty {serial : Nat} {m : ColumnMapper} {row : Row} : row ∈ rows → row.values = [] →
      Leaks w c rows (.single serial m 0) .indexRange
  /-- A value, or an item of one, is read as what cannot be kept. -/
  | unkept {m : RowMapper} {row : Row} {v item : Value} {scalar : Scalar} {message : String} : row ∈ rows →
      v ∈ row.values → v.Holds item → scalar.convert false (copied item) = .error (.unrepresentable message) →
      Leaks w c rows m (.raised ⟨.value, message⟩)
  /-- A value, or an item of one, is refused that cannot be shown. -/
  | unshown {m : RowMapper} {row : Row} {v item : Value} {scalar : Scalar} {r : Rejection} : row ∈ rows →
      v ∈ row.values → v.Holds item → scalar.convert false (copied item) = .error r →
      (copied item).showable = false → Leaks w c rows m (.raised unshowable)
  /-- An item of a value is converted to what has no hash, for a set. -/
  | unhashed {m : RowMapper} {row : Row} {v item made : Value} {items : List Value} {element : ClassRef} :
      row ∈ rows → v ∈ row.values → arrayItems? v = some items → item ∈ items →
      convertTo w.schema element item = .ok made → made.hashable = false → Leaks w c rows m .misuse

section Reading

variable {h : Hooks} {c : Context} {row : Row} {I : World → Prop} {E : Failure → Prop} {s : Schema}

/-- The row as it is read, up to whether the value read last was null. -/
def Row.Like (row r : Row) : Prop := r.columns = row.columns ∧ r.values = row.values

theorem comes_column {index : Nat} (short : row.values.length ≤ index → E .indexRange) :
    ComesOver I E row.Like (fun v => v ∈ row.values) (column index) := by
  refine ComesOver.get.bind fun r ⟨columns, values⟩ => ?_
  have natural : ¬ (index : Int) < 0 := by omega
  cases present : r.values[index]? with
  | none =>
    have got : r.get index = .error .indexRange := by simp [Row.get, natural, present]
    rw [got]
    exact (ComesOver.throw (Q := fun _ => False) (short (values ▸ List.getElem?_eq_none_iff.mp present))).bind
      fun _ never => never.elim
  | some v =>
    have got : r.get index = .ok (v, { r with wasNull := v.isNull }) := by simp [Row.get, natural, present]
    rw [got]
    have like : row.Like { r with wasNull := v.isNull } := ⟨columns, values⟩
    exact (ComesOver.set like).bind fun _ _ => .pure (values ▸ List.mem_of_getElem? present)

theorem comes_wasNull : ComesOver I E row.Like (fun _ => True) wasNull :=
  ComesOver.get.bind fun _ _ => .pure trivial

/-- What reading a row asks of failures: to admit those of its parts. -/
structure Row.Admits (E : Failure → Prop) (s : Schema) (row : Row) : Prop where
  formed : row.columns.length = row.values.length
  missing : ∀ m cs, E (.missingColumn m cs)
  notArray : ∀ i t, E (.notArray i t)
  converts : ∀ v ∈ row.values, ∀ item, v.Holds item → ∀ target, (Scalar.ofClass? s target).isSome →
    ∀ e, convertTo s target item = .error e → E e
  hashes : ∀ v ∈ row.values, ∀ items, arrayItems? v = some items → ∀ item ∈ items, ∀ target made,
    convertTo s target item = .ok made → made.hashable = false → E .misuse

variable (admits : row.Admits E s) (schema : ∀ u, I u → u.schema = s)

include schema admits in
theorem Row.Admits.mapper {m : ColumnMapper} (converts : m.Converts s) {index : Nat}
    (short : row.values.length ≤ index → E .indexRange) :
    ComesOver I E row.Like (fun _ => True) (m.apply h c index) := by
  have read := comes_column (I := I) short
  refine (ComesOver.lift Comes.get).bind fun u kind => ?_
  rw [schema u kind]
  cases m with
  | value origin target =>
    refine read.bind fun v member => ?_
    exact (ComesOver.liftExcept (admits.converts v member v (.inl rfl) target converts)).mono fun _ _ => trivial
  | array serial container origin element =>
    refine read.bind fun v member => ?_
    split
    · exact .pure trivial
    · split
      · next items known =>
        refine (ComesOver.liftExcept fun e failed => ?_).mono fun _ _ => trivial
        obtain ⟨item, inside, refused | ⟨made, converted, unhashed, rfl⟩⟩ := contain_error failed
        · exact admits.converts v member item (.inr ⟨items, known, inside⟩) element converts e refused
        · exact admits.hashes v member items known item inside element made converted unhashed
      · exact .throw (admits.notArray _ _)
  | raw => exact read.mono fun _ _ => trivial
  | custom | misplaced => contradiction

include admits in
theorem Row.Admits.isNullMarked (marker : Option String) :
    ComesOver I E row.Like (fun _ => True) (isNullMarked marker) := by
  cases marker with
  | none => exact .pure trivial
  | some marker =>
    refine ComesOver.get.bind fun r ⟨columns, _⟩ => ?_
    dsimp only
    rw [columns]
    cases named : Row.named? row.columns marker with
    | none => exact .throw (admits.missing _ _)
    | some i =>
      obtain ⟨below, _⟩ := List.findIdx?_eq_some_iff_getElem.mp named
      rw [admits.formed] at below
      exact (comes_column fun beyond => absurd below (Nat.not_lt.mpr beyond)).bind fun _ _ => comes_wasNull

include schema admits in
theorem Row.Admits.plan {known : PropertyTable → Prop} {n : Nat} (short : row.values.length < n → E .indexRange)
    (build : ∀ t, known t → ∀ keywords e, t.build s keywords = .error e → E e) {q : Plan}
    (made : Made known (ColumnMapper.Converts s) n q) :
    ComesOver I E row.Like (fun _ => True) (q.apply h c) := by
  induction q using Plan.induct_nested with
  | step table es ih =>
  obtain ⟨tabled, made⟩ := made
  have source : ∀ p x, (p, x) ∈ es → ComesOver I E row.Like (fun _ => True) (PlanSource.apply h c x) := by
    intro p x member
    have own := made _ member
    unfold PlanSource.apply
    cases own with
    | column converts below =>
      exact admits.mapper schema converts fun beyond => short (Nat.lt_of_le_of_lt beyond below)
    | nested made => exact ih p _ member made
  -- On the entries still to be read.
  have entries : ∀ es' ⊆ es, ∀ keywords,
      ComesOver I E row.Like (fun _ => True) (applyEntries h c table es' keywords) := by
    intro es' inside
    induction es' with
    | nil =>
      intro keywords
      unfold applyEntries
      exact .pure trivial
    | cons e es' rest =>
      intro keywords
      obtain ⟨p, x⟩ := e
      unfold applyEntries
      refine (source p x (inside List.mem_cons_self)).bind fun v _ => comes_wasNull.bind fun last _ => ?_
      split
      · exact .pure trivial
      · exact rest (fun _ member => inside (List.mem_cons_of_mem _ member)) _
  unfold Plan.apply
  refine (admits.isNullMarked table.nullMarker).bind fun marked _ => ?_
  split
  · exact .pure trivial
  · refine (entries es (List.Subset.refl es) table.create).bind fun found _ => ?_
    cases found with
    | none => exact .pure trivial
    | some keywords =>
      refine (ComesOver.lift Comes.get).bind fun u kind => ?_
      rw [schema u kind]
      exact (ComesOver.liftExcept fun e failed => build table tabled keywords e failed).mono fun _ _ => trivial

end Reading
/-! ### Mapping -/

section Mapping

variable {w : World} {c : Context} {rows : List Row} {fs : List ColumnFactory} {h : Hooks}

def Told (w : World) (c : Context) (rows : List Row) (m : RowMapper) (e : Failure) : Prop :=
  e.Own ∨ Leaks w c rows m e

/-- The table of a class that planning the mapper comes to, but for its number. -/
def Visited (w : World) (c : Context) (columns : List String) (m : ReflectiveMapper) (t : PropertyTable) : Prop :=
  ∃ k trail t', Entered ((w.settings[c.settings]?).getD default).chain columns (w.Lists c) m k trail ∧
    k.target.class?.bind (w.tableFor c) = some t' ∧ t'.builder = t.builder

theorem Visited.build {m : ReflectiveMapper} {first : Row} (member : first ∈ rows) {t : PropertyTable}
    (visited : Visited w c first.columns m t) {keywords : Keywords} {e : Failure}
    (failed : t.build w.schema keywords = .error e) : Told w c rows (.reflective m) e := by
  obtain ⟨k, trail, t', entered, tabled, builder⟩ := visited
  unfold PropertyTable.build at failed
  split at failed
  · contradiction
  · cases failed
    exact .inl trivial
  · cases failed
    exact .inl trivial
  · next r raised =>
    split at failed
    · cases failed
      exact .inl trivial
    · next passes =>
      cases failed
      refine or_iff_not_imp_left.mpr fun foreign => ?_
      exact .builder member entered tabled (builder ▸ raised) (eq_false_of_ne_true passes) foreign

variable (library : ∀ f ∈ fs, f.Library) (formed : ∀ row ∈ rows, row.columns.length = row.values.length)
include library formed

end Mapping

end RowMapping
