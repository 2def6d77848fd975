import RowMapping.Proofs.Mapper.Unaltered
import RowMapping.Proofs.Schema.Keywords

/-! What the properties of a plan are mapped to. Reading the entries of a plan yields a value for each of
them, whatever keywords are kept; the object is built from those that are not null. -/
namespace RowMapping

open MappingM Reading

/-- The properties of entries with what they are mapped to, null included; none where one propagates its
null. -/
def mappedEntries (h : Hooks) (c : Context) :
    List (Property × PlanSource) → Reading (Option (List (Property × Value)))
  | [] => return some []
  | (p, source) :: rest => do
    let v ← source.apply h c
    if p.propagatesNull && (v.isNull || (p.primitive && (← wasNull))) then return none
    return (← mappedEntries h c rest).map ((p, v) :: ·)

/-- The properties of a plan with what they are mapped to; none where the object is null for its marker or
for one of them. -/
def Plan.mapped (h : Hooks) (c : Context) (plan : Plan) : Reading (Option (List (Property × Value))) := do
  if ← isNullMarked plan.nullMarker then return none
  mappedEntries h c plan.entries

namespace PropertyTable

def setMapped (t : PropertyTable) (ks : Keywords) (mapped : List (Property × Value)) : Keywords :=
  mapped.foldl (fun ks e => if e.2.isNull then ks else t.set ks e.1 e.2) ks

def givenUnder (t : PropertyTable) (mapped : List (Property × Value)) : Keywords :=
  (mapped.filter fun e => !e.2.isNull).map fun e => (t.keyOf e.1.name, e.2)

theorem setMapped_eq (t : PropertyTable) (ks : Keywords) (mapped : List (Property × Value)) :
    t.setMapped ks mapped = ks.putAll (t.givenUnder mapped) := by
  unfold setMapped givenUnder Keywords.putAll
  rw [List.foldl_map, List.foldl_filter]
  refine congrArg (fun f => mapped.foldl f ks) (funext₂ fun ks e => ?_)
  cases e.2.isNull <;> rfl

end PropertyTable

section Runs

variable {h : Hooks} {c : Context}

/-- What is read does not depend on the keywords, which are set by it. -/
theorem applyEntries_mapped (table : PropertyTable) (es : List (Property × PlanSource)) (ks : Keywords) :
    applyEntries h c table es ks = Option.map (table.setMapped ks) <$> mappedEntries h c es := by
  induction es generalizing ks with
  | nil => simp [applyEntries, mappedEntries, PropertyTable.setMapped]
  | cons e es ih =>
    obtain ⟨p, source⟩ := e
    rw [applyEntries, mappedEntries, map_bind]
    refine bind_congr fun v => ?_
    simp only [map_bind, ih]
    refine bind_congr fun last => ?_
    split
    · simp
    · simp only [map_eq_pure_bind, bind_assoc, pure_bind]
      refine bind_congr fun found => ?_
      rw [Option.map_map]
      cases found <;> rfl

theorem Plan.apply_mapped (plan : Plan) :
    plan.apply h c = (do
      match ← plan.mapped h c with
      | none => return .null
      | some mapped =>
        plan.table.build (← getThe World).schema (plan.table.setMapped plan.table.create mapped)) := by
  obtain ⟨table, es⟩ := plan
  unfold Plan.apply Plan.mapped
  simp only [bind_assoc]
  refine bind_congr fun marked => ?_
  cases marked with
  | true => rfl
  | false =>
    simp only [Bool.false_eq_true, if_false, applyEntries_mapped, map_eq_pure_bind, bind_assoc, pure_bind]
    refine bind_congr fun found => ?_
    cases found <;> rfl

theorem mappedEntries_properties (es : List (Property × PlanSource)) :
    ComesOver (fun _ => True) (fun _ => True) (fun _ => True)
      (fun o => ∀ mapped ∈ o, mapped.map (·.1) = es.map (·.1)) (mappedEntries h c es) := by
  induction es with
  | nil =>
    refine .pure ?_
    rintro _ ⟨⟩
    rfl
  | cons e es ih =>
    obtain ⟨p, source⟩ := e
    unfold mappedEntries
    refine (ComesOver.anything _).bind fun v _ => (ComesOver.anything _).bind fun last _ => ?_
    split
    · exact .pure nofun
    · refine ih.bind fun found own => .pure ?_
      rintro _ member
      obtain ⟨mapped, known, rfl⟩ := Option.map_eq_some_iff.mp member
      exact congrArg (p :: ·) (own mapped known)

variable {plan : Plan} {row r : Row} {w u : World} {mapped : List (Property × Value)}

/-- Where the object is not null, every property of the plan has been mapped to something. -/
theorem Plan.mapped_properties (ran : ((plan.mapped h c).run row).run w = (.ok (some mapped, r), u)) :
    mapped.map (·.1) = plan.entries.map (·.1) := by
  have comes : ComesOver (fun _ => True) (fun _ => True) (fun _ => True)
      (fun o => ∀ mapped ∈ o, mapped.map (·.1) = plan.entries.map (·.1)) (plan.mapped h c) := by
    refine (ComesOver.anything _).bind fun marked _ => ?_
    split
    · exact .pure nofun
    · exact mappedEntries_properties plan.entries
  exact (comes.returned trivial trivial ran).1 mapped rfl

theorem Plan.apply_of_mapped (ran : ((plan.mapped h c).run row).run w = (.ok (some mapped, r), u)) :
    ((plan.apply h c).run row).run w =
      ((plan.table.build u.schema (plan.table.setMapped plan.table.create mapped)).map (·, r), u) := by
  rw [Plan.apply_mapped]
  refine (run_bind_ok ran).trans ?_
  show (((liftM (liftM (plan.table.build u.schema _) : MappingM Value) : Reading Value).run r).run u) = _
  cases plan.table.build u.schema (plan.table.setMapped plan.table.create mapped) <;> rfl

theorem Plan.mapped_of_apply {v : Value} (present : v ≠ .null)
    (ran : ((plan.apply h c).run row).run w = (.ok (v, r), u)) : ∃ mapped,
      ((plan.mapped h c).run row).run w = (.ok (some mapped, r), u) ∧
        plan.table.build u.schema (plan.table.setMapped plan.table.create mapped) = .ok v := by
  rcases read : ((plan.mapped h c).run row).run w with ⟨e | ⟨_ | mapped, r'⟩, u'⟩
  · rw [Plan.apply_mapped] at ran
    cases (run_bind_error read).symm.trans ran
  · rw [Plan.apply_mapped] at ran
    cases (run_bind_ok read).symm.trans ran
    exact absurd rfl present
  · rw [Plan.apply_of_mapped read] at ran
    cases built : plan.table.build u'.schema (plan.table.setMapped plan.table.create mapped) with
    | error e =>
      rw [built] at ran
      cases ran
    | ok v' =>
      rw [built] at ran
      cases ran
      exact ⟨mapped, rfl, built⟩

end Runs

namespace Course

variable {h : Hooks} {R : World → World → Prop} (course : Course R)
include course

theorem mappedEntries (lead : h.Lead R) (c : Context) (es : List (Property × PlanSource)) :
    LeadsOver R (RowMapping.mappedEntries h c es) := by
  induction es with
  | nil => exact course.pureOver _
  | cons e es ih =>
    unfold RowMapping.mappedEntries
    refine course.bindOver (course.applySource lead c e.2) fun v => course.bindOver course.wasNull fun _ => ?_
    split
    · exact course.pureOver _
    · exact course.bindOver ih fun _ => course.pureOver _

theorem mappedPlan (lead : h.Lead R) (c : Context) (plan : Plan) : LeadsOver R (plan.mapped h c) := by
  refine course.bindOver (course.isNullMarked _) fun marked => ?_
  split
  · exact course.pureOver _
  · exact course.mappedEntries lead c plan.entries

end Course
end RowMapping
