import RowMapping.Proofs.Mapper.Nullness

/-! Checks of plans and rows that can be computed, and what they decide. -/
namespace RowMapping

mutual

def Plan.all (test : Plan → Bool) : Plan → Bool
  | .mk table entries => test (.mk table entries) && allEntries test entries

def allEntries (test : Plan → Bool) : List (Property × PlanSource) → Bool
  | [] => true
  | (_, source) :: rest => source.all test && allEntries test rest

def PlanSource.all (test : Plan → Bool) : PlanSource → Bool
  | .column .. => true
  | .nested plan => plan.all test

end

theorem allEntries_mem {test : Plan → Bool} {es : List (Property × PlanSource)}
    (all : allEntries test es = true) : ∀ e ∈ es, e.2.all test = true := by
  induction es with
  | nil => exact fun e he => absurd he List.not_mem_nil
  | cons e es ih =>
    simp only [allEntries, Bool.and_eq_true] at all
    intro e' he'
    rcases List.mem_cons.mp he' with rfl | later
    · exact all.1
    · exact ih all.2 e' later

theorem Plan.all_contained {test : Plan → Bool} {plan : Plan} (all : plan.all test = true) (q : Plan)
    (inside : plan.Contains q) : test q = true := by
  have handed : ∀ {p q : Plan} {prop : Property}, p.all test = true →
      (prop, PlanSource.nested q) ∈ p.entries → q.all test = true := by
    rintro ⟨table, es⟩ q prop all member
    simp only [Plan.all, Bool.and_eq_true] at all
    exact allEntries_mem all.2 _ member
  have here := inside.inherits (P := fun p => p.all test = true) handed all
  obtain ⟨table, es⟩ := q
  simp only [Plan.all, Bool.and_eq_true] at here
  exact here.1

def Plan.runsHere (s : Schema) (row : Row) (plan : Plan) : Bool :=
  (plan.entries.all fun e =>
    match e.2 with
    | .column mapper index => (row.values[index]?).all fun v => (mapper.convert s index v).isOk
    | .nested _ => true) &&
  (plan.nullMarker.all fun marker => (Row.named? row.columns marker).isSome) &&
  match readEntries s row plan.table plan.entries plan.table.create false with
  | .ok (some keywords, _) => (plan.table.build s keywords).isOk
  | _ => true

theorem Except.exists_of_isOk {α : Type} {e : Except Failure α} (ok : e.isOk = true) :
    ∃ a, e = .ok a := by
  cases e with
  | error r => contradiction
  | ok a => exact ⟨a, rfl⟩

theorem Plan.smooth_of_all {s : Schema} {row : Row} {plan : Plan}
    (runs : plan.all (Plan.runsHere s row) = true) : plan.Smooth s row := by
  intro q inside
  have here := Plan.all_contained runs q inside
  simp only [Plan.runsHere, Bool.and_eq_true] at here
  obtain ⟨⟨converts, named⟩, constructs⟩ := here
  refine ⟨fun p mapper index v member present => ?_, fun marker declared => ?_, ?_⟩
  · have one := List.all_eq_true.mp converts _ member
    simp only [present, Option.all_some] at one
    exact Except.exists_of_isOk one
  · rw [declared, Option.all_some] at named
    exact Option.isSome_iff_exists.mp named
  · rintro keywords ⟨_, last, passed⟩
    rw [passed] at constructs
    exact Except.exists_of_isOk constructs

def Plan.absent (s : Schema) (row : Row) (plan : Plan) : Bool :=
  (row.marks plan.nullMarker).toOption.any id || plan.entries.any fun e =>
    e.1.propagatesNull && match e.2 with
      | .column _ index => (row.values[index]?).any Value.isNull
      | .nested q => (q.read s row).toOption.any fun r => r.1.isNull

theorem Plan.absent_of {s : Schema} {row : Row} {plan : Plan} (absent : plan.Absent s row) :
    plan.absent s row = true := by
  unfold Plan.absent
  rcases absent with marked | ⟨⟨p, source⟩, he, propagates, null⟩
  · rw [marked]
    rfl
  · rw [Bool.or_eq_true]
    refine .inr (List.any_eq_true.mpr ⟨_, he, Bool.and_eq_true_iff.mpr ⟨propagates, ?_⟩⟩)
    cases source with
    | column mapper index =>
      replace null : row.values[index]? = some .null := null
      simp [null, Value.isNull]
    | nested q =>
      obtain ⟨last, read⟩ := null
      simp [read, Except.toOption, Value.isNull]

def Plan.constructed (plan : Plan) : Bool :=
  match plan.table.builder with
  | .validate _ => false
  | _ => true

theorem Plan.unvalidated_of {plan : Plan} (constructed : plan.all Plan.constructed = true) (q : Plan)
    (inside : plan.Contains q) (n : String) : q.table.builder ≠ .validate n := by
  have here := Plan.all_contained constructed q inside
  intro validated
  simp [Plan.constructed, validated] at here

end RowMapping
