import RowMapping.Proofs.Session.Children
import RowMapping.Proofs.Session.Traces

/-! Batches and their rows one by one. The plan that a batch is mapped by depends on the columns alone, and with
converters of the library it reads a row without a trace of the rows before. Where later look-ups find what the
first ones did, rows mapped in turn come to the same too. -/
namespace RowMapping

open MappingM

/-- What the mapper reads columns by is the library's own: its column mapper, or those of the plans that it makes
for the columns. -/
def RowMapper.ReadsLibrary (h : Hooks) (c : Context) (columns : List String) (w : World) : RowMapper → Prop
  | .reflective m => ∀ p v, (m.specialize h c columns).run w = (.ok p, v) → p.Reads ColumnMapper.Library
  | .single _ m _ => m.Library
  | .planned .. | .custom _ | .misplaced _ => False

/-- Mapping the rows together comes to mapping each of them from the same world. -/
def BatchLaw (h : Hooks) (c : Context) (key : Descriptor) (rows : List Row) (w : World) : Prop :=
  ((Session.mapMany h c key rows).run w).1 = rows.mapM fun row => ((Session.mapOne h c key row).run w).1

def mapInTurn (h : Hooks) (c : Context) (key : Descriptor) (rows : List Row) (w : World) :
    Except Failure (List Value) :=
  ((rows.mapM (Session.mapOne h c key)).run w).1

section Laws

variable {h : Hooks} {c : Context} {key : Descriptor} {columns : List String} {rows : List Row} {w v : World}
  (alike : ∀ row ∈ rows, row.columns = columns)
include alike

theorem batchLaw_steady {m ready : RowMapper} {u : World} (resolved : (Registry.requireRow h c key).run w = (.ok m, v))
    (specialized : (m.specialize h c columns).run v = (.ok ready, u)) (steady : Steady (ready.apply h c))
    (each : ∀ row ∈ rows, outcome (m.apply h c) v row = outcome (ready.apply h c) u row) : BatchLaw h c key rows w := by
  rw [BatchLaw, run_mapMany resolved, mapRows_steady specialized steady alike]
  refine mapM_congr fun row member => ?_
  rw [run_mapOne resolved, each row member]

theorem batchLaw_single {serial index : Nat} {m : ColumnMapper}
    (resolved : (Registry.requireRow h c key).run w = (.ok (.single serial m index), v)) (library : m.Library) :
    BatchLaw h c key rows w :=
  batchLaw_steady alike resolved rfl (steady_column h c library index) fun _ _ => rfl

theorem batchLaw_reflective {m : ReflectiveMapper} {p : Plan} {u : World}
    (resolved : (Registry.requireRow h c key).run w = (.ok (.reflective m), v))
    (specialized : (m.specialize h c columns).run v = (.ok p, u)) (reads : p.Reads ColumnMapper.Library) :
    BatchLaw h c key rows w := by
  have steady := steady_plan h c reads
  have ready : ((RowMapper.reflective m).specialize h c columns).run v =
      (.ok (.planned u.next p), { u with next := u.next + 1 }) := run_bind_ok specialized
  refine batchLaw_steady alike resolved ready steady fun row member => ?_
  rw [← alike row member] at specialized
  rw [outcome, apply_reflective specialized]
  exact steady.outcome_eq (u := u) (v := { u with next := u.next + 1 }) rfl row

theorem batchLaw_unspecialized {m : ReflectiveMapper} {u : World} {e : Failure}
    (resolved : (Registry.requireRow h c key).run w = (.ok (.reflective m), v))
    (failed : (m.specialize h c columns).run v = (.error e, u)) : BatchLaw h c key rows w := by
  cases rows with
  | nil => rw [BatchLaw, run_mapMany resolved]; rfl
  | cons row rows =>
    rw [← alike row List.mem_cons_self] at failed
    have unspecialized : ((RowMapper.reflective m).specialize h c row.columns).run v = (.error e, u) :=
      run_bind_error failed
    rw [BatchLaw, run_mapMany resolved, mapRows_unspecialized unspecialized, List.mapM_cons, run_mapOne resolved,
      outcome, apply_unspecialized failed]
    rfl

theorem batchLaw_of_reads {m : RowMapper} (resolved : (Registry.requireRow h c key).run w = (.ok m, v))
    (own : m.ReadsLibrary h c columns v) : BatchLaw h c key rows w := by
  cases m with
  | single serial m index => exact batchLaw_single alike resolved own
  | reflective m =>
    rcases specialized : (m.specialize h c columns).run v with ⟨e | p, u⟩
    · exact batchLaw_unspecialized alike resolved specialized
    · exact batchLaw_reflective alike resolved specialized (own p u specialized)
  | planned | custom | misplaced => exact own.elim

end Laws

/-! ### In turn -/

/-- Rows that are mapped in turn come to what each comes to, as long as the worlds that they are mapped in are good
and no failure `e` cuts a mapping short. -/
theorem mapM_outcomes {x : Row → MappingM Value} {f : Row → Except Failure Value} (Good : World → Prop) (cut : Prop)
    (e : Failure) {rows : List Row}
    (each : ∀ u, Good u → ∀ row ∈ rows,
      ((x row).run u).1 = f row ∧ ((f row).isOk → Good ((x row).run u).2) ∨
        cut ∧ (((x row).run u).1 = .error e ∨ f row = .error e)) {u : World} (good : Good u) :
    ((rows.mapM x).run u).1 = rows.mapM f ∨
      cut ∧ (((rows.mapM x).run u).1 = .error e ∨ rows.mapM f = .error e) := by
  induction rows generalizing u with
  | nil => exact .inl rfl
  | cons row rows ih =>
    rw [List.mapM_cons, List.mapM_cons, run_bind]
    rcases each u good row List.mem_cons_self with ⟨same, next⟩ | ⟨allowed, short | short⟩
    · rw [← same] at next ⊢
      rcases ran : (x row).run u with ⟨e' | a, v⟩
      · exact .inl rfl
      · rw [ran] at next
        have tail := ih (fun u good row member => each u good row (List.mem_cons_of_mem _ member)) (next rfl)
        have turn : ((rows.mapM x >>= fun as => pure (a :: as)).run v).1 = ((rows.mapM x).run v).1.map (a :: ·) := by
          rw [run_bind]
          rcases (rows.mapM x).run v with ⟨_ | _, _⟩ <;> rfl
        dsimp only
        rw [turn]
        rcases tail with tail | ⟨allowed, short | short⟩
        · rw [tail]
          exact .inl rfl
        · rw [short]
          exact .inr ⟨allowed, .inl rfl⟩
        · rw [short]
          exact .inr ⟨allowed, .inr rfl⟩
    · rcases ran : (x row).run u with ⟨e' | a, v⟩ <;> rw [ran] at short <;> cases short
      exact .inr ⟨allowed, .inl rfl⟩
    · rw [short]
      exact .inr ⟨allowed, .inr rfl⟩

theorem mapM_outcomes_uncut {x : Row → MappingM Value} {f : Row → Except Failure Value} (Good : World → Prop)
    {rows : List Row}
    (each : ∀ u, Good u → ∀ row ∈ rows,
      ((x row).run u).1 = f row ∧ ((f row).isOk → Good ((x row).run u).2)) {u : World} (good : Good u) :
    ((rows.mapM x).run u).1 = rows.mapM f :=
  (mapM_outcomes Good False .exhausted (fun u good row member => .inl (each u good row member)) good).resolve_right
    And.left

section InTurn

variable {c : Context} {key : Descriptor} {columns : List String} {rows : List Row} {depth : Nat} {w v : World}

/-- In a context that can be used without a trace, each row finds what the first one found. -/
theorem inTurn_traceless {l : Prop} (traceless : w.Traceless c l) :
    mapInTurn (Session.hooks depth) c key rows w =
        rows.mapM (fun row => ((Session.mapOne (Session.hooks depth) c key row).run w).1) ∨
      l ∧ (mapInTurn (Session.hooks depth) c key rows w = .error .exhausted ∨
        rows.mapM (fun row => ((Session.mapOne (Session.hooks depth) c key row).run w).1) = .error .exhausted) := by
  have unused := World.Used.refl traceless.pure
  refine mapM_outcomes (w.Used c) l .exhausted (fun u used row _ => ?_) unused
  have after := ((bearing_hooks traceless depth).mapOne key row ⟨used, used⟩).1.2
  rcases (coupled_hooks traceless depth).mapOne key row u w ⟨used, unused⟩ with
    (⟨_, cut, allowed, rfl⟩ | ⟨_, cut, allowed, rfl⟩) | ⟨same, _⟩
  · exact .inr ⟨allowed, .inl cut⟩
  · exact .inr ⟨allowed, .inr cut⟩
  · exact .inl ⟨same.eq, fun _ => after⟩

theorem inTurn_single {serial index : Nat} {m : ColumnMapper}
    (resolved : (Registry.requireRow (Session.hooks depth) c key).run w = (.ok (.single serial m index), v))
    (library : m.Library) (one : key.same key = true) :
    mapInTurn (Session.hooks depth) c key rows w =
      rows.mapM fun row => ((Session.mapOne (Session.hooks depth) c key row).run w).1 := by
  have steady := steady_column (Session.hooks depth) c library index
  refine mapM_outcomes_uncut (fun u => u = w ∨ u = v) (fun u good row _ => ?_) (.inl rfl)
  have again : (Registry.requireRow (Session.hooks depth) c key).run u = (.ok (.single serial m index), v) := by
    rcases good with rfl | rfl
    · exact resolved
    · exact requireRow_again resolved one rfl
  obtain ⟨_, left, _⟩ := steady row v v rfl
  rw [run_mapOne again, run_mapOne resolved]
  refine ⟨rfl, fun _ => .inr ?_⟩
  show (((m.apply (Session.hooks depth) c index).run row).run v).2 = v
  rw [left]

theorem inTurn_reflective {fs : List ColumnFactory} (library : ∀ f ∈ fs, f.Library) {m : ReflectiveMapper} {p : Plan}
    {u : World} (resolved : (Registry.requireRow (Session.hooks depth) c key).run w = (.ok (.reflective m), v))
    (here : v.Level c fs v) (specialized : (m.specialize (Session.hooks depth) c columns).run v = (.ok p, u))
    (alike : ∀ row ∈ rows, row.columns = columns) (one : key.same key = true) :
    mapInTurn (Session.hooks depth) c key rows w =
      rows.mapM fun row => ((Session.mapOne (Session.hooks depth) c key row).run w).1 := by
  obtain ⟨_, _, ran, level, reads, _⟩ := specialize_again library here specialized here
  cases ran.symm.trans specialized
  have steady := steady_plan (Session.hooks depth) c reads
  refine mapM_outcomes_uncut (fun u' => u' = w ∨ v.Level c fs u') (fun u' good row member => ?_) (.inl rfl)
  obtain ⟨x, again, reached⟩ : ∃ x, (Registry.requireRow (Session.hooks depth) c key).run u' =
      (.ok (.reflective m), x) ∧ v.Level c fs x := by
    rcases good with rfl | good
    · exact ⟨v, resolved, here⟩
    · exact ⟨u', requireRow_again resolved one good.rows, good⟩
  obtain ⟨p', x', specialized', level', _, applied⟩ := specialize_again library here specialized reached
  rw [← alike row member] at specialized specialized'
  rw [run_mapOne again, run_mapOne resolved, outcome, outcome, apply_reflective specialized',
    apply_reflective specialized, applied]
  obtain ⟨r, ran', ran⟩ := steady row x' u (level'.schema.trans level.schema.symm)
  rw [ran', ran]
  exact ⟨rfl, fun _ => .inr level'⟩

theorem inTurn_library {s : Schema} (reached : Reached s w) {r : Registry}
    (known : w.registries[c.registry]? = some r) (library : ∀ f ∈ r.columns.factories, f.Library) {m : RowMapper}
    (resolved : (Registry.requireRow (Session.hooks depth) c key).run w = (.ok m, v))
    (own : m.ReadsLibrary (Session.hooks depth) c columns v) (quiet : Unregistered w v c)
    (alike : ∀ row ∈ rows, row.columns = columns) (one : key.same key = true) :
    mapInTurn (Session.hooks depth) c key rows w =
      rows.mapM fun row => ((Session.mapOne (Session.hooks depth) c key row).run w).1 := by
  cases m with
  | single serial m index => exact inTurn_single resolved own one
  | reflective m =>
    rcases specialized : (m.specialize (Session.hooks depth) c columns).run v with ⟨e | p, u⟩
    · refine mapM_outcomes_uncut (· = w) (fun u' good row member => ?_) rfl
      rw [← alike row member] at specialized
      have fails : ((Session.mapOne (Session.hooks depth) c key row).run w).1 = .error e := by
        rw [run_mapOne resolved, outcome, apply_unspecialized specialized]
        rfl
      rw [good, fails]
      exact ⟨rfl, fun ok => absurd ok Bool.false_ne_true⟩
    · have after : Reached s v := by
        have led := reached.onward (.row depth c key (.refl w))
        rw [run_requireRow resolved] at led
        exact led
      obtain ⟨_, t, first, present, same⟩ := quiet
      cases known.symm.trans first
      rw [← same] at library
      have level := World.level_of_reached after present library
      exact inTurn_reflective library resolved level specialized alike one
  | planned | custom | misplaced => exact own.elim

end InTurn

/-- Mapping a batch of rows with the same columns comes to mapping each row alone, for every type that is resolved
to a mapper which reads by converters of the library: the same values in the same order, or the failure of the
first row that fails. In a context of pure factories rows mapped in turn come to the same, but that factories which
look types up may meet the recursion limit in one case and not in the other. Of built-in column factories the row
factories need not be pure, if nothing is registered while the type is resolved. -/
theorem batch_row_by_row {w v : World} {c : Context} {depth : Nat} {key : Descriptor} {m : RowMapper}
    (resolved : (Registry.requireRow (Session.hooks depth) c key).run w = (.ok m, v)) {columns : List String}
    (own : m.ReadsLibrary (Session.hooks depth) c columns v) {rows : List Row}
    (alike : ∀ row ∈ rows, row.columns = columns) :
    BatchLaw (Session.hooks depth) c key rows w ∧
    (∀ l, w.Traceless c l →
      mapInTurn (Session.hooks depth) c key rows w = ((Session.mapMany (Session.hooks depth) c key rows).run w).1 ∨
        l ∧ (mapInTurn (Session.hooks depth) c key rows w = .error .exhausted ∨
          ((Session.mapMany (Session.hooks depth) c key rows).run w).1 = .error .exhausted)) ∧
    ∀ s r, Reached s w → w.registries[c.registry]? = some r → (∀ f ∈ r.columns.factories, f.Library) →
      Unregistered w v c → key.same key = true →
      mapInTurn (Session.hooks depth) c key rows w = ((Session.mapMany (Session.hooks depth) c key rows).run w).1 := by
  have law := batchLaw_of_reads alike resolved own
  refine ⟨law, fun l traceless => ?_, fun s r reached known library quiet one => ?_⟩
  · rw [law]
    exact inTurn_traceless traceless
  · rw [law]
    exact inTurn_library reached known library resolved own quiet alike one

/-! ### Shops -/

def shop : Schema := .declare
  [⟨"Item", [], some "sku", .record [{ name := "sku", type := .cls (.builtin .int) },
    { name := "title", type := .cls (.builtin .text), fallback := some (.value (.text "?")) }] none⟩]

def item : Descriptor := .of (.cls (.declared "Item"))

def shopRows : List Row :=
  [⟨["sku", "title"], [.text "7", .text "Pen"], false⟩, ⟨["sku", "title"], [.null, .text "Ink"], false⟩,
    ⟨["sku", "title"], [.int 8, .null], true⟩]

def declining : Command :=
  .registerColumn "main"
    (.factory (.custom "none" .never ⟨.object, none, .const .null, none, none, .absent⟩ [])) none

def emptyShop : World := (Session.start shop [] ⟨.fresh true, none, []⟩).toOption.getD default

def openShop : World := Session.after [declining] emptyShop

def PlanSource.isLibraryColumn : PlanSource → Bool
  | .column m _ => m.Library
  | .nested _ => false

theorem Plan.reads_of_columns {p : Plan} (columns : p.entries.all (·.2.isLibraryColumn) = true) :
    p.Reads ColumnMapper.Library := by
  obtain ⟨table, entries⟩ := p
  refine .mk fun e member => ?_
  have own := List.all_eq_true.mp columns e member
  obtain ⟨property, ⟨m, index⟩ | plan⟩ := e
  · exact .column (of_decide_eq_true own)
  · contradiction

theorem openShop_pure : (openShop.ground ⟨0, 0, 0⟩).Pure ∧ (openShop.registryOf ⟨0, 0, 0⟩).Direct := by
  have rows : (openShop.registryOf ⟨0, 0, 0⟩).rows.factories = [.reflective none ""] := rfl
  obtain ⟨f, columns, claims, silent, stateless⟩ : ∃ f : CustomFactory,
      (openShop.registryOf ⟨0, 0, 0⟩).columns.factories = [.custom f, .scalars 0, .arrays] ∧ f.claim = .never ∧
        f.onBuild = [] ∧ f.mapper.spec.stateless = true := ⟨_, rfl, rfl, rfl, rfl⟩
  have unkept : (openShop.registryOf ⟨0, 0, 0⟩).rows.cache.isEmpty = true ∧
      (openShop.registryOf ⟨0, 0, 0⟩).columns.cache.isEmpty = true := by decide +kernel
  obtain ⟨keptRows, keptColumns⟩ := And.imp List.isEmpty_iff.mp List.isEmpty_iff.mp unkept
  have declines : ∀ d, f.claims d = false := fun d => by rw [CustomFactory.claims, claims]
  have matched : ∀ μ n, f.Matched μ n f := fun μ n =>
    ⟨fun d e _ => by rw [declines, declines], .refl _, stateless, silent, silent⟩
  refine ⟨⟨fun g member => ?_, fun g member => ?_, fun e member => ?_, fun e member => ?_⟩, fun g member => ?_,
    fun g member => ?_⟩
  · rw [show g = .reflective none "" from List.mem_singleton.mp (rows ▸ member)]
    exact ⟨.reflective none "", .reflective none ""⟩
  · rcases List.mem_cons.mp (columns ▸ member : g ∈ [.custom f, .scalars 0, .arrays]) with rfl | member
    · exact ⟨.custom (matched _ _), .custom (matched _ _)⟩
    · rcases List.mem_pair.mp member with rfl | rfl
      · exact ⟨.scalars rfl, .scalars rfl⟩
      · exact ⟨.arrays, .arrays⟩
  · exact absurd (keptRows ▸ member) List.not_mem_nil
  · exact absurd (keptColumns ▸ member) List.not_mem_nil
  · rw [show g = .reflective none "" from List.mem_singleton.mp (rows ▸ member)]
    trivial
  · rcases List.mem_cons.mp (columns ▸ member : g ∈ [.custom f, .scalars 0, .arrays]) with rfl | member
    · trivial
    · rcases List.mem_pair.mp member with rfl | rfl <;> trivial

/-- Items are mapped in a batch as one by one, beside a column factory of the caller that declines. -/
theorem batch_row_by_row_shop :
    ∃ v m vs, (Registry.requireRow (Session.hooks Session.depth) ⟨0, 0, 0⟩ item).run openShop = (.ok m, v) ∧
      m.ReadsLibrary (Session.hooks Session.depth) ⟨0, 0, 0⟩ ["sku", "title"] v ∧
      ((Session.mapMany (Session.hooks Session.depth) ⟨0, 0, 0⟩ item shopRows).run openShop).1 = .ok vs ∧
      vs.map Value.isNull = [false, true, false] ∧
      BatchLaw (Session.hooks Session.depth) ⟨0, 0, 0⟩ item shopRows openShop ∧
      mapInTurn (Session.hooks Session.depth) ⟨0, 0, 0⟩ item shopRows openShop = .ok vs := by
  have computed : ((Registry.requireRow (Session.hooks Session.depth) ⟨0, 0, 0⟩ item).run
      openShop).1.toOption.bind (·.reflective?) |>.any fun m =>
        ((m.specialize (Session.hooks Session.depth) ⟨0, 0, 0⟩ ["sku", "title"]).run
          ((Registry.requireRow (Session.hooks Session.depth) ⟨0, 0, 0⟩ item).run openShop).2).1.toOption.any
            fun p => p.entries.all (·.2.isLibraryColumn) := by
    decide +kernel
  simp only [Option.any_eq_true, Option.bind_eq_some_iff] at computed
  obtain ⟨m, ⟨found, looked, reflective⟩, p, planned, columns⟩ := computed
  have resolved := run_of_toOption looked
  generalize ((Registry.requireRow (Session.hooks Session.depth) ⟨0, 0, 0⟩ item).run openShop).2 = v
    at planned resolved
  cases found <;> cases reflective
  have values : ((Session.mapMany (Session.hooks Session.depth) ⟨0, 0, 0⟩ item shopRows).run openShop).1.toOption.any
      (fun vs => vs.map Value.isNull = [false, true, false]) = true := by
    decide +kernel
  simp only [Option.any_eq_true, decide_eq_true_eq] at values
  obtain ⟨vs, mapped, nulls⟩ := values
  have own : RowMapper.ReadsLibrary (Session.hooks Session.depth) ⟨0, 0, 0⟩ ["sku", "title"] v (.reflective m) := by
    intro p' u specialized
    cases (run_of_toOption planned).symm.trans specialized
    exact Plan.reads_of_columns columns
  have alike : ∀ row ∈ shopRows, row.columns = ["sku", "title"] := by
    intro row member
    simp only [shopRows, List.mem_cons, List.not_mem_nil, or_false] at member
    rcases member with rfl | rfl | rfl <;> rfl
  have honest : Honest emptyShop [declining] := by
    refine ⟨fun _ command => command = declining, fun n command own => ?_, rfl, trivial⟩
    rw [own]
    exact nofun
  have started : Session.start shop [] ⟨.fresh true, none, []⟩ = .ok emptyShop := rfl
  have traceless : openShop.Traceless ⟨0, 0, 0⟩ False :=
    traceless_after started honest rfl openShop_pure.1 (.inr openShop_pure.2)
  have many := congrArg Prod.fst (run_of_toOption mapped)
  obtain ⟨law, inTurn, _⟩ := batch_row_by_row resolved own alike
  refine ⟨v, _, vs, resolved, own, many, nulls, law, ?_⟩
  rw [(inTurn False traceless).resolve_right And.left, many]

end RowMapping
