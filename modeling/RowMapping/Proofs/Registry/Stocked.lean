import RowMapping.Proofs.Registry.Library

/-! Look-ups of columns where all column factories are built in or have one mapper for one type. They never
fail, whatever the hooks are, and find what the factories come to; all they leave behind are kept mappers and
numbers given. -/
namespace RowMapping

open MappingM

/-- What plain column factories come to. They look nothing up but the types of items. -/
abbrev builtFor (s : Schema) (fs : List ColumnFactory) (key : Descriptor) (nullable : Bool) : Finding :=
  findingAs s fs (fun _ => none) key nullable

/-- Registry `i` has the factories `fs`, and keeps for a type what they come to for it. -/
structure World.Stocked (s : Schema) (fs : List ColumnFactory) (i : Nat) (w : World) : Prop where
  schema : w.schema = s
  registry : ∃ r, w.registries[i]? = some r ∧ r.columns.factories = fs ∧
    ∀ e ∈ r.columns.cache, ∃ m, builtFor s fs e.1 e.1.nullable = some (some m) ∧ Alike e.2 m

/-- The worlds differ in column caches, numbers given and the log only. -/
structure World.Searched (w v : World) : Prop where
  rest : v = { w with registries := v.registries, next := v.next, log := v.log }
  next : w.next ≤ v.next
  rows : v.registries.map (·.rows) = w.registries.map (·.rows)

namespace World.Searched

theorem refl (w : World) : w.Searched w := ⟨rfl, le_rfl, rfl⟩

theorem trans {u v w : World} (h : u.Searched v) (k : v.Searched w) : u.Searched w := by
  refine ⟨?_, h.next.trans k.next, k.rows.trans h.rows⟩
  rw [k.rest, h.rest]

theorem log (w : World) (level : LogLevel) (logger : Logger) (text : String) :
    w.Searched ((MappingM.log level logger text).run w).2 := by
  show w.Searched (if _ then _ else _)
  split
  · exact ⟨rfl, le_rfl, rfl⟩
  · exact refl w

end World.Searched

section Stocked

variable {s : Schema} {fs : List ColumnFactory}

theorem scan_answers {Factory Mapper : Type} {ask : Factory → Option (Option Mapper)}
    {fs : List Factory} (answers : ∀ f ∈ fs, ∃ o, ask f = some o) : ∃ o, Chain.scan ask fs = some o := by
  induction fs with
  | nil => exact ⟨none, rfl⟩
  | cons f fs ih =>
    obtain ⟨o, answered⟩ := answers f List.mem_cons_self
    cases o with
    | some m => exact ⟨some m, by simp [Chain.scan, answered]⟩
    | none =>
      obtain ⟨o, scanned⟩ := ih fun g hg => answers g (List.mem_cons_of_mem _ hg)
      exact ⟨o, by simp [Chain.scan, answered, scanned]⟩

theorem findingAs_plain_some (plain : ∀ f ∈ fs, f.isPlain = true) (look : Oracle) (key : Descriptor)
    (nullable : Bool) : ∃ o, findingAs s fs look key nullable = some o := by
  induction key using Descriptor.induct_args generalizing nullable with
  | step key ih =>
  obtain ⟨raw, args, admitted⟩ := key
  refine scan_answers fun f hf => ?_
  have own := plain f hf
  cases f with
  | scalars origin => exact ⟨_, rfl⟩
  | fixed target mapper => exact ⟨_, rfl⟩
  | arrays =>
    cases args with
    | nil =>
      simp only [ColumnFactory.answer, arrayFor, findingElement]
      cases Registry.container? (.mk raw [] nullable) <;> exact ⟨none, rfl⟩
    | cons d ds =>
      obtain ⟨o, found⟩ := ih d List.mem_cons_self true
      simp only [ColumnFactory.answer, arrayFor, findingElement, found]
      cases Registry.container? (.mk raw (d :: ds) nullable) <;> exact ⟨_, rfl⟩
  | custom | written | reflective => contradiction

theorem builtFor_eq (plain : ∀ f ∈ fs, f.isPlain = true) (look : Oracle) (key : Descriptor)
    (nullable : Bool) : findingAs s fs look key nullable = builtFor s fs key nullable := by
  obtain ⟨o, found⟩ := findingAs_plain_some (s := s) plain (fun _ => none) key nullable
  have below : Oracle.Below (fun _ => none) look := by
    intro d o none
    contradiction
  rw [builtFor, found]
  exact findingAs_below below found

theorem World.stocked_of_plain {w : World} {i : Nat} {r : Registry} (coherent : w.Coherent)
    (known : w.registries[i]? = some r) (plain : ∀ f ∈ r.columns.factories, f.isPlain = true) :
    w.Stocked w.schema r.columns.factories i := by
  refine ⟨rfl, r, known, rfl, fun e he => ?_⟩
  have dependable := fun f hf => ColumnFactory.dependable_of_plain (plain f hf)
  obtain ⟨depth, m, found, alike⟩ := coherent r (List.mem_of_getElem? known) dependable e he
  cases depth with
  | zero => contradiction
  | succ depth =>
    rw [uncached, builtFor_eq plain] at found
    exact ⟨m, found, alike⟩

theorem World.stocked_of_coherent {w : World} {i : Nat} {r : Registry} (coherent : w.Coherent)
    (known : w.registries[i]? = some r) (library : ∀ f ∈ r.columns.factories, f.Library) :
    w.Stocked w.schema r.columns.factories i :=
  World.stocked_of_plain coherent known fun f hf => (library f hf).isPlain

theorem World.Stocked.of_registries {w v : World} {i : Nat} (stocked : w.Stocked s fs i)
    (schema : v.schema = w.schema) (registries : v.registries = w.registries) : v.Stocked s fs i := by
  obtain ⟨same, r, known, factories, kept⟩ := stocked
  exact ⟨schema.trans same, r, registries ▸ known, factories, kept⟩

/-- The computation finds what is alike to `y`, and leaves only what look-ups leave. -/
def Supplies (s : Schema) (fs : List ColumnFactory) (i : Nat) (x : MappingM (Option ColumnMapper))
    (y : Finding) : Prop :=
  ∀ w : World, w.Stocked s fs i → ∃ o p v, x.run w = (.ok o, v) ∧ y = some p ∧ FoundAlike o p ∧
    v.Stocked s fs i ∧ w.Searched v

theorem supplies_pure {i : Nat} {o p : Option ColumnMapper} (alike : FoundAlike o p) :
    Supplies s fs i (pure o) (some p) := fun w stocked => ⟨o, p, w, rfl, rfl, alike, stocked, .refl w⟩

theorem supplies_scan {i : Nat} {ask : ColumnFactory → MappingM (Option ColumnMapper)}
    {answer : ColumnFactory → Finding} {gs : List ColumnFactory}
    (asked : ∀ f ∈ gs, Supplies s fs i (ask f) (answer f)) :
    Supplies s fs i (Chain.scan ask gs) (Chain.scan answer gs) := by
  induction gs with
  | nil => exact supplies_pure rfl
  | cons f gs ih =>
    intro w stocked
    obtain ⟨o, p, v, ran, answered, alike, after, searched⟩ := asked f List.mem_cons_self w stocked
    have rest := ih fun g hg => asked g (List.mem_cons_of_mem _ hg)
    simp only [Chain.scan]
    rw [run_bind_ok ran, answered]
    cases o with
    | some m =>
      cases p with
      | some n => exact ⟨some m, some n, v, rfl, rfl, alike, after, searched⟩
      | none => contradiction
    | none =>
      cases p with
      | some n => contradiction
      | none =>
        obtain ⟨o, p, u, ran, found, alike, after, searched'⟩ := rest v after
        exact ⟨o, p, u, ran, found, alike, after, searched.trans searched'⟩

theorem supplies_arrayFrom {i : Nat} (container : Builtin) {o p : Option ColumnMapper}
    (alike : FoundAlike o p) :
    Supplies s fs i (Registry.arrayFrom container o) (some (arrayWith container p)) := by
  have same := arrayWith_alike container alike
  intro w stocked
  cases o with
  | none => exact ⟨none, _, w, rfl, rfl, same, stocked, .refl w⟩
  | some m =>
    cases m with
    | value origin target =>
      have numbered : w.Searched { w with next := w.next + 1 } := ⟨rfl, by simp, rfl⟩
      refine ⟨some (.array w.next container origin target), _, _, rfl, rfl, ?_,
        stocked.of_registries rfl rfl, numbered⟩
      exact same
    | array | raw | custom | misplaced => exact ⟨none, _, w, rfl, rfl, same, stocked, .refl w⟩

theorem supplies_scalarOf {i : Nat} (origin : Nat) (key : Descriptor) :
    Supplies s fs i (Registry.scalarOf origin key) (some (scalarFor s origin key)) := by
  intro w stocked
  have schema := stocked.schema
  refine ⟨scalarFor s origin key, _, w, ?_, rfl, rfl, stocked, .refl w⟩
  unfold Registry.scalarOf scalarFor
  cases key.raw with
  | cls c =>
    dsimp only
    rw [run_bind_ok (run_get w), schema]
    split <;> rfl
  | union | literalForm | value | «variable» | unresolved => rfl

theorem supplies_askColumn {h : Hooks} {c : Context} {i : Nat} {key : Descriptor}
    {element : Option (MappingM (Option ColumnMapper))} {found : Option Finding}
    (items : Option.Rel (Supplies s fs i) element found) {f : ColumnFactory}
    (own : f.isPlain = true) :
    Supplies s fs i (Registry.askColumn h c key element f)
      (f.answer s (fun _ => none) key found) := by
  cases f with
  | scalars origin => exact supplies_scalarOf origin key
  | fixed target mapper => exact supplies_pure rfl
  | arrays =>
    simp only [Registry.askColumn, Registry.arrayOf, ColumnFactory.answer, arrayFor]
    cases Registry.container? key with
    | none => exact supplies_pure rfl
    | some container =>
      cases items with
      | none => exact supplies_pure rfl
      | some supplied =>
        intro w stocked
        obtain ⟨o, p, v, ran, rfl, alike, after, searched⟩ := supplied w stocked
        obtain ⟨o', p', u, ran', ⟨⟩, alike', after', searched'⟩ :=
          supplies_arrayFrom container alike v after
        exact ⟨o', _, u, (run_bind_ok ran).trans ran', rfl, alike', after', searched.trans searched'⟩
  | custom | written | reflective => contradiction

theorem map_rows_modify (rs : List Registry) (i : Nat) {f : Registry → Registry}
    (same : ∀ r, (f r).rows = r.rows) : (rs.modify i f).map (·.rows) = rs.map (·.rows) := by
  refine List.ext_getElem? fun j => ?_
  simp only [List.getElem?_map, List.getElem?_modify]
  by_cases here : i = j
  · simp only [here]
    cases rs[j]? <;> simp [same]
  · simp [here]

theorem stocked_keepColumn {c : Context} (generation : Nat) {key : Descriptor} {m n : ColumnMapper}
    (found : builtFor s fs key key.nullable = some (some n)) (alike : Alike m n) {w : World}
    (stocked : w.Stocked s fs c.registry) :
    World.Stocked s fs c.registry ((Registry.keepColumn c generation key m).run w).2 ∧
      w.Searched ((Registry.keepColumn c generation key m).run w).2 := by
  obtain ⟨schema, r, known, factories, kept⟩ := stocked
  obtain ⟨r', known', now⟩ : ∃ r', ((Registry.keepColumn c generation key m).run w).2.registries[
      c.registry]? = some r' ∧ (r' = r ∨ r' = { r with columns := r.columns.store key m }) := by
    show ∃ r', (w.registries.modify c.registry _)[c.registry]? = some r' ∧ _
    rw [List.getElem?_modify_eq, known]
    refine ⟨_, rfl, ?_⟩
    dsimp only
    split
    · exact .inr rfl
    · exact .inl rfl
  refine ⟨⟨schema, r', known', ?_, ?_⟩, rfl, le_rfl, map_rows_modify _ _ fun r => ?_⟩
  · rcases now with rfl | rfl
    · exact factories
    · exact factories
  · rcases now with rfl | rfl
    · exact kept
    · intro e he
      rcases List.mem_cons.mp he with rfl | old
      · exact ⟨n, found, alike⟩
      · exact kept e (List.mem_of_mem_filter old)
  · split <;> rfl

theorem supplies_record {c : Context} (generation : Nat) {key : Descriptor} {o p : Option ColumnMapper}
    (found : builtFor s fs key key.nullable = some p) (alike : FoundAlike o p) {w : World}
    (stocked : w.Stocked s fs c.registry) :
    World.Stocked s fs c.registry ((Registry.recordColumn c generation key o).run w).2 ∧
      w.Searched ((Registry.recordColumn c generation key o).run w).2 := by
  have logged : ∀ (v : World) (text : String), v.Stocked s fs c.registry →
      World.Stocked s fs c.registry ((log .debug .registry text).run v).2 := by
    intro v text stocked
    show World.Stocked s fs c.registry (if _ then _ else _)
    split
    · exact stocked.of_registries rfl rfl
    · exact stocked
  cases o with
  | none => exact ⟨logged w _ stocked, .log w _ _ _⟩
  | some m =>
    cases p with
    | none => contradiction
    | some n =>
      obtain ⟨after, searched⟩ := stocked_keepColumn generation found (Option.some.inj alike) stocked
      rw [Registry.recordColumn, run_bind_ok (x := Registry.keepColumn _ _ _ _) (a := ()) rfl]
      exact ⟨logged _ _ after, searched.trans (.log _ _ _ _)⟩

theorem supplies_of_plain (plain : ∀ f ∈ fs, f.isPlain = true) (h : Hooks) (c : Context)
    (key : Descriptor) (nullable : Bool) :
    Supplies s fs c.registry (Registry.findColumnAs h c key nullable) (builtFor s fs key nullable) := by
  induction key using Descriptor.induct_args generalizing nullable with
  | step key ih =>
  obtain ⟨raw, args, admitted⟩ := key
  have items : Option.Rel (Supplies s fs c.registry) (Registry.findElement h c args)
      (findingElement s fs (fun _ => none) args) := by
    cases args with
    | nil => exact .none
    | cons d ds => exact .some (ih d List.mem_cons_self true)
  have scanned : Supplies s fs c.registry
      (Chain.scan (Registry.askColumn h c (.mk raw args nullable) (Registry.findElement h c args)) fs)
      (builtFor s fs (.mk raw args nullable) nullable) :=
    supplies_scan fun f hf => supplies_askColumn items (plain f hf)
  intro w stocked
  obtain ⟨r, known, factories, kept⟩ := stocked.registry
  cases hit : r.columns.cached? (.mk raw args nullable) with
  | some m =>
    have ran : (Registry.resolveColumn h c (.mk raw args nullable) (Registry.findElement h c args)).run w =
        (.ok (some m), w) := resolveColumn_hit known hit
    obtain ⟨e, he, rfl⟩ := Option.map_eq_some_iff.mp hit
    obtain ⟨n, found, alike⟩ := kept e (List.mem_of_find?_eq_some he)
    have same : e.1.same (.mk raw args nullable) = true := by simpa using List.find?_some he
    -- It may be kept under another spelling, for which the factories come to the same.
    have uniform : Oracle.Uniform (fun _ => none) := fun _ _ _ => rfl
    have agree := findingAs_agree (s := s) (fun f hf => ColumnFactory.dependable_of_plain (plain f hf)) uniform
      (.inr same)
      e.1.nullable
    obtain ⟨y, hy, alike'⟩ := agree.of_some found
    have nullable' : e.1.nullable = nullable := (Descriptor.same_iff.mp same).2.1
    refine ⟨some e.2, y, w, ran, ?_, (congrArg some alike).trans alike', stocked, .refl w⟩
    rw [nullable'] at hy
    exact hy
  | none =>
    obtain ⟨o, p, v, ran, found, alike, after, searched⟩ := scanned w stocked
    obtain ⟨recorded, searched'⟩ := supplies_record r.columns.generation found alike after
    refine ⟨o, p, _, resolveColumn_miss known hit (factories ▸ ran), found, alike, recorded, ?_⟩
    exact searched.trans searched'

theorem supplies_findColumnAs (library : ∀ f ∈ fs, f.Library) (h : Hooks) (c : Context)
    (key : Descriptor) (nullable : Bool) :
    Supplies s fs c.registry (Registry.findColumnAs h c key nullable) (builtFor s fs key nullable) :=
  supplies_of_plain (fun f hf => (library f hf).isPlain) h c key nullable

end Stocked
end RowMapping
