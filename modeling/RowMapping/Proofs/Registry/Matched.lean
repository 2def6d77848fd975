import RowMapping.Proofs.Registry.Uncached
import RowMapping.Proofs.Schema.Described
import RowMapping.Proofs.Session.Brings
import RowMapping.Proofs.Session.Together
import RowMapping.Proofs.Mapper.Twins

/-! Factories asked side by side. Factories that run no commands and keep no state, asked for one type in
two sessions, answer with mappers that differ in serial numbers only, if what they look up on the way
does. -/
namespace RowMapping

open MappingM

/-- How two sessions speak of types, and which errors of factories count as one. -/
structure Manner where
  key : Descriptor → Descriptor → Prop
  raised : Raise → Raise → Prop
  alike : ∀ {d e}, key d e → d.Alike e
  args : ∀ {d e}, key d e → List.Forall₂ key d.args e.args
  admitting : ∀ {d e} (nullable : Bool), key d e → key (.mk d.raw d.args nullable) (.mk e.raw e.args nullable)

namespace Manner

def exact : Manner where
  key := (· = ·)
  raised := (· = ·)
  alike := by
    rintro d _ rfl
    exact .refl d
  args := by
    rintro d _ rfl
    exact List.forall₂_same.mpr fun _ _ => rfl
  admitting := by
    rintro d _ nullable rfl
    rfl

def loose : Manner where
  key := Descriptor.Alike
  raised _ _ := True
  alike := id
  args := Descriptor.Alike.args
  admitting := by
    rintro d e nullable (rfl | same)
    · exact .refl _
    · obtain ⟨raws, _, arguments⟩ := Descriptor.same_iff.mp same
      exact .inr (Descriptor.same_iff.mpr ⟨raws, rfl, arguments⟩)

end Manner

def FoundAs (n : Nat) {α : Type} [Serial α] (good : α → Prop) (o p : Option α) : Prop :=
  FoundTwins n o p ∧ ∀ m ∈ o, good m

abbrev ColumnsFound (n : Nat) : Option ColumnMapper → Option ColumnMapper → Prop :=
  FoundAs n ColumnMapper.Stateless

abbrev RowsFound (n : Nat) : Option RowMapper → Option RowMapper → Prop :=
  FoundAs n RowMapper.Stateless

section FoundAs

variable {n : Nat} {α : Type} [Serial α] {good : α → Prop}

theorem foundAs_none : FoundAs n good none none := ⟨rfl, by simp⟩

theorem foundAs_some {a b : α} (twins : Twins n a b) (own : good a) : FoundAs n good (some a) (some b) :=
  ⟨foundTwins_some twins, by simpa⟩

theorem FoundAs.cases {o p : Option α} (found : FoundAs n good o p) :
    (o = none ∧ p = none) ∨ ∃ a b, o = some a ∧ p = some b ∧ Twins n a b ∧ good a := by
  rcases found.1.cases with none | ⟨a, b, rfl, rfl, twins⟩
  · exact .inl none
  · exact .inr ⟨a, b, rfl, rfl, twins, found.2 a rfl⟩

end FoundAs

/-! ### Factories -/

/-- Procedures that run no commands, ask for corresponding types and, told of twins, answer with twins that
keep no state. -/
inductive Procedure.Matched (μ : Manner) (n : Nat) {Mapper : Type} [Serial Mapper]
    (good : Mapper → Prop) : Procedure Command Mapper → Procedure Command Mapper → Prop
  | answer {o p : Option Mapper} : FoundAs n good o p → Matched μ n good (.answer o) (.answer p)
  | raise {r t : Raise} : μ.raised r t → Matched μ n good (.raise r) (.raise t)
  | column {d e : Descriptor} {next next' : Option ColumnMapper → Procedure Command Mapper} :
      μ.key d e → (∀ o p, ColumnsFound n o p → Matched μ n good (next o) (next' p)) →
        Matched μ n good (.column d next) (.column e next')
  | row {d e : Descriptor} {next next' : Option RowMapper → Procedure Command Mapper} :
      μ.key d e → (∀ o p, RowsFound n o p → Matched μ n good (next o) (next' p)) →
        Matched μ n good (.row d next) (.row e next')

structure CustomFactory.Matched (μ : Manner) (n : Nat) (f g : CustomFactory) : Prop where
  claims : ∀ d e, μ.key d e → f.claims d = g.claims e
  mapper : Twins n f.mapper g.mapper
  stateless : f.mapper.spec.stateless = true
  silent : f.onBuild = [] ∧ g.onBuild = []

/-- Column factories that run no commands and answer alike for corresponding types. -/
inductive ColumnFactory.Matched (μ : Manner) (n : Nat) : ColumnFactory → ColumnFactory → Prop
  | scalars {a b : Nat} : min a n = min b n → Matched μ n (.scalars a) (.scalars b)
  | arrays : Matched μ n .arrays .arrays
  | fixed (target : Descriptor) {m m' : ColumnMapper} :
      Twins n m m' → m.Stateless → Matched μ n (.fixed target m) (.fixed target m')
  | custom {f g : CustomFactory} : f.Matched μ n g → Matched μ n (.custom f) (.custom g)
  | written (name : String) {ask ask' : Descriptor → Procedure Command ColumnMapper} :
      (∀ d e, μ.key d e → (ask d).Matched μ n ColumnMapper.Stateless (ask' e)) →
        Matched μ n (.written name ask) (.written name ask')
  | reflective (targets : Option (List RawType)) (lead : String) :
      Matched μ n (.reflective targets lead) (.reflective targets lead)

inductive RowFactory.Matched (μ : Manner) (n : Nat) : RowFactory → RowFactory → Prop
  | reflective (targets : Option (List RawType)) (lead : String) :
      Matched μ n (.reflective targets lead) (.reflective targets lead)
  | fixed (target : Descriptor) {m m' : RowMapper} :
      Twins n m m' → m.Stateless → Matched μ n (.fixed target m) (.fixed target m')
  | custom {f g : CustomFactory} : f.Matched μ n g → Matched μ n (.custom f) (.custom g)
  | written (name : String) {ask ask' : Descriptor → Procedure Command RowMapper} :
      (∀ d e, μ.key d e → (ask d).Matched μ n RowMapper.Stateless (ask' e)) →
        Matched μ n (.written name ask) (.written name ask')
  | scalars {a b : Nat} : min a n = min b n → Matched μ n (.scalars a) (.scalars b)
  | arrays : Matched μ n .arrays .arrays

/-! ### Asking -/

/-- A relation of worlds whose numbers are beyond `n`, and that does not look at what changes idly. -/
structure Idling (R : World → World → Prop) (n : Nat) : Prop where
  numbered : ∀ {w v}, R w v → n ≤ w.next ∧ n ≤ v.next
  idle : ∀ {w w' v v'}, R w v → w.Idles w' → v.Idles v' → R w' v'

namespace Idling

variable {l : Leniency} {R : World → World → Prop} {n : Nat} (idling : Idling R n)
include idling

theorem fresh : Together l R (fun a b => min a n = min b n) fresh fresh := by
  intro w v worlds
  refine .inr ⟨?_, idling.idle worlds ⟨rfl, Nat.le_succ _⟩ ⟨rfl, Nat.le_succ _⟩⟩
  have numbers := idling.numbered worlds
  show min w.next n = min v.next n
  rw [min_eq_right numbers.1, min_eq_right numbers.2]

theorem note (s t : String) : Together l R (fun _ _ => True) (note s) (note t) :=
  fun _ _ worlds => .inr ⟨trivial, idling.idle worlds ⟨rfl, le_rfl⟩ ⟨rfl, le_rfl⟩⟩

theorem log (level : LogLevel) (logger : Logger) (s t : String) :
    Together l R (fun _ _ => True) (log level logger s) (log level logger t) :=
  fun w v worlds => .inr ⟨trivial, idling.idle worlds (World.idles_log _ _ s w) (World.idles_log _ _ t v)⟩

end Idling

/-- Two sessions that correspond, as far as factories can tell which look up types in them. -/
structure Abreast (l : Leniency) (R : World → World → Prop) (μ : Manner) (n : Nat) (h k : Hooks)
    (c d : Context) : Prop extends Idling R n where
  schema : ∀ {w v}, R w v → w.schema = v.schema
  described : ∀ raw, Together l R (fun o p => o.isSome = p.isSome) (table? c raw) (table? d raw)
  raised : ∀ {r t}, μ.raised r t → r = t ∨ l.first (.raised r)
  performs : h.perform [] = pure () ∧ k.perform [] = pure ()
  column : ∀ {x y}, μ.key x y → Together l R (ColumnsFound n) (h.findColumn c x) (k.findColumn d y)
  row : ∀ {x y}, μ.key x y → Together l R (RowsFound n) (h.findRow c x) (k.findRow d y)

namespace Abreast

variable {l : Leniency} {R : World → World → Prop} {μ : Manner} {n : Nat} {h k : Hooks} {c d : Context}
  (abreast : Abreast l R μ n h k c d)
include abreast

theorem raise {α : Type} [Serial α] {good : α → Prop} {r t : Raise} (raised : μ.raised r t) :
    Together l R (FoundAs n good) (throw (.raised r)) (throw (.raised t)) := by
  rcases abreast.raised raised with rfl | passed
  · exact .throw _
  · exact fun w v _ => .inl (.inl ⟨_, rfl, passed⟩)

theorem scalarOf {a b : Nat} (origins : min a n = min b n) {x y : Descriptor} (keys : μ.key x y) :
    Together l R (ColumnsFound n) (Registry.scalarOf a x) (Registry.scalarOf b y) := by
  have alike := μ.alike keys
  have empty : x.args.isEmpty = y.args.isEmpty := by
    have lengths := alike.args.length_eq
    cases hx : x.args <;> cases hy : y.args <;> simp_all
  unfold Registry.scalarOf
  rcases alike.raw_cases with ⟨cls, hx, hy⟩ | ⟨hx, hy⟩
  · rw [hx, hy]
    refine Together.get.bind fun w v worlds => ?_
    rw [empty, abreast.schema worlds]
    split
    · exact .pure (foundAs_some (congrArg (ColumnMapper.value · cls) origins) trivial)
    · exact .pure foundAs_none
  · have missing : ∀ (o : Nat) {z : Descriptor}, (∀ cls, z.raw ≠ .cls cls) →
        Registry.scalarOf o z = pure none := by
      intro o z other
      unfold Registry.scalarOf
      split
      · next cls known => exact absurd known (other cls)
      · rfl
    have first := missing a hx
    have second := missing b hy
    unfold Registry.scalarOf at first second
    rw [first, second]
    exact .pure foundAs_none

theorem arrayFrom (container : Builtin) {o p : Option ColumnMapper} (found : ColumnsFound n o p) :
    Together l R (ColumnsFound n) (Registry.arrayFrom container o) (Registry.arrayFrom container p) := by
  rcases found.cases with ⟨rfl, rfl⟩ | ⟨m, m', rfl, rfl, twins, _⟩
  · exact .pure foundAs_none
  · cases m <;> cases m' <;> try cases twins
    case value.value origin target origin' target' =>
      obtain ⟨origins, rfl⟩ := ColumnMapper.value.inj twins
      refine abreast.toIdling.fresh.bind fun s t serials => .pure (foundAs_some ?_ trivial)
      simp only [Twins, Serial.upTo, serials, origins]
    all_goals exact .pure foundAs_none

theorem arrayOf {x y : Descriptor} (keys : μ.key x y)
    {element element' : Option (MappingM (Option ColumnMapper))}
    (elements : Option.Rel (Together l R (ColumnsFound n)) element element') :
    Together l R (ColumnsFound n) (Registry.arrayOf x element) (Registry.arrayOf y element') := by
  unfold Registry.arrayOf
  rw [container_alike (μ.alike keys)]
  cases Registry.container? y with
  | none => exact .pure foundAs_none
  | some container =>
    cases elements with
    | none => exact .pure foundAs_none
    | some resolve => exact resolve.bind fun o p found => abreast.arrayFrom container found

omit abreast in
theorem run_askCustom {h : Hooks} (performs : h.perform [] = pure ()) {f : CustomFactory}
    (silent : f.onBuild = []) (key : Descriptor) (w : World) :
    ∃ v, (Registry.askCustom h f key).run w = (.ok (if f.claims key then some f.mapper else none), v) ∧
      w.Idles v := by
  unfold Registry.askCustom
  dsimp only
  rw [silent, performs, run_bind_ok (x := MappingM.note _) (a := ()) rfl]
  cases f.claims key with
  | false => exact ⟨_, rfl, rfl, le_rfl⟩
  | true =>
    simp only [if_true]
    rw [run_bind_ok (run_get _)]
    split
    · exact ⟨_, rfl, rfl, le_rfl⟩
    · exact ⟨_, rfl, rfl, le_rfl⟩

theorem askCustom {f g : CustomFactory} (matched : f.Matched μ n g) {x y : Descriptor} (keys : μ.key x y) :
    Together l R (FoundAs n fun m => m.spec.stateless = true) (Registry.askCustom h f x)
      (Registry.askCustom k g y) := by
  intro w v worlds
  obtain ⟨w', ranW, idleW⟩ := run_askCustom abreast.performs.1 matched.silent.1 x w
  obtain ⟨v', ranV, idleV⟩ := run_askCustom abreast.performs.2 matched.silent.2 y v
  rw [ranW, ranV, matched.claims x y keys]
  refine .inr ⟨?_, abreast.idle worlds idleW idleV⟩
  show FoundAs n _ (if _ then _ else _) (if _ then _ else _)
  split
  · exact foundAs_some matched.mapper matched.stateless
  · exact foundAs_none

theorem follow {Mapper : Type} [Serial Mapper] {good : Mapper → Prop} {p q : Procedure Command Mapper}
    (matched : p.Matched μ n good q) :
    Together l R (FoundAs n good) (Registry.follow h c p) (Registry.follow k d q) := by
  -- On why the procedures match: what they are told next, they match on again.
  induction matched with
  | answer found => exact .pure found
  | raise raised => exact abreast.raise raised
  | column keys _ ih => exact (abreast.column keys).bind ih
  | row keys _ ih => exact (abreast.row keys).bind ih

theorem reflectiveFor (targets : Option (List RawType)) (lead : String) {x y : Descriptor}
    (keys : μ.key x y) :
    Together l R (FoundTwins n) (Registry.reflectiveFor c targets lead x)
      (Registry.reflectiveFor d targets lead y) := by
  rcases (μ.alike keys).raw_cases with ⟨cls, hx, hy⟩ | ⟨hx, hy⟩
  · unfold Registry.reflectiveFor
    rw [hx, hy]
    split
    · refine (abreast.described _).bind fun o p same => ?_
      cases o <;> cases p
      · exact .pure rfl
      · contradiction
      · contradiction
      · refine abreast.toIdling.fresh.bind fun s t serials => .pure (foundTwins_some ?_)
        simp only [Twins, Serial.upTo, serials]
    · exact .pure rfl
  · -- What is no class has no properties, and looking them up changes nothing.
    have missing : ∀ (e : Context) {z : Descriptor}, (∀ cls, z.raw ≠ .cls cls) → ∀ u,
        (Registry.reflectiveFor e targets lead z).run u = (.ok none, u) := by
      intro e z other u
      have unknown : z.raw.class? = none := by
        cases raw : z.raw with
        | cls cls => exact absurd raw (other cls)
        | _ => rfl
      have looked : (table? e z.raw).run u = (.ok none, u) := by
        unfold table?
        rw [run_bind_ok (x := tables e) rfl, unknown]
        rfl
      unfold Registry.reflectiveFor
      split
      · rw [run_bind_ok looked]
        rfl
      · rfl
    intro w v worlds
    rw [missing c hx, missing d hy]
    exact .inr ⟨rfl, worlds⟩

theorem askColumn {f g : ColumnFactory} (matched : f.Matched μ n g) {x y : Descriptor} (keys : μ.key x y)
    {element element' : Option (MappingM (Option ColumnMapper))}
    (elements : Option.Rel (Together l R (ColumnsFound n)) element element') :
    Together l R (ColumnsFound n) (Registry.askColumn h c x element f)
      (Registry.askColumn k d y element' g) := by
  cases matched with
  | scalars origins => exact abreast.scalarOf origins keys
  | arrays => exact abreast.arrayOf keys elements
  | fixed target twins own =>
    simp only [Registry.askColumn, (μ.alike keys).same_eq target]
    split
    · exact .pure (foundAs_some twins own)
    · exact .pure foundAs_none
  | custom matched =>
    refine (abreast.askCustom matched keys).bind fun o p found => .pure ?_
    rcases found.cases with ⟨rfl, rfl⟩ | ⟨m, m', rfl, rfl, twins, own⟩
    · exact foundAs_none
    · exact foundAs_some (congrArg ColumnMapper.custom twins) own
  | written name asks => exact abreast.follow (asks x y keys)
  | reflective targets lead =>
    refine (abreast.reflectiveFor targets lead keys).bind fun o p found => .pure ?_
    rcases found.cases with ⟨rfl, rfl⟩ | ⟨m, m', rfl, rfl, twins⟩
    · exact foundAs_none
    · exact foundAs_some (congrArg ColumnMapper.misplaced twins) trivial

theorem scanColumns {fs gs : List ColumnFactory} (matched : List.Forall₂ (ColumnFactory.Matched μ n) fs gs)
    {x y : Descriptor} (keys : μ.key x y) {element element' : Option (MappingM (Option ColumnMapper))}
    (elements : Option.Rel (Together l R (ColumnsFound n)) element element') :
    Together l R (ColumnsFound n) (Chain.scan (Registry.askColumn h c x element) fs)
      (Chain.scan (Registry.askColumn k d y element') gs) :=
  Together.scan (fun _ _ found => found.1.isSome_eq) foundAs_none
    (matched.imp fun _ _ one => abreast.askColumn one keys elements)

omit abreast in
theorem misplaced {o p : Option ColumnMapper} (found : ColumnsFound n o p) :
    RowsFound n (o.map .misplaced) (p.map .misplaced) := by
  rcases found.cases with ⟨rfl, rfl⟩ | ⟨m, m', rfl, rfl, twins, _⟩
  · exact foundAs_none
  · exact foundAs_some (congrArg RowMapper.misplaced twins) trivial

theorem askRow {f g : RowFactory} (matched : f.Matched μ n g) {x y : Descriptor} (keys : μ.key x y)
    (elements : Option.Rel (Together l R (ColumnsFound n)) (Registry.findElement h c x.args)
      (Registry.findElement k d y.args)) :
    Together l R (RowsFound n) (Registry.askRow h c x f) (Registry.askRow k d y g) := by
  cases matched with
  | reflective targets lead =>
    refine (abreast.reflectiveFor targets lead keys).bind fun o p found => .pure ?_
    rcases found.cases with ⟨rfl, rfl⟩ | ⟨m, m', rfl, rfl, twins⟩
    · exact foundAs_none
    · exact foundAs_some (congrArg RowMapper.reflective twins) trivial
  | fixed target twins own =>
    simp only [Registry.askRow, (μ.alike keys).same_eq target]
    split
    · exact .pure (foundAs_some twins own)
    · exact .pure foundAs_none
  | custom matched =>
    refine (abreast.askCustom matched keys).bind fun o p found => .pure ?_
    rcases found.cases with ⟨rfl, rfl⟩ | ⟨m, m', rfl, rfl, twins, own⟩
    · exact foundAs_none
    · exact foundAs_some (congrArg RowMapper.custom twins) own
  | written name asks => exact abreast.follow (asks x y keys)
  | scalars origins => exact (abreast.scalarOf origins keys).bind fun _ _ found => .pure (misplaced found)
  | arrays => exact (abreast.arrayOf keys elements).bind fun _ _ found => .pure (misplaced found)

theorem buildRow {fs gs : List RowFactory} (matched : List.Forall₂ (RowFactory.Matched μ n) fs gs)
    {x y : Descriptor} (keys : μ.key x y)
    (elements : Option.Rel (Together l R (ColumnsFound n)) (Registry.findElement h c x.args)
      (Registry.findElement k d y.args))
    (columns : Together l R (ColumnsFound n) (Registry.findColumn h c x) (Registry.findColumn k d y)) :
    Together l R (RowsFound n) (Registry.buildRow h c x fs) (Registry.buildRow k d y gs) := by
  refine Together.bind (S := RowsFound n) ?_ fun o p found => ?_
  · exact Together.scan (fun _ _ found => found.1.isSome_eq) foundAs_none
      (matched.imp fun _ _ one => abreast.askRow one keys elements)
  · rcases found.cases with ⟨rfl, rfl⟩ | ⟨m, m', rfl, rfl, twins, own⟩
    · refine columns.bind fun a b found => ?_
      rcases found.cases with ⟨rfl, rfl⟩ | ⟨m, m', rfl, rfl, twins, own⟩
      · exact .pure foundAs_none
      · refine abreast.toIdling.fresh.bind fun s t serials => .pure (foundAs_some ?_ own)
        have same : Serial.upTo n m = Serial.upTo n m' := twins
        simp only [Twins, Serial.upTo, serials] at same ⊢
        rw [same]
    · exact .pure (foundAs_some twins own)

end Abreast
end RowMapping
