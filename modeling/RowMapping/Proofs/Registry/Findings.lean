import Mathlib.Order.Lattice
import RowMapping.Mapper.Apply

/-! What look-ups find, but for the serial numbers that tell mappers apart. -/
namespace RowMapping

theorem Chain.mem_store {Factory Mapper : Type} {c : Chain Factory Mapper} {key : Descriptor} {m : Mapper}
    {e : Descriptor × Mapper} (member : e ∈ (c.store key m).cache) : e = (key, m) ∨ e ∈ c.cache := by
  rcases List.mem_cons.mp member with rfl | kept
  · exact .inl rfl
  · exact .inr (List.mem_filter.mp kept).1

theorem Chain.cached_good {Factory Mapper : Type} {good : Mapper → Prop} {c : Chain Factory Mapper}
    (kept : ∀ e ∈ c.cache, good e.2) {key : Descriptor} {m : Mapper} (hit : c.cached? key = some m) :
    good m := by
  obtain ⟨e, found, rfl⟩ := Option.map_eq_some_iff.mp hit
  exact kept e (List.mem_of_find?_eq_some found)

class Numbered (Mapper : Type) where
  anonymous : Mapper → Mapper

open Numbered

instance : Numbered ColumnMapper where
  anonymous
    | .array _ container origin element => .array 0 container origin element
    | m => m

instance : Numbered RowMapper where
  anonymous
    | .single _ m index => .single 0 (anonymous m) index
    | .reflective m => .reflective { m with serial := 0 }
    | .planned _ plan => .planned 0 plan
    | .misplaced m => .misplaced (anonymous m)
    | .custom m => .custom m

def Alike {Mapper : Type} [Numbered Mapper] (m n : Mapper) : Prop := anonymous m = anonymous n

theorem anonymous_apply (h : Hooks) (c : Context) (m : ColumnMapper) (index : Int) :
    (anonymous m).apply h c index = m.apply h c index := by
  cases m <;> rfl

theorem Alike.apply {m n : ColumnMapper} (alike : Alike m n) (h : Hooks) (c : Context)
    (index : Int) : m.apply h c index = n.apply h c index := by
  rw [← anonymous_apply h c m, alike, anonymous_apply]

theorem Alike.value {m : ColumnMapper} {origin : Nat} {target : ClassRef}
    (alike : Alike m (.value origin target)) : m = .value origin target := by
  cases m <;> simp_all [Alike, anonymous]

/-- Both make the same of every row, or map reflectively to one type under one lead. -/
def RowMapper.Behaves (m n : RowMapper) : Prop :=
  (∀ h c, m.apply h c = n.apply h c) ∨
    ∃ x y, m = .reflective x ∧ n = .reflective y ∧ x.target = y.target ∧ x.lead = y.lead

theorem RowMapper.behaves_of_alike {m n : RowMapper} (alike : Alike m n) : m.Behaves n := by
  cases m with
  | single s mapper index =>
    cases n with
    | single t mapper' index' =>
      simp only [Alike, anonymous, RowMapper.single.injEq, true_and] at alike
      obtain ⟨one, rfl⟩ := alike
      exact .inl fun h c => Alike.apply one h c index
    | reflective | planned | custom | misplaced => cases alike
  | reflective x =>
    cases n with
    | reflective y =>
      have same := RowMapper.reflective.inj alike
      exact .inr ⟨x, y, rfl, rfl, congrArg (·.target) same, congrArg (·.lead) same⟩
    | single | planned | custom | misplaced => cases alike
  | planned s plan =>
    cases n with
    | planned t plan' =>
      cases (RowMapper.planned.inj alike).2
      exact .inl fun _ _ => rfl
    | single | reflective | custom | misplaced => cases alike
  | custom f =>
    cases n with
    | custom g =>
      cases RowMapper.custom.inj alike
      exact .inl fun _ _ => rfl
    | single | reflective | planned | misplaced => cases alike
  | misplaced x =>
    cases n with
    | misplaced y => exact .inl fun _ _ => rfl
    | single | reflective | planned | custom => cases alike

/-- What a look-up of a column finds, or nothing where it fails or does not end. -/
abbrev Finding := Option (Option ColumnMapper)

abbrev RowFinding := Option (Option RowMapper)

section Findings

variable {Mapper : Type} [Numbered Mapper]

def FoundAlike (x y : Option Mapper) : Prop := x.map anonymous = y.map anonymous

theorem foundAlike_some {x : Option Mapper} {m : Mapper} (alike : FoundAlike x (some m)) :
    ∃ n, x = some n ∧ Alike n m := by
  cases x with
  | none => contradiction
  | some n => exact ⟨n, rfl, Option.some.inj alike⟩

theorem foundAlike_none {x : Option Mapper} (alike : FoundAlike x none) : x = none := by
  cases x with
  | none => rfl
  | some n => contradiction

def Agree (x y : Option (Option Mapper)) : Prop :=
  x.map (Option.map anonymous) = y.map (Option.map anonymous)

theorem Agree.of_some {x y : Option (Option Mapper)} {o : Option Mapper} (agree : Agree x y)
    (found : x = some o) : ∃ p, y = some p ∧ FoundAlike o p := by
  subst found
  cases y with
  | none => contradiction
  | some p => exact ⟨p, rfl, Option.some.inj agree⟩

theorem Agree.bind {Other : Type} [Numbered Other] {x y : Option (Option Mapper)}
    {f g : Option Mapper → Option (Option Other)} (agree : Agree x y)
    (next : ∀ o p, FoundAlike o p → Agree (f o) (g p)) : Agree (x.bind f) (y.bind g) := by
  cases x with
  | none =>
    cases y with
    | none => rfl
    | some p => contradiction
  | some o =>
    obtain ⟨p, rfl, alike⟩ := agree.of_some rfl
    exact next o p alike

theorem Agree.scan {Factory : Type} {ask ask' : Factory → Option (Option Mapper)} {fs : List Factory}
    (agree : ∀ f ∈ fs, Agree (ask f) (ask' f)) : Agree (Chain.scan ask fs) (Chain.scan ask' fs) := by
  induction fs with
  | nil => rfl
  | cons f fs ih =>
    refine (agree f List.mem_cons_self).bind fun o p alike => ?_
    cases p with
    | none =>
      rw [foundAlike_none alike]
      exact ih fun g hg => agree g (List.mem_cons_of_mem _ hg)
    | some n =>
      obtain ⟨m, rfl, _⟩ := foundAlike_some alike
      exact congrArg some alike

omit [Numbered Mapper] in
/-- What some factories find, others find that find whatever each of the first does. -/
theorem scan_below {Factory : Type} {ask ask' : Factory → Option (Option Mapper)} {fs : List Factory}
    (below : ∀ f o, ask f = some o → ask' f = some o) {o : Option Mapper}
    (found : Chain.scan ask fs = some o) : Chain.scan ask' fs = some o := by
  induction fs with
  | nil => exact found
  | cons f fs ih =>
    simp only [Chain.scan, Option.bind_eq_bind, Option.bind_eq_some_iff] at found ⊢
    obtain ⟨x, hx, found⟩ := found
    refine ⟨x, below f x hx, ?_⟩
    cases x with
    | none => exact ih found
    | some m => exact found

/-- A look-up with `depth` levels left: what it finds, `spec` finds at some depth, and what that finds
at a lesser depth it finds. -/
def Matches (depth : Nat) (spec : Nat → Option (Option Mapper))
    (r : Except Failure (Option Mapper)) : Prop :=
  (∀ x, r = .ok x → ∃ n y, spec n = some y ∧ FoundAlike x y) ∧
    ∀ n < depth, ∀ y, spec n = some y → ∃ x, r = .ok x ∧ FoundAlike x y

def Rising (spec : Nat → Option (Option Mapper)) : Prop :=
  ∀ {m n o}, m ≤ n → spec m = some o → spec n = some o

omit [Numbered Mapper] in
theorem rising_scan {Factory : Type} {answer : Factory → Nat → Option (Option Mapper)}
    (rising : ∀ f, Rising (answer f)) (fs : List Factory) :
    Rising fun n => Chain.scan (fun f => answer f n) fs :=
  fun le found => scan_below (fun f _ => rising f le) found

variable {depth : Nat} {spec spec' : Nat → Option (Option Mapper)}

theorem matches_ok {x y : Option Mapper} (alike : FoundAlike x y) :
    Matches depth (fun _ => some y) (.ok x) := by
  constructor
  · rintro _ ⟨⟩
    exact ⟨0, y, rfl, alike⟩
  · rintro _ _ _ ⟨⟩
    exact ⟨x, rfl, alike⟩

theorem matches_error {e : Failure} (none : ∀ n < depth, spec n = none) :
    Matches depth spec (.error e) := by
  constructor
  · rintro _ ⟨⟩
  · intro n hn y hy
    rw [none n hn] at hy
    contradiction

theorem matches_exhausted (zero : depth = 0) (e : Failure) : Matches depth spec (.error e) :=
  matches_error fun n hn => by omega

theorem Matches.agree {r : Except Failure (Option Mapper)} (found : Matches depth spec r)
    (agree : ∀ n, Agree (spec n) (spec' n)) : Matches depth spec' r := by
  constructor
  · intro x hx
    obtain ⟨n, y, hy, alike⟩ := found.1 x hx
    obtain ⟨z, hz, alike'⟩ := (agree n).of_some hy
    exact ⟨n, z, hz, alike.trans alike'⟩
  · intro n hn z hz
    obtain ⟨y, hy, alike'⟩ := Agree.of_some (agree n).symm hz
    obtain ⟨x, hx, alike⟩ := found.2 n hn y hy
    exact ⟨x, hx, alike.trans alike'.symm⟩

/-- What is found at one depth is found, alike, at every depth at which something is. -/
theorem matches_found (rising : Rising spec) {n : Nat} {x y : Option Mapper}
    (found : spec n = some y) (alike : FoundAlike x y) : Matches depth spec (.ok x) := by
  constructor
  · rintro _ ⟨⟩
    exact ⟨n, y, found, alike⟩
  · intro m _ z hz
    have one : some y = some z :=
      (rising (le_max_left n m) found).symm.trans (rising (le_max_right n m) hz)
    cases one
    exact ⟨x, rfl, alike⟩

theorem Matches.unique {depth' : Nat} (rising : Rising spec) {x y : Option Mapper}
    (hx : Matches depth spec (.ok x)) (hy : Matches depth' spec (.ok y)) : FoundAlike x y := by
  obtain ⟨m, a, ha, one⟩ := hx.1 x rfl
  obtain ⟨n, b, hb, two⟩ := hy.1 y rfl
  have same : some a = some b :=
    (rising (le_max_left m n) ha).symm.trans (rising (le_max_right m n) hb)
  cases same
  exact one.trans two.symm

theorem Matches.bind_error {Other : Type} [Numbered Other]
    {next : Option Mapper → Nat → Option (Option Other)} {e : Failure}
    (failed : Matches depth spec (.error e)) :
    Matches depth (fun n => (spec n).bind fun y => next y n) (.error e) := by
  refine matches_error fun n hn => ?_
  cases found : spec n with
  | none => rfl
  | some y =>
    obtain ⟨_, absurd, _⟩ := failed.2 n hn y found
    contradiction

theorem Matches.bind_ok {Other : Type} [Numbered Other]
    {next : Option Mapper → Nat → Option (Option Other)} {a : Option Mapper}
    {r : Except Failure (Option Other)} (rising : Rising spec) (rises : ∀ y, Rising (next y))
    (found : Matches depth spec (.ok a)) (second : ∀ y, FoundAlike a y → Matches depth (next y) r) :
    Matches depth (fun n => (spec n).bind fun y => next y n) r := by
  constructor
  · intro z hz
    obtain ⟨m, y, hy, alike⟩ := found.1 a rfl
    obtain ⟨n, z', hz', alike'⟩ := (second y alike).1 z hz
    have deep := rising (le_max_left m n) hy
    have deeper := rises y (le_max_right m n) hz'
    exact ⟨max m n, z', Option.bind_eq_some_iff.mpr ⟨y, deep, deeper⟩, alike'⟩
  · intro n hn z hz
    obtain ⟨y, hy, hz⟩ := Option.bind_eq_some_iff.mp hz
    obtain ⟨_, ⟨⟩, alike⟩ := found.2 n hn y hy
    exact (second y alike).2 n hn z hz

theorem Matches.succ {r : Except Failure (Option Mapper)} (zero : spec 0 = none)
    (found : Matches depth (fun n => spec (n + 1)) r) : Matches (depth + 1) spec r := by
  constructor
  · intro x hx
    obtain ⟨n, y, hy, alike⟩ := found.1 x hx
    exact ⟨n + 1, y, hy, alike⟩
  · intro n hn y hy
    cases n with
    | zero =>
      rw [zero] at hy
      contradiction
    | succ n => exact found.2 n (by omega) y hy

theorem Matches.pred {r : Except Failure (Option Mapper)} (rising : Rising spec)
    (found : Matches (depth + 1) spec r) : Matches depth (fun n => spec (n + 1)) r := by
  constructor
  · intro x hx
    obtain ⟨n, y, hy, alike⟩ := found.1 x hx
    exact ⟨n, y, rising (Nat.le_succ n) hy, alike⟩
  · exact fun n hn y hy => found.2 (n + 1) (by omega) y hy

end Findings
end RowMapping
