import RowMapping.Proofs.Registry.Coherence

/-! The column cache over whole runs. Wherever a session comes to, looking a column up is the same as
asking the present factories with nothing kept. -/
namespace RowMapping

open Session

/-- Both mappers make the same of every column of every row. -/
def ColumnMapper.Behaves (m n : ColumnMapper) : Prop :=
  ∀ h c index, m.apply h c index = n.apply h c index

def Unregistered (w v : World) (c : Context) : Prop :=
  ∃ r r', w.registries[c.registry]? = some r ∧ v.registries[c.registry]? = some r' ∧
    r'.columns.factories = r.columns.factories

def World.cleared (w : World) (i : Nat) : World :=
  { w with registries := w.registries.modify i fun r =>
      { r with columns := { r.columns with cache := [] } } }

theorem FoundAlike.behaves {x y : Option ColumnMapper} (alike : FoundAlike x y) :
    Option.Rel ColumnMapper.Behaves x y := by
  cases y with
  | none => rw [foundAlike_none alike]; exact .none
  | some n =>
    obtain ⟨m, rfl, one⟩ := foundAlike_some alike
    exact .some one.apply

theorem World.Coherent.lookup {w v : World} (coherent : w.Coherent) {c : Context} {r : Registry}
    (owned : w.registries[c.registry]? = some r)
    (dependable : ∀ f ∈ r.columns.factories, f.Dependable) {depth : Nat} {key : Descriptor}
    {result : Except Failure (Option ColumnMapper)}
    (ran : (Registry.findColumn (hooks depth) c key).run w = (result, v))
    (quiet : Unregistered w v c) :
    Matches (depth + 1) (fun n => uncached w.schema r.columns.factories n key) result := by
  obtain ⟨t, t', known, known', same⟩ := quiet
  cases owned.symm.trans known
  have grown := (grown_hooks depth).2.findColumn c key w
  have matched := findColumn_matches (hooks_resolve depth) dependable c key w coherent
    ⟨rfl, r, owned, rfl⟩
  rw [ran] at matched grown
  exact matched ⟨grown.schema, t', known', same⟩

/-- Looking the type up comes to what the factories come to with nothing kept: it finds the same, and
it does not fail where they answer with no more than `depth` look-ups nested. -/
def FindsUncached (s : Schema) (fs : List ColumnFactory) (depth : Nat) (key : Descriptor)
    (result : Except Failure (Option ColumnMapper)) : Prop :=
  (∀ x, result = .ok x →
    ∃ n y, uncached s fs n key = some y ∧ Option.Rel ColumnMapper.Behaves x y) ∧
  ∀ n ≤ depth, ∀ y, uncached s fs n key = some y →
    ∃ x, result = .ok x ∧ Option.Rel ColumnMapper.Behaves x y

theorem Matches.findsUncached {s : Schema} {fs : List ColumnFactory} {depth : Nat}
    {key : Descriptor} {result : Except Failure (Option ColumnMapper)}
    (matched : Matches (depth + 1) (fun n => uncached s fs n key) result) :
    FindsUncached s fs depth key result := by
  constructor
  · intro x hx
    obtain ⟨n, y, found, alike⟩ := matched.1 x hx
    exact ⟨n, y, found, alike.behaves⟩
  · intro n hn y found
    obtain ⟨x, hx, alike⟩ := matched.2 n (by omega) y found
    exact ⟨x, hx, alike.behaves⟩

theorem World.coherent_cleared {w : World} (coherent : w.Coherent) (i : Nat) :
    (w.cleared i).Coherent :=
  coherent_modify (fun _ _ _ _ he => absurd he List.not_mem_nil) coherent

/-- Wherever a session comes to, every registry with dependable factories holds its built-in factories
behind those registered since, keeps for a type only what its present factories come to for it, and
finds for every type what they come to, as if nothing were kept, unless something is registered
meanwhile. -/
theorem column_lookups_current {s : Schema} {w : World} (reached : Reached s w) {c : Context}
    {r : Registry} (owned : w.registries[c.registry]? = some r)
    (dependable : ∀ f ∈ r.columns.factories, f.Dependable) :
    (∃ added serial, r.columns.factories = added ++ [.scalars serial, .arrays]) ∧
    (∀ key m, (key, m) ∈ r.columns.cache →
      ∃ n m', uncached w.schema r.columns.factories n key = some (some m') ∧ m.Behaves m') ∧
    ∀ depth key result v, (Registry.findColumn (hooks depth) c key).run w = (result, v) →
      Unregistered w v c →
        FindsUncached w.schema r.columns.factories depth key result ∧
        ∀ x x' v', result = .ok x →
          (Registry.findColumn (hooks depth) c key).run (w.cleared c.registry) = (.ok x', v') →
            Unregistered (w.cleared c.registry) v' c → Option.Rel ColumnMapper.Behaves x x' := by
  have coherent := World.coherent_of_reached reached
  have member := List.mem_of_getElem? owned
  refine ⟨World.founded_of_reached reached r member, ?_, ?_⟩
  · intro key m kept
    obtain ⟨n, m', found, alike⟩ := coherent r member dependable (key, m) kept
    exact ⟨n, m', found, alike.apply⟩
  · intro depth key result v ran quiet
    have matched := coherent.lookup owned dependable ran quiet
    refine ⟨matched.findsUncached, ?_⟩
    rintro x x' v' rfl ran' quiet'
    have matched' := (World.coherent_cleared coherent c.registry).lookup
      (r := { r with columns := { r.columns with cache := [] } }) (by simp [World.cleared, owned])
      dependable ran' quiet'
    exact (matched.unique (rising_uncached key) matched').behaves

def borrowing : ColumnFactory :=
  .written "borrowing" fun key =>
    if key.raw.class? = some (.builtin .text) then .column (.ofClass (.builtin .int)) .answer
    else .answer none

theorem borrowing_dependable : borrowing.Dependable := by
  intro d e alike
  have classes : d.raw.class? = e.raw.class? := by
    rcases alike.raw_cases with ⟨c, hd, he⟩ | ⟨hd, he⟩
    · rw [hd, he]
    · cases raw : d.raw <;> cases raw' : e.raw <;> simp_all [RawType.class?]
  dsimp only
  rw [classes]
  split
  · exact .column (.refl _) fun x y found => .answer found
  · exact .answer rfl

def borrower : World :=
  { emptyWorld default [] with
    registries := [⟨.of [], ⟨[borrowing, .scalars 0, .arrays], [], 1⟩⟩] }

theorem column_lookups_current_borrower :
    ∃ v, (Registry.findColumn (hooks 2) ⟨0, 0, 0⟩ (.ofClass (.builtin .text))).run borrower =
        (.ok (some (.value 0 (.builtin .int))), v) ∧
      FindsUncached default [borrowing, .scalars 0, .arrays] 2 (.ofClass (.builtin .text))
        (.ok (some (.value 0 (.builtin .int)))) := by
  have reached : Reached default borrower := by
    have founded := (Reached.empty []).change (.founded (emptyWorld default []) 0)
    exact founded.change (.columnRegistered _ 0 borrowing)
  have dependable : ∀ f ∈ [borrowing, .scalars 0, .arrays], f.Dependable := by
    intro f hf
    simp only [List.mem_cons, List.not_mem_nil, or_false] at hf
    rcases hf with rfl | rfl | rfl
    · exact borrowing_dependable
    · trivial
    · trivial
  have current := column_lookups_current reached (c := ⟨0, 0, 0⟩) rfl dependable
  have quiet : Unregistered borrower
      ((Registry.findColumn (hooks 2) ⟨0, 0, 0⟩ (.ofClass (.builtin .text))).run borrower).2
      ⟨0, 0, 0⟩ := by
    refine ⟨_, _, rfl, rfl, ?_⟩
    rfl
  exact ⟨_, rfl, (current.2.2 2 _ _ _ rfl quiet).1⟩

end RowMapping
