import RowMapping.Proofs.Registry.Lookup
import RowMapping.Proofs.Registry.Uncached
import RowMapping.Proofs.Session.Reached

/-! Coherence of the column caches. Every mapper kept for a type is the one that the present factories
come to without a cache, and a look-up during which nothing is registered finds what they come to. -/
namespace RowMapping

open MappingM

/-- What is kept for a type is what the factories come to for it. -/
def Chain.Sound (s : Schema) (c : Chain ColumnFactory ColumnMapper) : Prop :=
  ∀ e ∈ c.cache, ∃ depth m, uncached s c.factories depth e.1 = some (some m) ∧ Alike e.2 m

/-- The column caches of all registries with dependable factories are sound. -/
def World.Coherent (w : World) : Prop :=
  ∀ r ∈ w.registries, (∀ f ∈ r.columns.factories, f.Dependable) → r.columns.Sound w.schema

def World.Kept (w v : World) : Prop := w.Grown v ∧ (w.Coherent → v.Coherent)

namespace World

theorem coherent_of_registries {w v : World} (schema : v.schema = w.schema)
    (registries : v.registries = w.registries) (coherent : w.Coherent) : v.Coherent := by
  intro r hr
  rw [schema]
  exact coherent r (registries ▸ hr)

theorem coherent_add {w : World} {r : Registry}
    (sound : (∀ f ∈ r.columns.factories, f.Dependable) → r.columns.Sound w.schema)
    (coherent : w.Coherent) : Coherent { w with registries := w.registries ++ [r] } := by
  intro s hs dependable
  rcases List.mem_append.mp hs with known | new
  · exact coherent s known dependable
  · cases List.mem_singleton.mp new
    exact sound dependable

theorem coherent_modify {w : World} {j : Nat} {f : Registry → Registry}
    (sound : ∀ r, w.registries[j]? = some r → (∀ g ∈ (f r).columns.factories, g.Dependable) →
      (f r).columns.Sound w.schema)
    (coherent : w.Coherent) : Coherent { w with registries := w.registries.modify j f } := by
  intro s hs dependable
  obtain ⟨i, r, known, ⟨rfl, rfl⟩ | ⟨_, rfl⟩⟩ := exists_of_mem_modify hs
  · exact sound r known dependable
  · exact coherent s (List.mem_of_getElem? known) dependable

theorem course_kept : Course Kept where
  refl w := ⟨.refl w, id⟩
  trans h k := ⟨h.1.trans k.1, k.2 ∘ h.2⟩
  change := by
    intro w v change
    refine ⟨course_grown.change change, fun coherent => ?_⟩
    cases change with
    | aside schema registries tables => exact coherent_of_registries schema registries coherent
    | derived | declared | tablesAdded => exact coherent_of_registries rfl rfl coherent
    | founded serial => exact coherent_add (fun _ e he => absurd he List.not_mem_nil) coherent
    | copied known =>
      have sound := coherent _ (List.mem_of_getElem? known)
      exact coherent_add sound coherent
    | rowRegistered i f =>
      exact coherent_modify (fun r known => coherent r (List.mem_of_getElem? known)) coherent
    | columnRegistered i f =>
      exact coherent_modify (fun r _ _ e he => absurd he List.not_mem_nil) coherent

end World

def Settled (s : Schema) (fs : List ColumnFactory) (i : Nat) (w : World) : Prop :=
  w.schema = s ∧ ∃ r, w.registries[i]? = some r ∧ r.columns.factories = fs

theorem Settled.between {s : Schema} {fs : List ColumnFactory} {i : Nat} {u v w : World}
    (first : Settled s fs i u) (last : Settled s fs i w) (h : u.Grown v) (k : v.Grown w) :
    Settled s fs i v := by
  obtain ⟨schema, r, hr, hf⟩ := first
  obtain ⟨_, t, ht, tf⟩ := last
  obtain ⟨r', hr', _, grown⟩ := h.registries hr
  obtain ⟨t', ht', _, grown'⟩ := k.registries hr'
  cases ht.symm.trans ht'
  exact ⟨h.schema.trans schema, r', hr', (grown.between grown' (tf.trans hf.symm)).trans hf⟩

/-- The result of the computation satisfies `P` if nothing was registered meanwhile. -/
def Quietly (s : Schema) (fs : List ColumnFactory) (i : Nat) {α : Type} (x : MappingM α)
    (P : Except Failure α → Prop) : Prop :=
  ∀ w, w.Coherent → Settled s fs i w → Settled s fs i (x.run w).2 → P (x.run w).1

section Rules

variable {s : Schema} {fs : List ColumnFactory} {i : Nat} {α : Type}

theorem quietly_bind {β : Type} {x : MappingM α} {f : α → MappingM β} {P : Except Failure α → Prop}
    {Q : Except Failure β → Prop} (kept : Leads World.Kept x) (next : ∀ a, Leads World.Kept (f a))
    (hx : Quietly s fs i x P) (ok : ∀ a, P (.ok a) → Quietly s fs i (f a) Q)
    (error : ∀ e, P (.error e) → Q (.error e)) : Quietly s fs i (x >>= f) Q := by
  intro w coherent first last
  rcases e : x.run w with ⟨r | a, v⟩
  · rw [run_bind_error e] at last ⊢
    have result := hx w coherent first
    rw [e] at result
    exact error r (result last)
  · rw [run_bind_ok e] at last ⊢
    have grown := kept w
    rw [e] at grown
    have middle := first.between last grown.1 (next a v).1
    have result := hx w coherent first
    rw [e] at result
    exact ok a (result middle) v (grown.2 coherent) middle last

theorem quietly_find {x : MappingM (Option ColumnMapper)}
    {f : Option ColumnMapper → MappingM (Option ColumnMapper)} {depth : Nat} {spec : Nat → Finding}
    {next : Option ColumnMapper → Nat → Finding} (kept : Leads World.Kept x)
    (keeps : ∀ a, Leads World.Kept (f a)) (rising : Rising spec) (rises : ∀ y, Rising (next y))
    (hx : Quietly s fs i x (Matches depth spec))
    (hf : ∀ o p, FoundAlike o p → Quietly s fs i (f o) (Matches depth (next p))) :
    Quietly s fs i (x >>= f) (Matches depth fun n => (spec n).bind fun y => next y n) := by
  intro w coherent first last
  rcases e : x.run w with ⟨r | a, v⟩
  · rw [run_bind_error e] at last ⊢
    have result := hx w coherent first
    rw [e] at result
    exact (result last).bind_error
  · rw [run_bind_ok e] at last ⊢
    have grown := kept w
    rw [e] at grown
    have middle := first.between last grown.1 (keeps a v).1
    have result := hx w coherent first
    rw [e] at result
    exact (result middle).bind_ok rising rises fun y alike =>
      hf a y alike v (grown.2 coherent) middle last

/-- What is done on the way does not matter if it can fail only where a failure is allowed. -/
theorem quietly_after {β : Type} {x : MappingM α} {f : α → MappingM β} {allowed : Prop}
    {Q : Except Failure β → Prop} (kept : Leads World.Kept x) (keeps : ∀ a, Leads World.Kept (f a))
    (safe : ¬ allowed → ∀ w, ∃ a v, x.run w = (.ok a, v))
    (error : allowed → ∀ e, Q (.error e)) (hf : ∀ a, Quietly s fs i (f a) Q) :
    Quietly s fs i (x >>= f) Q := by
  refine quietly_bind (P := fun r => allowed ∨ ∃ a, r = .ok a) kept keeps ?_ (fun a _ => hf a) ?_
  · intro w _ _ _
    by_cases can : allowed
    · exact .inl can
    · obtain ⟨a, v, e⟩ := safe can w
      exact .inr ⟨a, by rw [e]⟩
  · rintro e (can | ⟨_, ⟨⟩⟩)
    exact error can e

theorem quietly_pure {depth : Nat} {x y : Option ColumnMapper} (alike : FoundAlike x y) :
    Quietly s fs i (pure x) (Matches depth fun _ => some y) := fun _ _ _ _ => matches_ok alike

end Rules

section Factories

variable {s : Schema} {fs : List ColumnFactory} {h : Hooks} {c : Context} {depth : Nat}

/-- Hooks that keep coherence, with `depth` levels left to find columns on. -/
structure Hooks.Resolve (h : Hooks) (depth : Nat) : Prop where
  lead : h.Lead World.Kept
  performs : ¬ depth = 0 → ∀ commands w, ∃ a v, (h.perform commands).run w = (.ok a, v)
  finds : ∀ {s fs} c key, (∀ f ∈ fs, f.Dependable) → Quietly s fs c.registry (h.findColumn c key)
    (Matches depth fun n => uncached s fs n key)

theorem rising_uncached (key : Descriptor) : Rising fun n => uncached s fs n key :=
  fun le found => uncached_mono le key _ found

theorem rising_reply (p : Procedure Command ColumnMapper) :
    Rising fun n => p.reply (uncached s fs n) :=
  fun le found => Procedure.reply_below (uncached_mono le) found

theorem quietly_follow (resolve : h.Resolve depth) (dependable : ∀ f ∈ fs, f.Dependable)
    {p q : Procedure Command ColumnMapper} (like : p.Like q) :
    Quietly s fs c.registry (Registry.follow h c p)
      (Matches depth fun n => q.reply (uncached s fs n)) := by
  have keeps : ∀ p : Procedure Command ColumnMapper, Leads World.Kept (Registry.follow h c p) :=
    World.course_kept.follow resolve.lead c
  -- On why the procedures are alike. Only the left one runs here, the right one's commands are skipped.
  induction like with
  | answer alike => exact quietly_pure alike
  | raise r t => exact fun _ _ _ _ => matches_error fun _ _ => rfl
  | @column d e next next' alike likes ih =>
    have agree := fun n => uncached_uniform (s := s) dependable n d e alike
    refine quietly_find (resolve.lead.findColumn c d) (fun o => keeps (next o))
      (rising_uncached e) (fun o => rising_reply (next' o)) ?_ ih
    exact fun w coherent first last =>
      (resolve.finds c d dependable w coherent first last).agree agree
  | performLeft commands like ih =>
    refine quietly_after World.course_kept.fresh (fun a => ?_) (fun _ w => ⟨_, _, rfl⟩)
      matches_exhausted fun a => ?_
    · exact World.course_kept.bind (resolve.lead.perform _) fun _ => keeps _
    · exact quietly_after (resolve.lead.perform _) (fun _ => keeps _) (resolve.performs · _)
        matches_exhausted fun _ => ih
  | performRight commands like ih => exact ih

theorem quietly_scalarOf (origin : Nat) (key : Descriptor) :
    Quietly s fs c.registry (Registry.scalarOf origin key)
      (Matches depth fun _ => some (scalarFor s origin key)) := by
  intro w _ first _
  have result : ((Registry.scalarOf origin key).run w).1 = .ok (scalarFor s origin key) := by
    unfold Registry.scalarOf scalarFor
    cases key.raw with
    | cls c =>
      dsimp only
      rw [run_bind_ok (run_get w), first.1]
      split <;> rfl
    | _ => rfl
  rw [result]
  exact matches_ok rfl

theorem askCustom_answers (resolve : h.Resolve depth) (f : CustomFactory) (key : Descriptor)
    (w : World) :
    (∃ v, (Registry.askCustom h f key).run w =
      (.ok (if f.claims key then some f.mapper else none), v)) ∨
      depth = 0 ∧ ∃ e v, (Registry.askCustom h f key).run w = (.error e, v) := by
  unfold Registry.askCustom
  dsimp only
  rw [run_bind_ok (x := note _) (a := ()) rfl]
  cases f.claims key with
  | false => exact .inl ⟨_, rfl⟩
  | true =>
    simp only [if_true]
    rw [run_bind_ok (run_get _)]
    split
    · rw [run_bind_ok (x := modify _) (a := ()) rfl, run_bind]
      split
      · exact .inl ⟨_, rfl⟩
      · next e v failed =>
        refine .inr ⟨?_, e, v, rfl⟩
        by_contra positive
        obtain ⟨_, _, ok⟩ := resolve.performs positive f.onBuild _
        cases ok.symm.trans failed
    · exact .inl ⟨_, rfl⟩

theorem quietly_custom (resolve : h.Resolve depth) (f : CustomFactory) (key : Descriptor) :
    Quietly s fs c.registry (do return (← Registry.askCustom h f key).map ColumnMapper.custom)
      (Matches depth fun _ => some (if f.claims key then some (.custom f.mapper) else none)) := by
  intro w _ _ _
  rcases askCustom_answers resolve f key w with ⟨v, ok⟩ | ⟨zero, e, v, failed⟩
  · rw [run_bind_ok ok]
    refine matches_ok ?_
    split <;> rfl
  · rw [run_bind_error failed]
    exact matches_exhausted zero e

def ItemsResolve (s : Schema) (fs : List ColumnFactory) (h : Hooks) (c : Context) (depth : Nat)
    (key : Descriptor) : Prop :=
  ∀ d ∈ key.args, Leads World.Kept (Registry.findColumnAs h c d true) ∧
    Quietly s fs c.registry (Registry.findColumnAs h c d true)
      (Matches depth fun n => findingAs s fs (uncached s fs n) d true)

theorem rising_findingAs (key : Descriptor) (nullable : Bool) :
    Rising fun n => findingAs s fs (uncached s fs n) key nullable :=
  fun le found => findingAs_below (uncached_mono le) found

theorem quietly_arrayFrom (container : Builtin) {o p : Option ColumnMapper}
    (alike : FoundAlike o p) :
    Quietly s fs c.registry (Registry.arrayFrom container o)
      (Matches depth fun _ => some (arrayWith container p)) := by
  have same := arrayWith_alike container alike
  intro w _ _ _
  unfold Registry.arrayFrom
  split
  · exact matches_ok same
  · next other =>
    cases p with
    | none => exact matches_ok rfl
    | some n =>
      obtain ⟨m, rfl, one⟩ := foundAlike_some alike
      cases n with
      | value origin target => exact absurd (congrArg some one.value) (other origin target)
      | array | raw | custom | misplaced => exact matches_ok rfl

theorem quietly_arrayOf {key : Descriptor} (items : ItemsResolve s fs h c depth key) :
    Quietly s fs c.registry (Registry.arrayOf key (Registry.findElement h c key.args))
      (Matches depth fun n => arrayFor key (findingElement s fs (uncached s fs n) key.args)) := by
  unfold Registry.arrayOf arrayFor
  cases Registry.container? key with
  | none => exact quietly_pure rfl
  | some container =>
    cases args : key.args with
    | nil => exact quietly_pure rfl
    | cons d ds =>
      obtain ⟨kept, quiet⟩ := items d (args ▸ List.mem_cons_self)
      simp only [findingElement, Option.map_eq_bind]
      exact quietly_find kept (World.course_kept.arrayFrom container) (rising_findingAs d true)
        (fun _ _ _ _ _ found => found) quiet fun o p => quietly_arrayFrom container

theorem quietly_askColumn (resolve : h.Resolve depth) (dependable : ∀ f ∈ fs, f.Dependable)
    {key : Descriptor} (items : ItemsResolve s fs h c depth key) {f : ColumnFactory}
    (known : f ∈ fs) :
    Quietly s fs c.registry
      (Registry.askColumn h c key (Registry.findElement h c key.args) f)
      (Matches depth fun n => f.answer s (uncached s fs n) key
        (findingElement s fs (uncached s fs n) key.args)) := by
  have trusted := dependable f known
  cases f with
  | scalars origin => exact quietly_scalarOf origin key
  | arrays => exact quietly_arrayOf items
  | fixed target mapper => exact quietly_pure rfl
  | custom f => exact quietly_custom resolve f key
  | written name ask => exact quietly_follow resolve dependable (trusted key key (.refl key))
  | reflective targets lead => contradiction

theorem quietly_scan {ask : ColumnFactory → MappingM (Option ColumnMapper)}
    {answer : ColumnFactory → Nat → Finding} {gs : List ColumnFactory}
    (kept : ∀ f, Leads World.Kept (ask f)) (rising : ∀ f, Rising (answer f))
    (asked : ∀ f ∈ gs, Quietly s fs c.registry (ask f) (Matches depth (answer f))) :
    Quietly s fs c.registry (Chain.scan ask gs)
      (Matches depth fun n => Chain.scan (fun f => answer f n) gs) := by
  induction gs with
  | nil => exact quietly_pure rfl
  | cons f gs ih =>
    have rest := ih fun g hg => asked g (List.mem_cons_of_mem _ hg)
    refine quietly_find (kept f) (fun o => ?_) (rising f) (fun o => ?_)
      (asked f List.mem_cons_self) fun o p alike => ?_
    · cases o with
      | none => exact World.course_kept.scan kept gs
      | some m => exact World.course_kept.pure _
    · cases o with
      | none => exact rising_scan rising gs
      | some m => exact fun _ found => found
    · cases p with
      | none =>
        rw [foundAlike_none alike]
        exact rest
      | some n =>
        obtain ⟨m, rfl, _⟩ := foundAlike_some alike
        exact quietly_pure alike

end Factories

/-! ### Look-ups -/

theorem Chain.Sound.cached {s : Schema} {c : Chain ColumnFactory ColumnMapper} (sound : c.Sound s)
    (dependable : ∀ f ∈ c.factories, f.Dependable) {key : Descriptor} {m : ColumnMapper}
    (hit : c.cached? key = some m) :
    ∃ n y, uncached s c.factories n key = some y ∧ FoundAlike (some m) y := by
  simp only [cached?, Option.map_eq_some_iff] at hit
  obtain ⟨e, found, rfl⟩ := hit
  obtain ⟨n, m, hm, alike⟩ := sound e (List.mem_of_find?_eq_some found)
  have same := List.find?_some found
  obtain ⟨y, hy, one⟩ := (uncached_uniform dependable n e.1 key (.inr same)).of_some hm
  exact ⟨n, y, hy, (congrArg some alike).trans one⟩

theorem Chain.Sound.store {s : Schema} {c : Chain ColumnFactory ColumnMapper} (sound : c.Sound s)
    {key : Descriptor} {m : ColumnMapper} {n : Nat} {y : Option ColumnMapper}
    (found : uncached s c.factories n key = some y) (alike : FoundAlike (some m) y) :
    (c.store key m).Sound s := by
  intro e he
  rcases List.mem_cons.mp he with rfl | old
  · obtain ⟨m', rfl, one⟩ := foundAlike_some alike.symm
    exact ⟨n, m', found, one.symm⟩
  · exact sound e (List.mem_of_mem_filter old)

section Lookups

variable {h : Hooks} {c : Context} {depth : Nat}

/-- What a quiet scan found may be kept. If something was registered meanwhile nothing is kept. -/
theorem coherent_record {w v : World} {r : Registry} {key : Descriptor} {found : Option ColumnMapper}
    (known : w.registries[c.registry]? = some r) (grown : w.Grown v) (coherent : v.Coherent)
    (quiet : (∀ f ∈ r.columns.factories, f.Dependable) →
      Settled w.schema r.columns.factories c.registry v →
      ∃ n y, uncached w.schema r.columns.factories n key = some y ∧ FoundAlike found y) :
    ((Registry.recordColumn c r.columns.generation key found).run v).2.Coherent := by
  cases found with
  | none => exact (World.course_kept.log _ _ _ v).2 coherent
  | some m =>
    have kept : ((Registry.keepColumn c r.columns.generation key m).run v).2.Coherent := by
      refine World.coherent_modify (fun t ht dependable => ?_) coherent
      obtain ⟨t', ht', _, chain⟩ := grown.registries known
      cases ht.symm.trans ht'
      -- The generation that the look-up began with is still the present one only if nothing was
      -- registered meanwhile, and then the scan was quiet.
      split at dependable
      · next generation =>
        rw [if_pos generation]
        have same := chain.factories_eq_iff.mpr generation
        have trusted : ∀ f ∈ r.columns.factories, f.Dependable := fun f hf => dependable f (same ▸ hf)
        obtain ⟨n, y, found, alike⟩ := quiet trusted ⟨grown.schema, t, ht, same⟩
        rw [← same, ← grown.schema] at found
        exact (coherent t (List.mem_of_getElem? ht) dependable).store found alike
      · next generation =>
        rw [if_neg generation]
        exact coherent t (List.mem_of_getElem? ht) dependable
    rw [Registry.recordColumn, run_bind_ok (x := Registry.keepColumn _ _ _ _) (a := ()) rfl]
    exact (World.course_kept.log _ _ _ _).2 kept

def ScanKeeps (h : Hooks) (c : Context) (depth : Nat) (key : Descriptor) : Prop :=
  ∀ fs, Leads World.Kept
      (Chain.scan (Registry.askColumn h c key (Registry.findElement h c key.args)) fs) ∧
    ∀ s, (∀ f ∈ fs, f.Dependable) → Quietly s fs c.registry
      (Chain.scan (Registry.askColumn h c key (Registry.findElement h c key.args)) fs)
      (Matches depth fun n => findingAs s fs (uncached s fs n) key key.nullable)

theorem kept_resolveColumn {key : Descriptor} (scan : ScanKeeps h c depth key) :
    Leads World.Kept (Registry.resolveColumn h c key (Registry.findElement h c key.args)) := by
  intro w
  refine World.course_kept.resolveColumn_from (fun fs => (scan fs).1) ?_
  intro r v found known _ scanned led
  obtain ⟨_, quiet⟩ := scan r.columns.factories
  have grown := World.course_grown.recordColumn
    (World.grown_keepColumn c r.columns.generation key) found v
  refine ⟨led.1.trans grown, fun coherent => ?_⟩
  refine coherent_record known led.1 (led.2 coherent) fun dependable settled => ?_
  have matched := quiet w.schema dependable w coherent ⟨rfl, r, known, rfl⟩
  rw [scanned] at matched
  obtain ⟨n, y, hy, alike⟩ := (matched settled).1 found rfl
  exact ⟨n + 1, y, hy, alike⟩

theorem quietly_resolveColumn {s : Schema} {fs : List ColumnFactory} {key : Descriptor}
    (scan : ScanKeeps h c depth key) (dependable : ∀ f ∈ fs, f.Dependable) :
    Quietly s fs c.registry
      (Registry.resolveColumn h c key (Registry.findElement h c key.args))
      (Matches depth fun n => findingAs s fs (uncached s fs n) key key.nullable) := by
  intro w coherent first last
  obtain ⟨rfl, r, known, rfl⟩ := first
  cases hit : r.columns.cached? key with
  | some m =>
    rw [resolveColumn_hit known hit]
    have sound := coherent r (List.mem_of_getElem? known) dependable
    obtain ⟨n, y, hy, alike⟩ := sound.cached dependable hit
    cases n with
    | zero => contradiction
    | succ n => exact matches_found (rising_findingAs key key.nullable) hy alike
  | none =>
    obtain ⟨kept, quiet⟩ := scan r.columns.factories
    have first : Settled w.schema r.columns.factories c.registry w := ⟨rfl, r, known, rfl⟩
    have led := kept w
    have matched := quiet w.schema dependable w coherent first
    rcases scanned : (Chain.scan (Registry.askColumn h c key (Registry.findElement h c key.args))
      r.columns.factories).run w with ⟨e | found, v⟩ <;> rw [scanned] at led matched
    · rw [resolveColumn_failed known hit scanned] at last ⊢
      exact matched last
    · rw [resolveColumn_miss known hit scanned] at last ⊢
      have grown := World.course_grown.recordColumn
        (World.grown_keepColumn c r.columns.generation key) found v
      exact matched (first.between last led.1 grown)

/-- A look-up of a column keeps the caches coherent, and a quiet one finds what the oracles find. -/
theorem findColumnAs_resolves (resolve : h.Resolve depth) (key : Descriptor) (nullable : Bool) :
    Leads World.Kept (Registry.findColumnAs h c key nullable) ∧
      ∀ s fs, (∀ f ∈ fs, f.Dependable) →
        Quietly s fs c.registry (Registry.findColumnAs h c key nullable)
          (Matches depth fun n => findingAs s fs (uncached s fs n) key nullable) := by
  -- On the items of the type, which the array factory looks up with the same hooks.
  induction key using Descriptor.induct_args generalizing nullable with
  | step key ih =>
  obtain ⟨raw, args, admitted⟩ := key
  have scan : ScanKeeps h c depth (.mk raw args nullable) := by
    have element : Course.Element World.Kept (Registry.findElement h c args) := by
      cases args with
      | nil => simp [Course.Element, Registry.findElement]
      | cons d ds =>
        rintro x ⟨⟩
        exact (ih d List.mem_cons_self true).1
    have asks := World.course_kept.askColumn resolve.lead c (.mk raw args nullable) element
    refine fun fs => ⟨World.course_kept.scan asks fs, fun s dependable => ?_⟩
    have items : ItemsResolve s fs h c depth (.mk raw args nullable) := fun d hd =>
      ⟨(ih d hd true).1, (ih d hd true).2 s fs dependable⟩
    refine quietly_scan asks (fun f => ?_) fun f hf => quietly_askColumn resolve dependable items hf
    refine fun le found => f.answer_below (uncached_mono le) ?_ _ found
    cases args with
    | nil => exact .none
    | cons d ds => exact .some fun o => findingAs_below (uncached_mono le)
  exact ⟨kept_resolveColumn scan, fun s fs => quietly_resolveColumn scan⟩

end Lookups

theorem World.kept_keepRow (c : Context) (key : Descriptor) (m : RowMapper) :
    Leads World.Kept (Registry.keepRow c key m) := by
  refine fun w => ⟨World.grown_keepRow c key m w, fun coherent => ?_⟩
  exact World.coherent_modify (fun r known => coherent r (List.mem_of_getElem? known)) coherent

theorem Hooks.Resolve.lookups {h : Hooks} {depth : Nat} (resolve : h.Resolve depth) :
    Registry.Lead World.Kept h where
  column _ key nullable := (findColumnAs_resolves resolve key nullable).1
  row c key := World.course_kept.findRow resolve.lead
    (fun key nullable => (findColumnAs_resolves resolve key nullable).1) (World.kept_keepRow c) key

theorem findColumn_matches {h : Hooks} {depth : Nat} (resolve : h.Resolve depth) {s : Schema}
    {fs : List ColumnFactory} (dependable : ∀ f ∈ fs, f.Dependable) (c : Context)
    (key : Descriptor) :
    Quietly s fs c.registry (Registry.findColumn h c key)
      (Matches (depth + 1) fun n => uncached s fs n key) := by
  intro w coherent first last
  have found := (findColumnAs_resolves resolve key key.nullable).2 s fs dependable w coherent first last
  exact Matches.succ rfl found

theorem hooks_resolve (depth : Nat) : (Session.hooks depth).Resolve depth := by
  -- The look-ups of one level are the hooks of the next.
  induction depth with
  | zero =>
    exact ⟨World.course_kept.hooks_zero, fun positive => absurd rfl positive,
      fun _ _ _ _ _ _ _ => matches_exhausted rfl _⟩
  | succ depth ih =>
    refine ⟨World.course_kept.hooks_succ ih.lead ih.lookups, fun _ commands => ?_,
      fun _ key dependable => findColumn_matches ih dependable _ key⟩
    induction commands with
    | nil => exact fun w => ⟨(), w, rfl⟩
    | cons command commands next =>
      intro w
      obtain ⟨a, v, performed⟩ := next _
      exact ⟨a, v, (run_bind_ok (a := ()) rfl).trans performed⟩

theorem World.coherent_of_reached {s : Schema} {w : World} (reached : Reached s w) : w.Coherent := by
  have lookup : ∀ depth, Registry.Lead (fun w v : World => w.Coherent → v.Coherent)
      (Session.hooks depth) := by
    intro depth
    have lookups := (hooks_resolve depth).lookups
    exact ⟨fun c key nullable w => (lookups.column c key nullable w).2, fun c key w => (lookups.row c key w).2⟩
  refine reached.holds ⟨fun _ => id, fun h k => k ∘ h, fun change => (course_kept.change change).2⟩
    lookup fun w _ none _ r hr => ?_
  exact absurd (none ▸ hr) List.not_mem_nil

end RowMapping
