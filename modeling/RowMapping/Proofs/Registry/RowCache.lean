import RowMapping.Proofs.Registry.Lookup
import RowMapping.Proofs.Session.Reached

/-! The row cache over whole runs. Every mapper that it keeps was built by a scan after whose end nothing
was registered. What was registered while the scan ran does not count: the mapper is kept all the same,
and later look-ups find it. -/
namespace RowMapping

open MappingM Session

structure RowScan (key : Descriptor) (m : RowMapper) where
  depth : Nat
  context : Context
  began : World
  before : Registry
  owned : began.registries[context.registry]? = some before
  ended : World
  after : Registry
  left : ended.registries[context.registry]? = some after
  built : (Registry.buildRow (hooks depth) context key before.rows.factories).run began =
    (.ok (some m), ended)

namespace RowScan

variable {key : Descriptor} {m : RowMapper} (scan : RowScan key m)

def Undisturbed : Prop := scan.after.rows.factories = scan.before.rows.factories

theorem registry_grown : scan.before.rows.Grown scan.after.rows ∧ scan.before.columns.Grown scan.after.columns := by
  have hooks := World.grown_hooks scan.depth
  have led := World.course_grown.buildRow hooks.1 (hooks.2.column scan.context) key
    scan.before.rows.factories scan.began
  rw [scan.built] at led
  obtain ⟨r, left, grown⟩ := led.registries scan.owned
  cases left.symm.trans scan.left
  exact grown

theorem first {f : RowFactory} {fs : List RowFactory} (newest : scan.before.rows.factories = f :: fs)
    {n : RowMapper} {v : World}
    (claims : (Registry.askRow (hooks scan.depth) scan.context key f).run scan.began =
      (.ok (some n), v)) : m = n := by
  have built := scan.built
  rw [newest, Registry.buildRow] at built
  have scanned : (Chain.scan (Registry.askRow (hooks scan.depth) scan.context key) (f :: fs)).run
      scan.began = (.ok (some n), v) := run_bind_ok claims
  rw [run_bind_ok scanned] at built
  cases built
  rfl

end RowScan

/-- Every mapper in a row cache was built by a scan after whose end nothing was registered. -/
def World.Scanned (s : Schema) (w : World) : Prop :=
  ∀ r ∈ w.registries, ∀ key m, (key, m) ∈ r.rows.cache → ∃ scan : RowScan key m,
    Reached s scan.began ∧ scan.ended.Grown w ∧ r.rows.factories = scan.after.rows.factories

namespace World

/-- Row caches are empty or stand with the factories that they stood with before. -/
def RowsFrom (w v : World) : Prop :=
  ∀ t ∈ v.registries, t.rows.cache = [] ∨
    ∃ r ∈ w.registries, t.rows.factories = r.rows.factories ∧ t.rows.cache = r.rows.cache

theorem Scanned.of_rows {s : Schema} {w v : World} (scanned : w.Scanned s) (grown : w.Grown v)
    (rows : w.RowsFrom v) : v.Scanned s := by
  intro t ht key m kept
  rcases rows t ht with none | ⟨r, hr, factories, cache⟩
  · simp [none] at kept
  · obtain ⟨scan, reached, since, same⟩ := scanned r hr key m (cache ▸ kept)
    exact ⟨scan, reached, since.trans grown, factories.trans same⟩

theorem rowsFrom_of_registries {w v : World} (registries : v.registries = w.registries) :
    w.RowsFrom v := fun t ht => .inr ⟨t, registries ▸ ht, rfl, rfl⟩

theorem rowsFrom_add {w : World} {r : Registry}
    (new : r.rows.cache = [] ∨ ∃ t ∈ w.registries, r.rows.factories = t.rows.factories ∧
      r.rows.cache = t.rows.cache) :
    w.RowsFrom { w with registries := w.registries ++ [r] } := by
  intro t ht
  rcases List.mem_append.mp ht with old | last
  · exact .inr ⟨t, old, rfl, rfl⟩
  · cases List.mem_singleton.mp last
    exact new

theorem rowsFrom_modify {w : World} {i : Nat} {f : Registry → Registry}
    (kept : ∀ r : Registry, (f r).rows.cache = [] ∨
      (f r).rows.factories = r.rows.factories ∧ (f r).rows.cache = r.rows.cache) :
    w.RowsFrom { w with registries := w.registries.modify i f } := by
  intro t ht
  obtain ⟨j, r, known, ⟨_, rfl⟩ | ⟨_, rfl⟩⟩ := exists_of_mem_modify ht
  · rcases kept r with none | same
    · exact .inl none
    · exact .inr ⟨r, List.mem_of_getElem? known, same⟩
  · exact .inr ⟨t, List.mem_of_getElem? known, rfl, rfl⟩

theorem rowsFrom_change {w v : World} (change : Change w v) : w.RowsFrom v := by
  cases change with
  | aside _ registries _ => exact rowsFrom_of_registries registries
  | derived | declared | tablesAdded => exact rowsFrom_of_registries rfl
  | founded => exact rowsFrom_add (.inl rfl)
  | copied known => exact rowsFrom_add (.inr ⟨_, List.mem_of_getElem? known, rfl, rfl⟩)
  | rowRegistered => exact rowsFrom_modify fun _ => .inl rfl
  | columnRegistered => exact rowsFrom_modify fun _ => .inr ⟨rfl, rfl⟩

theorem rowsFrom_keepColumn (c : Context) (generation : Nat) (key : Descriptor) (m : ColumnMapper) :
    Leads RowsFrom (Registry.keepColumn c generation key m) := by
  refine fun w => rowsFrom_modify fun r => .inr ?_
  split <;> exact ⟨rfl, rfl⟩

theorem Scanned.keepRow {s : Schema} {key : Descriptor} {m : RowMapper} (scan : RowScan key m)
    (reached : Reached s scan.began) (scanned : scan.ended.Scanned s) :
    ((Registry.keepRow scan.context key m).run scan.ended).2.Scanned s := by
  have grown := grown_keepRow scan.context key m scan.ended
  intro t ht k n kept
  have old : ∀ r ∈ scan.ended.registries, (k, n) ∈ r.rows.cache → ∃ scan' : RowScan k n,
      Reached s scan'.began ∧
      scan'.ended.Grown ((Registry.keepRow scan.context key m).run scan.ended).2 ∧
      r.rows.factories = scan'.after.rows.factories := by
    intro r known member
    obtain ⟨scan', reached', since, same⟩ := scanned r known k n member
    exact ⟨scan', reached', since.trans grown, same⟩
  obtain ⟨j, r, known, ⟨rfl, rfl⟩ | ⟨_, rfl⟩⟩ := exists_of_mem_modify ht
  · rcases List.mem_cons.mp kept with new | member
    · cases new
      cases known.symm.trans scan.left
      exact ⟨scan, reached, grown, rfl⟩
    · exact old r (List.mem_of_getElem? known) (List.mem_of_mem_filter member)
  · exact old t (List.mem_of_getElem? known) kept

end World

/-- A condition on worlds that lasts: through changes, and when what look-ups find is kept. -/
structure Account (s : Schema) (Q : World → Prop) : Prop where
  change : ∀ {w v}, Change w v → Q w → Q v
  keepColumn : ∀ c generation key m w, Q w → Q ((Registry.keepColumn c generation key m).run w).2
  /-- What a scan built may be kept as soon as it ends. -/
  keepRow : ∀ {key m} (scan : RowScan key m), Reached s scan.began → Q scan.ended →
    Q ((Registry.keepRow scan.context key m).run scan.ended).2

structure Accounted (s : Schema) (Q : World → Prop) (w v : World) : Prop where
  onward : Onward w v
  grown : w.Grown v
  kept : Reached s w → Q w → Q v

namespace Account

variable {s : Schema} {Q : World → Prop} (account : Account s Q)
include account

theorem keeps : Course fun w v => Q w → Q v := ⟨fun _ => id, fun h k => k ∘ h, account.change⟩

theorem course : Course (Accounted s Q) where
  refl w := ⟨.refl w, .refl w, fun _ => id⟩
  trans h k := ⟨h.onward.trans k.onward, h.grown.trans k.grown, fun reached kept =>
    k.kept (reached.onward h.onward) (h.kept reached kept)⟩
  change change := ⟨Onward.course.change change, World.course_grown.change change, fun _ => account.change change⟩

theorem columns {depth : Nat} (lead : (hooks depth).Lead (Accounted s Q)) (c : Context) (key : Descriptor)
    (nullable : Bool) : Leads (Accounted s Q) (Registry.findColumnAs (hooks depth) c key nullable) := by
  -- A look-up as a whole leads on. That its scan is accounted for as well needs the items.
  induction key using Descriptor.induct_args generalizing nullable with
  | step key ih =>
  obtain ⟨raw, args, admitted⟩ := key
  intro w
  have onward := (Onward.lookups depth).column c (.mk raw args admitted) nullable w
  rw [Registry.findColumnAs] at onward ⊢
  refine account.course.resolveColumn_from (fun fs => ?_) fun r v found known miss scanned led => ?_
  · refine account.course.scan (account.course.askColumn lead c _ ?_) fs
    cases args with
    | nil => simp [Course.Element, Registry.findElement]
    | cons d ds =>
      rintro x ⟨⟩
      exact ih d List.mem_cons_self true
  · rw [resolveColumn_miss known miss scanned] at onward
    have grown := World.course_grown.recordColumn
      (World.grown_keepColumn c r.columns.generation (.mk raw args nullable)) found v
    have kept := account.keeps.recordColumn (account.keepColumn c r.columns.generation (.mk raw args nullable)) found v
    exact ⟨onward, led.grown.trans grown, fun reached before => kept (led.kept reached before)⟩

theorem rows {depth : Nat} (lead : (hooks depth).Lead (Accounted s Q)) (c : Context) (key : Descriptor) :
    Leads (Accounted s Q) (Registry.findRow (hooks depth) c key) := by
  intro w
  have onward := (Onward.lookups depth).row c key w
  refine account.course.findRow_from (account.course.buildRow lead (account.columns lead c) key) ?_
  intro r v found known miss built led
  rw [findRow_miss known miss built] at onward
  have grown := World.course_grown.recordRow (World.grown_keepRow c key) found v
  refine ⟨onward, led.grown.trans grown, fun reached before => ?_⟩
  have kept := led.kept reached before
  cases found with
  | none => exact account.keeps.log _ _ _ v kept
  | some m =>
    obtain ⟨r', left, _, _⟩ := led.grown.registries known
    -- The scan that accounts for the new entry is the one that has just ended.
    exact account.keeps.log _ _ _ _ (account.keepRow ⟨depth, c, w, r, known, v, r', left, built⟩ reached kept)

theorem lookups (depth : Nat) : Registry.Lead (Accounted s Q) (hooks depth) :=
  (account.course.hooks (fun _ lead => ⟨account.columns lead, account.rows lead⟩) depth).2

theorem of_reached (empty : ∀ w, w.registries = [] → Q w) {w : World} (reached : Reached s w) : Q w := by
  obtain ⟨u, schema, registries, tables, on⟩ := reached
  exact (on.admits account.course account.lookups).kept ⟨u, schema, registries, tables, .refl u⟩
    (empty u registries)

end Account

theorem account_scanned (s : Schema) : Account s (World.Scanned s) where
  change change scanned := scanned.of_rows (World.course_grown.change change) (World.rowsFrom_change change)
  keepColumn c generation key m w scanned :=
    scanned.of_rows (World.grown_keepColumn c generation key m w) (World.rowsFrom_keepColumn c generation key m w)
  keepRow scan reached scanned := World.Scanned.keepRow scan reached scanned

theorem World.scanned_of_reached {s : Schema} {w : World} (reached : Reached s w) : w.Scanned s :=
  (account_scanned s).of_reached (fun _ none _ hr => absurd (none ▸ hr) List.not_mem_nil) reached

/-- A look-up that builds a mapper answers with it, and so do the next ones for the same type. -/
theorem findRow_again {w v : World} {c : Context} {r : Registry} {depth : Nat} {key : Descriptor}
    {m : RowMapper} (known : w.registries[c.registry]? = some r)
    (miss : r.rows.cached? key = none)
    (built : (Registry.buildRow (hooks depth) c key r.rows.factories).run w = (.ok (some m), v)) :
    ∃ u, (Registry.findRow (hooks depth) c key).run w = (.ok (some m), u) ∧
      ∀ depth' c' other, c'.registry = c.registry → key.same other = true →
        (Registry.findRow (hooks depth') c' other).run u = (.ok (some m), u) := by
  refine ⟨_, findRow_miss known miss built, fun depth' c' other here same => ?_⟩
  have led := World.course_grown.buildRow (World.grown_hooks depth).1
    ((World.grown_hooks depth).2.column c) key r.rows.factories w
  rw [built] at led
  obtain ⟨t, ht, _, _⟩ := led.registries known
  have stored : ((Registry.recordRow c key (some m)).run v).2.registries[c'.registry]? =
      some { t with rows := t.rows.store key m } := by
    rw [here]
    exact recordRow_keeps ht m
  exact findRow_hit stored (t.rows.cached_store m same)

/-- Every entry of a row cache was built by a scan after whose end nothing was registered. It was built
from the present factories if and only if the scan was undisturbed, and is then the mapper of the newest
one if that claims the type. A look-up keeps what it builds whatever is registered meanwhile, so that
the next look-ups find it. -/
theorem row_cache_origin {s : Schema} {w : World} (reached : Reached s w) {i : Nat} {r : Registry}
    (known : w.registries[i]? = some r) :
    (∀ key m, (key, m) ∈ r.rows.cache → ∃ scan : RowScan key m,
      Reached s scan.began ∧ scan.ended.Grown w ∧ r.rows.factories = scan.after.rows.factories ∧
      (scan.Undisturbed ↔ r.rows.factories = scan.before.rows.factories) ∧
      (∃ added, r.rows.factories = added ++ scan.before.rows.factories) ∧
      (scan.Undisturbed → ∀ f fs n v, r.rows.factories = f :: fs →
        (Registry.askRow (hooks scan.depth) scan.context key f).run scan.began = (.ok (some n), v) →
          m = n)) ∧
    ∀ depth c key m v, c.registry = i → r.rows.cached? key = none →
      (Registry.buildRow (hooks depth) c key r.rows.factories).run w = (.ok (some m), v) →
        ∃ u, (Registry.findRow (hooks depth) c key).run w = (.ok (some m), u) ∧
          ∀ depth' c' other, c'.registry = i → key.same other = true →
            (Registry.findRow (hooks depth') c' other).run u = (.ok (some m), u) := by
  constructor
  · intro key m kept
    have scanned := World.scanned_of_reached reached
    obtain ⟨scan, began, since, same⟩ := scanned r (List.mem_of_getElem? known) key m kept
    refine ⟨scan, began, since, same, by rw [RowScan.Undisturbed, same], ?_, ?_⟩
    · obtain ⟨added, grown, _⟩ := scan.registry_grown.1
      exact ⟨added, same.trans grown⟩
    · intro undisturbed f fs n v newest claims
      exact scan.first (undisturbed.symm.trans (same.symm.trans newest)) claims
  · rintro depth c key m v rfl miss built
    exact findRow_again known miss built

/-! A factory that registers another one for its own type while it builds. -/

def moneySchema : Schema := ⟨[⟨"Money", [.declared "Money"], none, .plain ⟨"Money", [], none⟩ none⟩]⟩

def money : TypeExpr := .cls (.declared "Money")

def constant (name : String) (form : MapperForm) : MapperSpec :=
  ⟨form, none, .const (.text name), none, none, .absent⟩

/-- The factory `old` registers the mapper `new` when it is first asked. -/
def renewing : List Command :=
  [.registerRow "main" (.factory (.custom "old" (.exact money) (constant "old" .object)
      [.registerRow "main" (.mapper (constant "new" .function)) (some money)])) none,
    .mapOne "main" money (.columns ["a"] [.int 1]),
    .mapOne "main" money (.columns ["a"] [.int 1])]

def newestOffers (w : World) (c : Context) (key : Descriptor) : Option RowMapper :=
  match (w.registries[c.registry]?).bind (·.rows.factories.head?) with
  | some f => ((Registry.askRow (hooks depth) c key f).run w).1.toOption.join
  | none => none

def rowFound (w : World) (c : Context) (key : Descriptor) : Option RowMapper :=
  ((Registry.findRow (hooks depth) c key).run w).1.toOption.join

/-- The newest factory claims the type, yet an older one's mapper is found for it. -/
theorem renewing_keeps_old :
    ∃ w, (Session.start moneySchema [] ⟨.fresh true, none, []⟩).toOption = some w ∧
      ∃ new, newestOffers (Session.after renewing w) ⟨0, 0, 0⟩ (.of money) = some new ∧
        ∃ old, rowFound (Session.after renewing w) ⟨0, 0, 0⟩ (.of money) = some old ∧
          (!new.sameAs old) = true := by
  have computed : ((Session.start moneySchema [] ⟨.fresh true, none, []⟩).toOption.any fun w =>
      (newestOffers (Session.after renewing w) ⟨0, 0, 0⟩ (.of money)).any fun new =>
        (rowFound (Session.after renewing w) ⟨0, 0, 0⟩ (.of money)).any fun old =>
          !new.sameAs old) = true := by decide +kernel
  simpa only [Option.any_eq_true] using computed

theorem row_cache_origin_renewing :
    ∃ w r key old, Reached moneySchema w ∧ w.registries[0]? = some r ∧ (key, old) ∈ r.rows.cache ∧
      ∃ scan : RowScan key old, r.rows.factories = scan.after.rows.factories ∧
        (scan.Undisturbed ↔ r.rows.factories = scan.before.rows.factories) := by
  have computed : ((Session.start moneySchema [] ⟨.fresh true, none, []⟩).toOption.any fun w =>
      ((Session.after renewing w).registries[0]?).any fun r => r.rows.cache.any fun _ => true) =
        true := by decide +kernel
  simp only [Option.any_eq_true, List.any_eq_true] at computed
  obtain ⟨w, started, r, known, ⟨key, old⟩, kept, _⟩ := computed
  have reached := Reached.after started renewing
  obtain ⟨scan, _, _, same, undisturbed, _⟩ := (row_cache_origin reached known).1 key old kept
  exact ⟨_, r, key, old, reached, known, kept, scan, same, undisturbed⟩

end RowMapping
