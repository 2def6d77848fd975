import RowMapping.Proofs.Session.Settles

/-! Look-ups in a context that has been used. Whatever was looked up before, with or without success, and
whatever was kept of it, a look-up comes to what the factories and the mappers kept at first come to. -/
namespace RowMapping

open MappingM

/-! ### A context in use -/

def Procedure.Direct {Mapper : Type} : Procedure Command Mapper → Prop
  | .answer _ | .raise _ => True
  | _ => False

def ColumnFactory.Direct : ColumnFactory → Prop
  | .written _ ask => ∀ key, (ask key).Direct
  | _ => True

def RowFactory.Direct : RowFactory → Prop
  | .written _ ask => ∀ key, (ask key).Direct
  | _ => True

structure Registry.Direct (r : Registry) : Prop where
  rows : ∀ f ∈ r.rows.factories, f.Direct
  columns : ∀ f ∈ r.columns.factories, f.Direct

def Ground.ComesColumn (g : Ground) (key : Descriptor) (m : ColumnMapper) : Prop :=
  ∃ k o, (g.solution k).column key = .ok o ∧ ColumnsFound g.fresh (some m) o

def Ground.ComesRow (g : Ground) (key : Descriptor) (m : RowMapper) : Prop :=
  ∃ k o, (g.solution k).row key = .ok o ∧ RowsFound g.fresh (some m) o

/-- The same factories, and mappers kept for at least the same types, each one that its type comes to. -/
structure Chain.Follows {Factory Mapper : Type} (comes : Descriptor → Mapper → Prop)
    (base c : Chain Factory Mapper) : Prop where
  factories : c.factories = base.factories
  kept : ∀ key, (base.cached? key).isSome → (c.cached? key).isSome
  comes : ∀ key m, c.cached? key = some m → comes key m

structure Registry.Follows (g : Ground) (r : Registry) : Prop where
  rows : g.registry.rows.Follows g.ComesRow r.rows
  columns : g.registry.columns.Follows g.ComesColumn r.columns

theorem Chain.Follows.store {Factory Mapper : Type} {comes : Descriptor → Mapper → Prop}
    {base c : Chain Factory Mapper} (follows : base.Follows comes c)
    (alike : ∀ d e m, d.Alike e → comes d m → comes e m) {key : Descriptor} {m : Mapper}
    (own : comes key m) : base.Follows comes (c.store key m) where
  factories := follows.factories
  kept other there := by
    cases same : key.same other with
    | true => rw [Chain.cached_store c m same]; rfl
    | false => rw [Chain.cached_store_other c m same]; exact follows.kept other there
  comes other found hit := by
    cases same : key.same other with
    | true =>
      rw [Chain.cached_store c m same] at hit
      cases hit
      exact alike key other m (.inr same) own
    | false =>
      rw [Chain.cached_store_other c m same] at hit
      exact follows.comes other found hit

namespace World

def registryOf (w : World) (c : Context) : Registry := (w.registries[c.registry]?).getD default

def ground (w : World) (c : Context) : Ground :=
  ⟨w.schema, w.registryOf c, fun cls => (w.tableFor c cls).isSome, w.next⟩

def Lists (w : World) (c : Context) (raw : RawType) (p : Property) : Prop :=
  ∃ t ∈ raw.class?.bind (w.tableFor c), p ∈ t.properties

/-- The second world is the first after the context was used: for look-ups and for mapping, not for
registrations. -/
structure Used (w : World) (c : Context) (u : World) : Prop where
  schema : u.schema = w.schema
  contexts : u.contexts = w.contexts
  settings : u.settings = w.settings
  next : w.next ≤ u.next
  tabled : w.Tabled w.next c c u
  registry : (u.registryOf c).Follows (w.ground c)
  children : ∃ made, u.children = w.children ++ made ∧
    ∀ e ∈ made, w.next ≤ e.serial ∧ w.Lists c e.parent.target e.property

end World

theorem Ground.comesColumn_alike {g : Ground} (pure : g.Pure) {d e : Descriptor} {m : ColumnMapper}
    (alike : d.Alike e) (own : g.ComesColumn d m) : g.ComesColumn e m := by
  obtain ⟨k, o, found, same⟩ := own
  have akin := (g.solution_uniform pure k).column d e alike
  rw [found] at akin
  rcases other : (g.solution k).column e with f | p <;> rw [other] at akin
  · contradiction
  · exact ⟨k, p, other, same.1.trans akin.1, same.2⟩

theorem Ground.comesRow_alike {g : Ground} (pure : g.Pure) {d e : Descriptor} {m : RowMapper}
    (alike : d.Alike e) (own : g.ComesRow d m) : g.ComesRow e m := by
  obtain ⟨k, o, found, same⟩ := own
  have akin := (g.solution_uniform pure k).row d e alike
  rw [found] at akin
  rcases other : (g.solution k).row e with f | p <;> rw [other] at akin
  · contradiction
  · exact ⟨k, p, other, same.1.trans akin.1, same.2⟩

namespace World

variable {w u v : World} {c : Context}

theorem Used.refl (pure : (w.ground c).Pure) : w.Used c w where
  schema := rfl
  contexts := rfl
  settings := rfl
  next := le_rfl
  tabled _ := .refl _
  registry := by
    refine ⟨⟨rfl, fun _ there => there, fun key m hit => ⟨1, some m, ?_, ?_⟩⟩,
      ⟨rfl, fun _ there => there, fun key m hit => ⟨1, some m, ?_, ?_⟩⟩⟩
    · show (w.ground c).rowAs _ key = _
      unfold Ground.rowAs
      rw [show (w.ground c).registry.rows.cached? key = some m from hit]
    · exact foundAs_some (.refl m) (Chain.cached_good pure.keptRows hit)
    · obtain ⟨raw, args, nullable⟩ := key
      show (w.ground c).columnAs _ (.mk raw args nullable) nullable = _
      unfold Ground.columnAs
      rw [show (w.ground c).registry.columns.cached? (.mk raw args nullable) = some m from hit]
    · exact foundAs_some (.refl m) (Chain.cached_good pure.keptColumns hit)
  children := ⟨[], (List.append_nil _).symm, nofun⟩

theorem Used.aside (used : w.Used c u) (rest : v = { u with
      children := v.children, calls := v.calls, claimed := v.claimed, next := v.next, saved := v.saved,
      reports := v.reports, log := v.log, loggers := v.loggers }) (next : u.next ≤ v.next)
    (children : ∃ made, v.children = u.children ++ made ∧
      ∀ e ∈ made, w.next ≤ e.serial ∧ w.Lists c e.parent.target e.property) : w.Used c v := by
  have schema : v.schema = u.schema := by rw [rest]
  have contexts : v.contexts = u.contexts := by rw [rest]
  have registries : v.registries = u.registries := by rw [rest]
  have tables : v.tables = u.tables := by rw [rest]
  have settings : v.settings = u.settings := by rw [rest]
  refine ⟨schema.trans used.schema, contexts.trans used.contexts, settings.trans used.settings,
    used.next.trans next, fun cls => ?_, ?_, ?_⟩
  · exact (used.tabled cls).trans (tabled_of_tables schema tables used.next (used.next.trans next) c cls)
  · rw [registryOf, registries]
    exact used.registry
  · obtain ⟨old, before, listed⟩ := used.children
    obtain ⟨new, after, listed'⟩ := children
    refine ⟨old ++ new, by rw [after, before, List.append_assoc], fun e member => ?_⟩
    rcases List.mem_append.mp member with member | member
    · exact listed e member
    · exact listed' e member

theorem Used.idle (used : w.Used c u) (idle : u.Idles v) : w.Used c v := by
  refine used.aside ?_ idle.next ⟨[], ?_, nofun⟩
  · rw [idle.rest]
  · rw [idle.rest, List.append_nil]

theorem Used.consulted (used : w.Used c u) (consulted : u.Consulted v) : w.Used c v := by
  have rest := consulted.rest
  refine ⟨?_, ?_, ?_, used.next.trans consulted.next, ?_, ?_, ?_⟩
  · rw [rest]; exact used.schema
  · rw [rest]; exact used.contexts
  · rw [rest]; exact used.settings
  · exact fun cls => (used.tabled cls).trans (consulted.tabled w.next used.next c cls)
  · rw [registryOf, rest]; exact used.registry
  · rw [rest]; exact used.children

theorem Used.changeRegistry (used : w.Used c u) {f : Registry → Registry}
    (keeps : ∀ r : Registry, r.Follows (w.ground c) → (f r).Follows (w.ground c)) :
    w.Used c ((changeRegistry c f).run u).2 := by
  refine ⟨used.schema, used.contexts, used.settings, used.next, used.tabled, ?_, used.children⟩
  show Registry.Follows _ (((u.registries.modify c.registry f)[c.registry]?).getD default)
  have old := used.registry
  rw [registryOf] at old
  rw [List.getElem?_modify_eq]
  cases present : u.registries[c.registry]? with
  | none => rw [present] at old; exact old
  | some r => rw [present] at old; exact keeps r old

end World

/-! ### Look-ups -/

structure Hooks.Settle (w : World) (c : Context) (l : Prop) (h : Hooks) : Prop where
  performs : h.perform [] = pure ()
  column : l → ∀ key, Settles (w.Used c) l (ColumnsFound w.next) (h.findColumn c key)
    fun k => ((w.ground c).solution k).column key
  row : l → ∀ key, Settles (w.Used c) l (RowsFound w.next) (h.findRow c key)
    fun k => ((w.ground c).solution k).row key

/-- How the type of the items is resolved: not at all on both sides, or to the same. -/
inductive ItemsSettle (w : World) (c : Context) (l : Prop) :
    Option (MappingM (Option ColumnMapper)) → (Nat → Option (Except Failure (Option ColumnMapper))) → Prop
  | none : ItemsSettle w c l none fun _ => none
  | some {x : MappingM (Option ColumnMapper)} {come : Nat → Except Failure (Option ColumnMapper)} :
      Deepens come → Settles (w.Used c) l (ColumnsFound w.next) x come →
        ItemsSettle w c l (some x) fun k => some (come k)

section Lookups

variable {w : World} {c : Context} {l : Prop} {h : Hooks}

theorem deepens_column (g : Ground) (key : Descriptor) : Deepens fun k => (g.solution k).column key :=
  fun le => (g.solution_within le).column key

theorem deepens_row (g : Ground) (key : Descriptor) : Deepens fun k => (g.solution k).row key :=
  fun le => (g.solution_within le).row key

theorem used_log (level : LogLevel) (logger : Logger) (text : String) {u : World} (used : w.Used c u) :
    w.Used c ((log level logger text).run u).2 := used.idle (World.idles_log level logger text u)

theorem settles_scalarOf (origin : Nat) (key : Descriptor) :
    Settles (w.Used c) l (ColumnsFound w.next) (Registry.scalarOf origin key)
      fun _ => .ok (scalarFor w.schema origin key) := by
  refine .of_run fun u used => ⟨scalarFor w.schema origin key, u, ?_, used,
    Ground.foundAs_scalar w.schema w.next origin (.refl key)⟩
  unfold Registry.scalarOf scalarFor
  cases key.raw with
  | cls cls =>
    dsimp only
    rw [run_bind_ok (run_get u), used.schema]
    split <;> rfl
  | _ => rfl

theorem settles_arrayFrom (container : Builtin) {o p : Option ColumnMapper}
    (found : ColumnsFound w.next o p) :
    Settles (w.Used c) l (ColumnsFound w.next) (Registry.arrayFrom container o)
      fun _ => .ok ((w.ground c).arrayWith container p) := by
  rcases found.cases with ⟨rfl, rfl⟩ | ⟨m, m', rfl, rfl, twins, _⟩
  · exact .pure foundAs_none
  · cases m <;> cases m' <;> try cases twins
    case value.value origin target origin' target' =>
      obtain ⟨origins, rfl⟩ := ColumnMapper.value.inj twins
      refine .of_run fun u used => ⟨_, _, rfl, used.idle ⟨rfl, Nat.le_succ _⟩, foundAs_some ?_ trivial⟩
      show ColumnMapper.array _ _ _ _ = ColumnMapper.array (min w.next w.next) _ _ _
      rw [min_eq_right used.next, min_self, origins]
    all_goals exact .pure foundAs_none

theorem settles_arrayOf (key : Descriptor) {element : Option (MappingM (Option ColumnMapper))}
    {come : Nat → Option (Except Failure (Option ColumnMapper))} (items : ItemsSettle w c l element come) :
    Settles (w.Used c) l (ColumnsFound w.next) (Registry.arrayOf key element)
      fun k => (w.ground c).arrayFor key (come k) := by
  unfold Registry.arrayOf Ground.arrayFor
  cases Registry.container? key with
  | none => cases items <;> exact .pure foundAs_none
  | some container =>
    cases items with
    | none => exact .pure foundAs_none
    | some deepens settles => exact settles.map deepens fun _ _ => settles_arrayFrom container

theorem settles_reflectiveFor (targets : Option (List RawType)) (lead : String) (key : Descriptor) :
    Settles (w.Used c) l (FoundTwins w.next) (Registry.reflectiveFor c targets lead key)
      fun _ => (w.ground c).reflectiveFor targets lead key := by
  unfold Registry.reflectiveFor Ground.reflectiveFor
  by_cases wanted : targets.all (fun ts => ts.any key.raw.same) = true
  · simp only [if_pos wanted]
    refine .of_outcome (by split <;> [nofun; (split <;> nofun)]) fun u used => ?_
    obtain ⟨v, looked, consulted⟩ := run_table_for c key.raw u
    have still := used.consulted consulted
    have described : (key.raw.class?.bind (u.tableFor c)).isSome =
        key.raw.class?.any (w.ground c).described := by
      cases key.raw.class? with
      | none => rfl
      | some cls => exact (used.tabled cls).isSome_eq.symm
    have schema : (w.ground c).schema = u.schema := used.schema.symm
    rw [← described, schema]
    unfold World.consult at looked
    cases own : key.raw.class?.bind (u.tableFor c) with
    | some t =>
      rw [own] at looked
      rw [run_bind_ok looked]
      refine ⟨still.idle ⟨rfl, Nat.le_succ _⟩, foundTwins_some ?_⟩
      show ReflectiveMapper.mk _ _ _ = ReflectiveMapper.mk (min w.next w.next) _ _
      rw [min_eq_right still.next, min_self]
    | none =>
      rw [own] at looked
      cases obscure : key.raw.class?.any u.schema.obscure <;> rw [obscure] at looked
      · rw [run_bind_ok looked]
        exact ⟨still, FoundTwins.refl none⟩
      · rw [run_bind_error looked]
        exact ⟨still, rfl⟩
  · simp only [if_neg wanted]
    exact .pure (.refl _)

theorem settles_reflective {α : Type} [Serial α] {good : α → Prop} {made : ReflectiveMapper → α}
    (twins : ∀ m m', Twins w.next m m' → Twins w.next (made m) (made m')) (own : ∀ m, good (made m))
    (targets : Option (List RawType)) (lead : String) (key : Descriptor) :
    Settles (w.Used c) l (FoundAs w.next good)
      (do return (← Registry.reflectiveFor c targets lead key).map made)
      fun _ => ((w.ground c).reflectiveFor targets lead key).map (Option.map made) := by
  refine (settles_reflectiveFor targets lead key).map (fun _ => .refl _) fun o p found => .pure ?_
  rcases found.cases with ⟨rfl, rfl⟩ | ⟨m, m', rfl, rfl, same⟩
  · exact foundAs_none
  · exact foundAs_some (twins m m' same) (own m)

theorem settles_custom (performs : h.perform [] = pure ()) {f : CustomFactory}
    (matched : f.Matched .exact w.next f) {α : Type} [Serial α] {good : α → Prop} {made : CustomMapper → α}
    (own : good (made f.mapper)) (key : Descriptor) :
    Settles (w.Used c) l (FoundAs w.next good) (do return (← Registry.askCustom h f key).map made)
      fun _ => .ok (if f.claims key then some (made f.mapper) else none) := by
  refine .of_run fun u used => ?_
  obtain ⟨v, ran, idle⟩ := Abreast.run_askCustom performs matched.silent.1 key u
  rw [run_bind_ok ran]
  refine ⟨_, v, rfl, used.idle idle, ?_⟩
  split
  · exact foundAs_some (.refl _) own
  · exact foundAs_none

theorem settles_follow (settle : h.Settle w c l) {Mapper : Type} [Serial Mapper] {good : Mapper → Prop}
    {p q : Procedure Command Mapper} (matched : p.Matched .exact w.next good q) (direct : l ∨ p.Direct) :
    Settles (w.Used c) l (FoundAs w.next good) (Registry.follow h c p)
      fun k => q.told ((w.ground c).solution k) := by
  induction matched with
  | answer found => exact .pure found
  | @raise r _ raised =>
    obtain rfl : r = _ := raised
    exact .throw nofun
  | @column key _ _ _ keys _ ih =>
    obtain rfl : key = _ := keys
    have allowed : l := direct.resolve_right id
    exact (settle.column allowed key).bind (deepens_column _ key)
      (fun b _ _ le => Procedure.told_within ((w.ground c).solution_within le) _)
      fun a b found _ => ih a b found (.inl allowed)
  | @row key _ _ _ keys _ ih =>
    obtain rfl : key = _ := keys
    have allowed : l := direct.resolve_right id
    exact (settle.row allowed key).bind (deepens_row _ key)
      (fun b _ _ le => Procedure.told_within ((w.ground c).solution_within le) _)
      fun a b found _ => ih a b found (.inl allowed)

theorem settles_askColumn (settle : h.Settle w c l) {f : ColumnFactory}
    (matched : f.Matched .exact w.next f) (direct : l ∨ f.Direct) (key : Descriptor)
    {element : Option (MappingM (Option ColumnMapper))}
    {come : Nat → Option (Except Failure (Option ColumnMapper))} (items : ItemsSettle w c l element come) :
    Settles (w.Used c) l (ColumnsFound w.next) (Registry.askColumn h c key element f)
      fun k => (w.ground c).askColumn ((w.ground c).solution k) key (come k) f := by
  cases matched with
  | scalars => exact settles_scalarOf _ key
  | arrays => exact settles_arrayOf key items
  | fixed target _ own => exact .pure (Ground.foundAs_fixed own target (.refl key))
  | custom matched => exact settles_custom settle.performs matched matched.stateless key
  | written name asks =>
    exact settles_follow settle (asks key key rfl) (direct.imp_right fun direct => direct key)
  | reflective targets lead =>
    refine settles_reflective ?_ (fun _ => trivial) targets lead key
    exact fun _ _ => congrArg ColumnMapper.misplaced

/-! ### Keeping what was found -/

section Keeping

variable {u : World} (used : w.Used c u)
include used

theorem used_recordColumn (pure : (w.ground c).Pure) (generation : Nat) {key : Descriptor}
    {found : Option ColumnMapper} (comes : ∀ m ∈ found, (w.ground c).ComesColumn key m) :
    w.Used c ((Registry.recordColumn c generation key found).run u).2 := by
  cases found with
  | none => exact used_log _ _ _ used
  | some m =>
    refine used_log _ _ _ (used.changeRegistry fun r follows => ?_)
    split
    · refine ⟨follows.rows, follows.columns.store ?_ (comes m rfl)⟩
      exact fun _ _ _ alike => Ground.comesColumn_alike pure alike
    · exact follows

theorem used_recordRow (pure : (w.ground c).Pure) {key : Descriptor} {found : Option RowMapper}
    (comes : ∀ m ∈ found, (w.ground c).ComesRow key m) :
    w.Used c ((Registry.recordRow c key found).run u).2 := by
  cases found with
  | none => exact used_log _ _ _ used
  | some m =>
    refine used_log _ _ _ (used.changeRegistry fun r follows => ⟨follows.rows.store ?_ (comes m rfl), follows.columns⟩)
    exact fun _ _ _ alike => Ground.comesRow_alike pure alike

end Keeping

/-! ### Resolving -/

theorem settled_kept {α : Type} [Serial α] {n : Nat} {good : α → Prop}
    {come : Nat → Except Failure (Option α)} {m : α}
    (comes : ∃ k o, come k = .ok o ∧ FoundAs n good (some m) o) :
    ∃ k, come k ≠ .error .exhausted ∧ Outcomes (FoundAs n good) (.ok (some m)) (come k) := by
  obtain ⟨k, o, found, same⟩ := comes
  refine ⟨k, ?_, ?_⟩ <;> rw [found]
  · exact nofun
  · exact same

theorem Chain.Follows.missing {Factory Mapper : Type} {comes : Descriptor → Mapper → Prop}
    {base chain : Chain Factory Mapper} (follows : base.Follows comes chain) {key : Descriptor}
    (missing : chain.cached? key = none) : base.cached? key = none := by
  by_contra there
  have kept := follows.kept key (Option.isSome_iff_ne_none.mpr there)
  rw [missing] at kept
  contradiction

theorem deepens_columnAs (g : Ground) (key : Descriptor) (nullable : Bool) :
    Deepens fun k => g.columnAs (g.solution k) key nullable :=
  fun le => Ground.columnAs_within (g.solution_within le) key nullable

theorem Ground.solution_column (g : Ground) (k : Nat) (key : Descriptor) (nullable : Bool) :
    (g.solution (k + 1)).column (.mk key.raw key.args nullable) = g.columnAs (g.solution k) key nullable := by
  obtain ⟨raw, args, admitted⟩ := key
  show g.columnAs _ (.mk raw args nullable) nullable = g.columnAs _ (.mk raw args admitted) nullable
  unfold Ground.columnAs
  rfl

section Resolving

variable (pure : (w.ground c).Pure) (direct : l ∨ (w.registryOf c).Direct) (settle : h.Settle w c l)
include pure direct settle

omit pure direct settle in
theorem items_of {args : List Descriptor}
    (columns : ∀ d ∈ args, Settles (w.Used c) l (ColumnsFound w.next) (Registry.findColumnAs h c d true)
      fun k => (w.ground c).columnAs ((w.ground c).solution k) d true) :
    ItemsSettle w c l (Registry.findElement h c args)
      fun k => (w.ground c).element ((w.ground c).solution k) args := by
  cases args with
  | nil => exact .none
  | cons d _ => exact .some (deepens_columnAs _ d true) (columns d List.mem_cons_self)

theorem settles_findColumnAs (key : Descriptor) (nullable : Bool) :
    Settles (w.Used c) l (ColumnsFound w.next) (Registry.findColumnAs h c key nullable)
      fun k => (w.ground c).columnAs ((w.ground c).solution k) key nullable := by
  induction key using Descriptor.induct_args generalizing nullable with
  | step key ih =>
  obtain ⟨raw, args, admitted⟩ := key
  -- On the items, which are looked up with the same hooks.
  have items := items_of (h := h) (l := l) fun d member => ih d member true
  have deeper : ∀ f : ColumnFactory, Deepens fun k => (w.ground c).askColumn ((w.ground c).solution k)
      (.mk raw args nullable) ((w.ground c).element ((w.ground c).solution k) args) f := fun f _ _ le =>
    Ground.askColumn_within ((w.ground c).solution_within le) _
      (Ground.element_within ((w.ground c).solution_within le) args) f
  have scanned : Settles (w.Used c) l (ColumnsFound w.next)
      (Chain.scan (Registry.askColumn h c (.mk raw args nullable) (Registry.findElement h c args))
        (w.registryOf c).columns.factories)
      fun k => Chain.scan ((w.ground c).askColumn ((w.ground c).solution k) (.mk raw args nullable)
        ((w.ground c).element ((w.ground c).solution k) args)) (w.registryOf c).columns.factories :=
    .scan (fun _ _ found => found.1.isSome_eq) foundAs_none deeper fun f member =>
      settles_askColumn settle (pure.columns f member).1
        (direct.imp_right fun direct => direct.columns f member) _ items
  intro u used
  have follows := used.registry.columns
  unfold Registry.findColumnAs Registry.resolveColumn
  rw [run_bind_ok (x := registry c) (a := u.registryOf c) (v := u) rfl]
  dsimp only
  cases hit : (u.registryOf c).columns.cached? (.mk raw args nullable) with
  | some m =>
    refine ⟨used, .inr (settled_kept ?_)⟩
    -- What is kept was come to one level above the look-up itself.
    obtain ⟨k, o, found, same⟩ := follows.comes _ m hit
    cases k with
    | zero => contradiction
    | succ k => exact ⟨k, o, ((w.ground c).solution_column k (.mk raw args admitted) nullable).symm.trans found, same⟩
  | none =>
    have resolved : ∀ k, (w.ground c).columnAs ((w.ground c).solution k) (.mk raw args admitted) nullable =
        Chain.scan ((w.ground c).askColumn ((w.ground c).solution k) (.mk raw args nullable)
          ((w.ground c).element ((w.ground c).solution k) args)) (w.registryOf c).columns.factories := by
      intro k
      unfold Ground.columnAs
      rw [show (w.ground c).registry.columns.cached? _ = none from follows.missing hit]
      rfl
    rw [show (u.registryOf c).columns.factories = (w.registryOf c).columns.factories from follows.factories]
    simp only [resolved]
    refine scanned.keeping (fun le => .scan fun f _ => deeper f le) (fun a b k same found v still => ?_) u used
    refine ⟨by cases a <;> rfl, used_recordColumn still pure _ fun m known => ⟨k + 1, b, ?_, known ▸ same⟩⟩
    exact ((w.ground c).solution_column k (.mk raw args admitted) nullable).trans ((resolved k).trans found)

theorem settles_findColumn (key : Descriptor) :
    Settles (w.Used c) l (ColumnsFound w.next) (Registry.findColumn h c key)
      fun k => ((w.ground c).solution k).column key :=
  (Settles.shift_iff (fun k => ((w.ground c).solution k).column key) rfl).mp
    (settles_findColumnAs pure direct settle key key.nullable)

theorem items_settle (args : List Descriptor) : ItemsSettle w c l (Registry.findElement h c args)
    fun k => (w.ground c).element ((w.ground c).solution k) args :=
  items_of fun d _ => settles_findColumnAs pure direct settle d true

theorem settles_askRow {f : RowFactory} (matched : f.Matched .exact w.next f) (plain : l ∨ f.Direct)
    (key : Descriptor) :
    Settles (w.Used c) l (RowsFound w.next) (Registry.askRow h c key f)
      fun k => (w.ground c).askRow ((w.ground c).solution k) key f := by
  have items := items_settle pure direct settle key.args
  cases matched with
  | reflective targets lead =>
    refine settles_reflective ?_ (fun _ => trivial) targets lead key
    exact fun _ _ => congrArg RowMapper.reflective
  | fixed target _ own => exact .pure (Ground.foundAs_fixed own target (.refl key))
  | custom matched => exact settles_custom settle.performs matched matched.stateless key
  | written name asks => exact settles_follow settle (asks key key rfl) (plain.imp_right fun direct => direct key)
  | scalars =>
    exact (settles_scalarOf _ key).map (fun _ => .refl _) fun _ _ found => .pure (Abreast.misplaced found)
  | arrays =>
    refine (settles_arrayOf key items).map (fun le => ?_) fun _ _ found => .pure (Abreast.misplaced found)
    exact Ground.arrayFor_within key (Ground.element_within ((w.ground c).solution_within le) key.args)

theorem settles_singleFor (key : Descriptor) :
    Settles (w.Used c) l (RowsFound w.next) (Registry.singleFor h c key)
      fun k => (w.ground c).singleFor ((w.ground c).solution k) key := by
  refine (settles_findColumnAs pure direct settle key key.nullable).map
    (deepens_columnAs _ key key.nullable) fun o p found => ?_
  rcases found.cases with ⟨rfl, rfl⟩ | ⟨m, m', rfl, rfl, twins, own⟩
  · exact .pure foundAs_none
  · refine .of_run fun u used => ⟨_, _, rfl, used.idle ⟨rfl, Nat.le_succ _⟩, foundAs_some ?_ own⟩
    have same : Serial.upTo w.next m = Serial.upTo w.next m' := twins
    show RowMapper.single _ (Serial.upTo w.next m) _ = RowMapper.single (min w.next w.next) _ _
    rw [min_eq_right used.next, min_self, same]

theorem settles_buildRow (key : Descriptor) :
    Settles (w.Used c) l (RowsFound w.next) (Registry.buildRow h c key (w.registryOf c).rows.factories)
      fun k => (w.ground c).buildRow ((w.ground c).solution k) key := by
  have scanned : Settles (w.Used c) l (RowsFound w.next)
      (Chain.scan (Registry.askRow h c key) (w.registryOf c).rows.factories)
      fun k => Chain.scan ((w.ground c).askRow ((w.ground c).solution k) key) (w.registryOf c).rows.factories :=
    .scan (fun _ _ found => found.1.isSome_eq) foundAs_none
      (fun f _ _ le => Ground.askRow_within ((w.ground c).solution_within le) key f) fun f member =>
      settles_askRow pure direct settle (pure.rows f member).1
        (direct.imp_right fun direct => direct.rows f member) key
  refine scanned.bind (fun le => .scan fun f _ => Ground.askRow_within ((w.ground c).solution_within le) key f)
    (fun b _ _ le => ?_) fun o p found _ => ?_
  · cases b with
    | none => exact Ground.singleFor_within ((w.ground c).solution_within le) key
    | some m => exact .refl _
  · rcases found.cases with ⟨rfl, rfl⟩ | ⟨m, m', rfl, rfl, twins, own⟩
    · exact settles_singleFor pure direct settle key
    · exact .pure (foundAs_some twins own)

theorem settles_findRow (key : Descriptor) :
    Settles (w.Used c) l (RowsFound w.next) (Registry.findRow h c key)
      fun k => ((w.ground c).solution k).row key := by
  intro u used
  have follows := used.registry.rows
  unfold Registry.findRow
  rw [run_bind_ok (x := registry c) (a := u.registryOf c) (v := u) rfl]
  dsimp only
  cases hit : (u.registryOf c).rows.cached? key with
  | some m => exact ⟨used, .inr (settled_kept (follows.comes _ m hit))⟩
  | none =>
    have resolved : ∀ k, ((w.ground c).solution (k + 1)).row key =
        (w.ground c).buildRow ((w.ground c).solution k) key := by
      intro k
      show (w.ground c).rowAs _ key = _
      unfold Ground.rowAs
      rw [show (w.ground c).registry.rows.cached? _ = none from follows.missing hit]
    rw [show (u.registryOf c).rows.factories = (w.registryOf c).rows.factories from follows.factories]
    refine (Settles.shift_iff (fun k => ((w.ground c).solution k).row key) rfl).mp ?_ u used
    simp only [resolved]
    refine (settles_buildRow pure direct settle key).keeping
      (fun le => Ground.buildRow_within ((w.ground c).solution_within le) key) fun a b k same found v still => ?_
    refine ⟨by cases a <;> rfl, used_recordRow still pure fun m known => ⟨k + 1, b, ?_, known ▸ same⟩⟩
    exact (resolved k).trans found

end Resolving

end Lookups

/-- In a context of pure factories look-ups come to what its ground comes to, at every depth. -/
theorem hooks_settle {w : World} {c : Context} {l : Prop} (pure : (w.ground c).Pure)
    (direct : l ∨ (w.registryOf c).Direct) (depth : Nat) : (Session.hooks depth).Settle w c l := by
  induction depth with
  | zero => exact ⟨rfl, fun allowed _ => .exhausted allowed, fun allowed _ => .exhausted allowed⟩
  | succ depth ih =>
    exact ⟨rfl, fun _ => settles_findColumn pure direct ih, fun _ => settles_findRow pure direct ih⟩

end RowMapping
