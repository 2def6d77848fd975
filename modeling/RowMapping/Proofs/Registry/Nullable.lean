import RowMapping.Proofs.Registry.ColumnCache
import RowMapping.Proofs.Registry.Stocked
import RowMapping.Proofs.Types.Nullable

/-! Types and their nullable forms in look-ups of columns. Plain factories answer for both alike, whatever mappers
were registered, and a mapper that is registered for either serves properties of the other. -/
namespace RowMapping

open MappingM ReflectiveMapper

/-! ### What plain factories come to -/

section Plain

variable {s : Schema} {fs : List ColumnFactory} {d e : Descriptor}

theorem Descriptor.Respelled.boxed (respelled : d.Respelled e) : d.boxed.Respelled e.boxed := by
  obtain ⟨raw, args, _⟩ := respelled
  cases d
  cases e
  exact ⟨raw, args, rfl⟩

theorem scan_congr {Factory Mapper : Type} {ask answer : Factory → Option (Option Mapper)} {fs : List Factory}
    (same : ∀ f ∈ fs, ask f = answer f) : Chain.scan ask fs = Chain.scan answer fs := by
  induction fs with
  | nil => rfl
  | cons f fs ih =>
    have rest := ih fun g member => same g (List.mem_cons_of_mem _ member)
    simp only [Chain.scan, same f List.mem_cons_self, rest]

/-- A plain factory asks neither whether null is admitted nor how a union is spelled. -/
theorem answer_shared {f : ColumnFactory} (plain : f.isPlain = true) (shared : d.boxed.Respelled e.boxed)
    (look : Oracle) (element : Option Finding) :
    f.answer s look d element = f.answer s look e element := by
  obtain ⟨raw, args, a⟩ := d
  obtain ⟨raw', args', b⟩ := e
  have same : args = args' := shared.args
  subst same
  cases f with
  | scalars origin =>
    obtain rfl | ⟨_, _, _, rfl, rfl⟩ : raw.Respelled raw' := shared.raw
    · rfl
    · rfl
  | arrays =>
    obtain rfl | ⟨_, _, _, rfl, rfl⟩ : raw.Respelled raw' := shared.raw
    · rfl
    · rfl
  | fixed target mapper => simp only [ColumnFactory.answer, shared.same_left]
  | custom | written | reflective => contradiction

theorem builtFor_shared (plain : ∀ f ∈ fs, f.isPlain = true) (shared : d.boxed.Respelled e.boxed) (m n : Bool) :
    builtFor s fs d m = builtFor s fs e n := by
  obtain ⟨raw, args, a⟩ := d
  obtain ⟨raw', args', b⟩ := e
  have same : args = args' := shared.args
  subst same
  have admitted : (Descriptor.mk raw args m).boxed.Respelled (Descriptor.mk raw' args n).boxed := shared
  exact scan_congr fun f member => answer_shared (plain f member) admitted _ _

theorem builtFor_fixed {target : Descriptor} {m : ColumnMapper} (same : d.boxed.same target = true) (nullable : Bool) :
    builtFor s (.fixed target m :: fs) d nullable = some (some m) := by
  obtain ⟨raw, args, a⟩ := d
  have boxed : (Descriptor.mk raw args nullable).boxed.same target = true := same
  simp only [builtFor, findingAs, Chain.scan, ColumnFactory.answer, boxed]
  rfl

end Plain

/-! ### Look-ups of both -/

/-- Both types are found, by mappers that behave the same, or neither is; and so it is when one is looked up after
the other. -/
def SharesMapper (h : Hooks) (c : Context) (w : World) (d e : Descriptor) : Prop :=
  ∃ x y u v, (Registry.findColumn h c d).run w = (.ok x, u) ∧ (Registry.findColumn h c e).run w = (.ok y, v) ∧
    Option.Rel ColumnMapper.Behaves x y ∧
    (∃ y' v', (Registry.findColumn h c e).run u = (.ok y', v') ∧ Option.Rel ColumnMapper.Behaves x y') ∧
    ∃ x' u', (Registry.findColumn h c d).run v = (.ok x', u') ∧ Option.Rel ColumnMapper.Behaves x' y

/-- Wherever the property has a column, planning has it read by the mapper. -/
def Property.ServedBy (p : Property) (h : Hooks) (c : Context) (w : World) (mapper : ColumnMapper) : Prop :=
  ∀ (chain : MatcherChain) (columns : List String) (m : ReflectiveMapper) (owner : String) (index : Nat)
    (unread : List String), m.typeName = .ok owner →
      chain.find (m.lead ++ p.columnName) columns (some (owner ++ "." ++ p.name)) = .ok (some index) →
        ∃ v, ((planColumn ⟨h, c, columns, chain⟩ m p).run unread).run w =
          (.ok (some (p, .column mapper index), unread.erase ((columns[index]?).getD "")), v)

section Shared

variable {s : Schema} {fs : List ColumnFactory} {c : Context} {h : Hooks} {w : World} {d e : Descriptor}

theorem FoundAlike.join {Mapper : Type} [Numbered Mapper] {x y p : Option Mapper} (first : FoundAlike x p)
    (second : FoundAlike y p) : FoundAlike x y := Eq.trans first (Eq.symm second)

theorem shares_of_stocked (plain : ∀ f ∈ fs, f.isPlain = true) (stocked : w.Stocked s fs c.registry)
    (shared : d.boxed.Respelled e.boxed) : SharesMapper h c w d e := by
  have first := supplies_of_plain (s := s) plain h c d d.nullable
  have second := supplies_of_plain (s := s) plain h c e e.nullable
  rw [builtFor_shared plain shared d.nullable e.nullable] at first
  obtain ⟨x, p, u, ranX, built, alikeX, stockedU, _⟩ := first w stocked
  obtain ⟨y, q, v, ranY, built', alikeY, stockedV, _⟩ := second w stocked
  obtain ⟨y', q', v', ranY', built'', alikeY', _⟩ := second u stockedU
  obtain ⟨x', p', u', ranX', built''', alikeX', _⟩ := first v stockedV
  cases built.symm.trans built'
  cases built.symm.trans built''
  cases built.symm.trans built'''
  exact ⟨x, y, u, v, ranX, ranY, (alikeX.join alikeY).behaves, ⟨y', v', ranY', (alikeX.join alikeY').behaves⟩,
    x', u', ranX', (alikeX'.join alikeY).behaves⟩

theorem planColumn_served {p : Property} {mapper : ColumnMapper} {u : World}
    (found : (Registry.findColumn h c p.type.boxed).run w = (.ok (some mapper), u)) : p.ServedBy h c w mapper := by
  intro chain columns m owner index unread named placed
  have name : ((liftM m.typeName : Planning String).run unread).run w = (.ok (owner, unread), w) := by
    rw [named]
    rfl
  have place : ((liftM (chain.find (m.lead ++ p.columnName) columns (some (owner ++ "." ++ p.name))) :
      Planning (Option Nat)).run unread).run w = (.ok (some index, unread), w) := by
    rw [placed]
    rfl
  have looked : ((liftM (Registry.findColumn h c p.type.boxed) : Planning (Option ColumnMapper)).run unread).run w =
      (.ok (some mapper, unread), u) := run_bind_ok found
  refine ⟨u, ?_⟩
  unfold planColumn
  rw [StateT.run_bind, run_bind_ok name]
  dsimp only
  rw [StateT.run_bind, run_bind_ok place]
  dsimp only
  rw [StateT.run_bind, run_bind_ok looked]
  rfl

theorem run_registerMapper (c : Context) (spec : MapperSpec) (own : TypeExpr) (w : World) :
    ∃ v, (Session.registerColumn c (.mapper spec) (some own)).run w = (.ok (), v) ∧ v.schema = w.schema ∧
      v.registries = w.registries.modify c.registry
        (·.registerColumn (.fixed (Descriptor.of own).boxed (.custom ⟨w.next, 0, true, spec⟩))) := by
  refine ⟨_, Prod.ext rfl rfl, ?_, ?_⟩
  · show World.schema (if _ then _ else _) = _
    split <;> rfl
  · show World.registries (if _ then _ else _) = _
    split <;> rfl

theorem Alike.custom {m : ColumnMapper} {f : CustomMapper} (alike : Alike m (.custom f)) : m = .custom f := by
  cases m with
  | custom => exact alike
  | value | array | raw | misplaced => contradiction

theorem served_of_registered {r : Registry} (reached : Reached s w) (known : w.registries[c.registry]? = some r)
    (plain : ∀ f ∈ r.columns.factories, f.isPlain = true) (h : Hooks) (spec : MapperSpec) (own : TypeExpr) :
    ∃ v m, (Session.registerColumn c (.mapper spec) (some own)).run w = (.ok (), v) ∧ m.spec = spec ∧
      ∀ p : Property, p.type.boxed.same (Descriptor.of own).boxed = true → p.ServedBy h c v (.custom m) := by
  obtain ⟨v, ran, _, registries⟩ := run_registerMapper c spec own w
  refine ⟨v, ⟨w.next, 0, true, spec⟩, ran, rfl, fun p same => ?_⟩
  have reachedV : Reached s v := by
    have led := reached.onward (Onward.course.registerColumn c (.mapper spec) (some own) w)
    rw [ran] at led
    exact led
  have knownV : v.registries[c.registry]? =
      some (r.registerColumn (.fixed (Descriptor.of own).boxed (.custom ⟨w.next, 0, true, spec⟩))) := by
    rw [registries, List.getElem?_modify_eq, known]
    rfl
  have plainV : ∀ f ∈ (r.registerColumn (.fixed (Descriptor.of own).boxed
      (.custom ⟨w.next, 0, true, spec⟩))).columns.factories, f.isPlain = true := by
    intro f member
    rcases List.mem_cons.mp member with rfl | old
    · rfl
    · exact plain f old
  have stocked := World.stocked_of_plain (World.coherent_of_reached reachedV) knownV plainV
  obtain ⟨o, q, u, looked, built, alike, _⟩ :=
    supplies_of_plain plainV h c p.type.boxed p.type.boxed.nullable v stocked
  have boxed : p.type.boxed.boxed.same (Descriptor.of own).boxed = true := by
    rw [Descriptor.boxed_boxed]
    exact same
  cases built.symm.trans (builtFor_fixed boxed _)
  obtain ⟨m, rfl, one⟩ := foundAlike_some alike
  cases one.custom
  exact planColumn_served looked

end Shared

/-- A type admits null with the boxed descriptor of the type if and only if it is no union without null; for such a
union the two are different keys. For every other type no comparison of keys tells the two apart, and in every
registry of plain factories that a session comes to, look-ups of both find what behaves the same, and a mapper that
is registered for either serves every property of either, if the type is the same as itself. -/
theorem nullable_shares_mapper {t n : TypeExpr} (flat : t.Flat) (proper : t.isNone = false) (form : t.Admitting n) :
    ((Descriptor.of n).Respelled (Descriptor.of t).boxed ↔ t.isSolid = false) ∧
    (t.isSolid = true → (Descriptor.of n).same (Descriptor.of t).boxed = false) ∧
    (t.isSolid = false → (∀ key : Descriptor, (Descriptor.of n).same key = (Descriptor.of t).boxed.same key ∧
        key.same (.of n) = key.same (Descriptor.of t).boxed) ∧
      ∀ {s : Schema} {w : World}, Reached s w → ∀ {c : Context} {r : Registry},
      w.registries[c.registry]? = some r → (∀ f ∈ r.columns.factories, f.isPlain = true) → ∀ h : Hooks,
        SharesMapper h c w (.of t) (.of n) ∧
        ∀ spec own, own = t ∨ own = n →
          ∃ v m, (Session.registerColumn c (.mapper spec) (some own)).run w = (.ok (), v) ∧ m.spec = spec ∧
            ∀ other, other = t ∨ other = n → ∀ p : Property, p.type = .of other →
              (Descriptor.of t).same (.of t) = true → p.ServedBy h c v (.custom m)) := by
  refine ⟨⟨fun respelled => ?_, fun hollow => Descriptor.of_admitting flat proper hollow form⟩,
    fun solid => (Descriptor.of_admitting_solid flat solid form).1, ?_⟩
  · by_contra solid
    exact (Descriptor.of_admitting_solid flat (by simpa using solid) form).2 respelled
  · intro hollow
    have respelled := Descriptor.of_admitting flat proper hollow form
    refine ⟨fun key => ⟨respelled.same_left key, respelled.same_right key⟩, ?_⟩
    intro s w reached c r known plain h
    have spelled : ∀ x, x = t ∨ x = n → (Descriptor.of x).boxed.Respelled (Descriptor.of t).boxed := by
      rintro x (rfl | rfl)
      · exact .refl _
      · have boxed := respelled.boxed
        rw [Descriptor.boxed_boxed] at boxed
        exact boxed
    refine ⟨?_, fun spec own written => ?_⟩
    · have stocked := World.stocked_of_plain (World.coherent_of_reached reached) known plain
      exact shares_of_stocked plain stocked (spelled n (.inr rfl)).symm
    · obtain ⟨v, m, ran, made, serves⟩ := served_of_registered reached known plain h spec own
      refine ⟨v, m, ran, made, fun other declared p type itself => serves p ?_⟩
      rw [type, (spelled other declared).same_left, (spelled own written).same_right]
      exact Descriptor.same_boxed itself

def numberOrText : TypeExpr := .bar (.cls (.builtin .int)) (.cls (.builtin .text))

def numberTextOrNull : TypeExpr := numberOrText.bar .none

def exclaiming : MapperSpec := ⟨.object, some "shout", .const (.text "!"), none, none, .absent⟩

theorem numberTextOrNull_flat : numberTextOrNull.Flat := by
  have alternatives : ∀ m ∈ [TypeExpr.cls (.builtin .int), .cls (.builtin .text)], m.Flat := by
    intro m member
    rcases List.mem_pair.mp member with rfl | rfl
    · trivial
    · trivial
  refine TypeExpr.flat_unite _ fun m member => ?_
  rcases List.mem_pair.mp member with rfl | rfl
  · exact TypeExpr.flat_unite _ alternatives
  · trivial

/-- A mapper for numbers, texts and null serves properties of the type in its other spelling, which is found alike
before. -/
theorem nullable_shares_mapper_spelled :
    ∃ w v m, (Session.start default [] ⟨.fresh true, none, []⟩).toOption = some w ∧
      SharesMapper (Session.hooks Session.depth) ⟨0, 0, 0⟩ w (.of numberTextOrNull) (.of numberTextOrNull.optional) ∧
      (Session.registerColumn ⟨0, 0, 0⟩ (.mapper exclaiming) (some numberTextOrNull)).run w = (.ok (), v) ∧
      m.spec = exclaiming ∧
      ∀ p : Property, p.type = .of numberTextOrNull.optional →
        p.ServedBy (Session.hooks Session.depth) ⟨0, 0, 0⟩ v (.custom m) := by
  have computed : ((Session.start default [] ⟨.fresh true, none, []⟩).toOption.any fun w =>
      (w.registries[0]?).any fun r => r.columns.factories.all (·.isPlain)) = true := by decide +kernel
  simp only [Option.any_eq_true] at computed
  obtain ⟨w, started, r, known, plain⟩ := computed
  have itself : (Descriptor.of numberTextOrNull).same (.of numberTextOrNull) = true := by decide +kernel
  have shared := nullable_shares_mapper numberTextOrNull_flat (by decide +kernel) (.inl rfl)
  obtain ⟨found, registered⟩ := (shared.2.2 (by decide +kernel)).2 (Reached.after started []) (c := ⟨0, 0, 0⟩) known
    (List.all_eq_true.mp plain) (Session.hooks Session.depth)
  obtain ⟨v, m, ran, made, serves⟩ := registered exclaiming numberTextOrNull (.inl rfl)
  exact ⟨w, v, m, started, found, ran, made, fun p type => serves _ (.inr rfl) p type itself⟩

/-- A mapper registered for numbers or texts is found for them, but neither for numbers, texts or null nor for a
property of that type. -/
theorem solid_union_unshared :
    (Descriptor.of numberOrText.optional).same (Descriptor.of numberOrText).boxed = false ∧
    ∃ w v m, (Session.start default [] ⟨.fresh true, none, []⟩).toOption = some w ∧
      ((Session.registerColumn ⟨0, 0, 0⟩ (.mapper exclaiming) (some numberOrText)).run w).2 = v ∧
      ((Registry.findColumn (Session.hooks Session.depth) ⟨0, 0, 0⟩ (.of numberOrText)).run v).1 = .ok (some m) ∧
      ((Registry.findColumn (Session.hooks Session.depth) ⟨0, 0, 0⟩ (.of numberTextOrNull)).run v).1 = .ok none ∧
      ((Registry.findColumn (Session.hooks Session.depth) ⟨0, 0, 0⟩ (Descriptor.of numberTextOrNull).boxed).run v).1 =
        .ok none := by
  have computed : ((Session.start default [] ⟨.fresh true, none, []⟩).toOption.any fun w =>
      let v := ((Session.registerColumn ⟨0, 0, 0⟩ (.mapper exclaiming) (some numberOrText)).run w).2
      let found := fun key => ((Registry.findColumn (Session.hooks Session.depth) ⟨0, 0, 0⟩ key).run v).1.toOption
      (found (.of numberOrText)).any (·.isSome) && ((found (.of numberTextOrNull)).any (·.isNone) &&
        (found (Descriptor.of numberTextOrNull).boxed).any (·.isNone))) = true := by decide +kernel
  simp only [Option.any_eq_true, Bool.and_eq_true, Option.isSome_iff_exists, Option.isNone_iff_eq_none] at computed
  obtain ⟨w, started, ⟨_, own, m, rfl⟩, ⟨_, admitting, rfl⟩, ⟨_, property, rfl⟩⟩ := computed
  refine ⟨by decide +kernel, w, _, m, started, rfl, ?_, ?_, ?_⟩
  · exact congrArg Prod.fst (run_of_toOption own)
  · exact congrArg Prod.fst (run_of_toOption admitting)
  · exact congrArg Prod.fst (run_of_toOption property)

end RowMapping
