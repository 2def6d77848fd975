import Mathlib.Data.List.Nodup
import Mathlib.Data.List.Perm.Subperm
import Mathlib.Data.List.ProdSigma
import RowMapping.Proofs.Mapper.Reuse
import RowMapping.Proofs.Text.Lowered

/-! How deep planning goes. The mappers that one specialization enters, each for a nested property of the
one before, have leads that begin one another, no longer than the longest column; a type comes at most
once with each of them. So planning comes to an end, whatever the types, the matchers and the columns. -/
namespace RowMapping.ReflectiveMapper

open MappingM

/-! ### Planning above a level -/

/-- One level of planning. The mappers of nested properties are planned by `plan`. -/
def planStep (s : Scope) (plan : Planner) : Planner := fun m trail => do
  if onTrail trail m then throw (.nestedCycle (← m.typeName) m.lead)
  match ← table? s.context m.target with
  | none => throw (.unknownProperties (← m.typeName))
  | some table =>
    let entries ← planEntries s plan m ((m.target, m.lead) :: trail) table.properties
    if entries.isEmpty && !s.columns.isEmpty then return none
    else return some (.mk table (ordered entries))

/-- So many levels of planning, and `stop` for what lies below. -/
def planAbove (s : Scope) (stop : Planner) : Nat → Planner
  | 0 => stop
  | n + 1 => planStep s (planAbove s stop n)

theorem planWithin_above (s : Scope) (n : Nat) :
    planWithin s n = planAbove s (fun _ _ => throw .exhausted) n := by
  induction n with
  | zero => rfl
  | succ n ih =>
    show planStep s (planWithin s n) = planStep s _
    rw [ih]

def specializeBy (planner : Scope → Planner) (h : Hooks) (c : Context) (m : ReflectiveMapper)
    (columns : List String) : MappingM Plan := do
  let chain := (← settings c).chain
  let (plan, unread) ← (planner ⟨h, c, columns, chain⟩ m []).run columns
  match plan with
  | none => throw (.noMatchingColumns (← m.typeName) columns)
  | some p =>
    refuseLeftover c chain m unread
    log .debug .mapping ("Specialized " ++ (← m.typeName) ++ ": properties="
      ++ Text.quotedList p.propertyNames ++ " unmatched=" ++ Text.quotedList unread)
    return p

theorem run_specialize (h : Hooks) (c : Context) (m : ReflectiveMapper) (columns : List String) (w : World) :
    (m.specialize h c columns).run w =
      (m.specializeBy (fun s => planWithin s (trailBound w.schema columns)) h c columns).run w := by
  have read : (settings c).run w = (.ok ((w.settings[c.settings]?).getD default), w) := rfl
  unfold ReflectiveMapper.specialize specializeBy
  rewrite [run_bind_ok read, run_bind_ok read, run_bind_ok (run_get w)]
  generalize trailBound w.schema columns = bound
  rfl

/-! ### The mappers that planning enters -/

def longest (columns : List String) : Nat := (columns.map String.length).foldl max 0

theorem le_longest {c : String} {columns : List String} (member : c ∈ columns) :
    c.length ≤ longest columns := by
  have along : ∀ (ns : List Nat) (least n : Nat), n ≤ least ∨ n ∈ ns → n ≤ ns.foldl max least := by
    intro ns
    induction ns with
    | nil => simp
    | cons k ns ih =>
      intro least n known
      refine ih (max least k) n ?_
      rcases known with below | member
      · exact .inl (le_max_of_le_left below)
      · rcases List.mem_cons.mp member with rfl | later
        · exact .inl (le_max_right _ _)
        · exact .inr later
  exact along _ 0 _ (.inr (List.mem_map_of_mem member))

theorem length_of_fits {lead : String} {columns : List String} (fits : outgrown lead columns = false) :
    lead.length ≤ longest columns := by
  simp only [outgrown, List.all_eq_false, decide_eq_true_eq, Nat.not_lt] at fits
  obtain ⟨c, member, long⟩ := fits
  exact long.trans (le_longest member)

/-- Planning `m` enters `k` for a nested property: some column lies under its lead, and one is no shorter. -/
structure Enters (chain : MatcherChain) (columns : List String) (lists : RawType → Property → Prop)
    (m k : ReflectiveMapper) (p : Property) (nested : String) : Prop where
  listed : lists m.target p
  mappable : p.unmappable = false
  own : p.nested = some nested
  under : chain.anyUnder (m.lead ++ nested) columns = .ok true
  fits : outgrown (m.lead ++ nested) columns = false
  target : k.target = p.type.raw ∨ k.target.class? = none ∧ p.type.raw.class? = none
  lead : k.lead = Text.lower (m.lead ++ nested)

theorem Enters.of_child {chain : MatcherChain} {columns : List String} {lists : RawType → Property → Prop}
    {m k : ReflectiveMapper} {p : Property} {nested : String} {u v : World} (listed : lists m.target p)
    (mappable : p.unmappable = false) (own : p.nested = some nested)
    (under : chain.anyUnder (m.lead ++ nested) columns = .ok true)
    (fits : outgrown (m.lead ++ nested) columns = false) (made : (child m p).run u = (.ok k, v)) :
    Enters chain columns lists m k p nested := by
  obtain ⟨serial, q, v', ran, same, _⟩ := run_child m p u
  cases ran.symm.trans made
  exact ⟨listed, mappable, own, under, fits, property_class same, by rw [own]; rfl⟩

/-- The mappers that planning `m` enters, each at the end of its trail. -/
inductive Entered (chain : MatcherChain) (columns : List String) (lists : RawType → Property → Prop)
    (m : ReflectiveMapper) : ReflectiveMapper → Trail → Prop
  | start : Entered chain columns lists m m []
  | nested {k k' : ReflectiveMapper} {trail : Trail} {p : Property} {nested : String} :
      Entered chain columns lists m k trail → onTrail trail k = false →
        Enters chain columns lists k k' p nested →
          Entered chain columns lists m k' ((k.target, k.lead) :: trail)

inductive Reaches (lists : RawType → Property → Prop) (raw : RawType) : RawType → Prop
  | refl : Reaches lists raw raw
  | nested {t : RawType} {p : Property} : Reaches lists raw t → lists t p → p.unmappable = false →
      p.nested.isSome → Reaches lists raw p.type.raw

section Trails

variable {chain : MatcherChain} {columns : List String} {lists : RawType → Property → Prop}
  {m k : ReflectiveMapper} {trail : Trail}

theorem Entered.small (entered : Entered chain columns lists m k trail)
    (lead : ∃ t, m.lead = Text.lower t) : ∃ t, k.lead = Text.lower t := by
  cases entered with
  | start => exact lead
  | nested _ _ enters => exact ⟨_, enters.lead⟩

theorem Entered.begins (entered : Entered chain columns lists m k trail)
    (lead : ∃ t, m.lead = Text.lower t) : ∀ e ∈ trail, e.2.toList <+: k.lead.toList := by
  induction entered with
  | start => simp
  | nested entered _ enters ih =>
    obtain ⟨t, small⟩ := entered.small lead
    have longer := Text.prefix_lower_append t
    rw [← small] at longer
    intro e member
    rw [enters.lead]
    rcases List.mem_cons.mp member with rfl | earlier
    · exact longer _
    · exact (ih e earlier).trans (longer _)

theorem Entered.fits (entered : Entered chain columns lists m k trail) :
    ∀ e ∈ trail, e.2.length ≤ longest columns := by
  induction entered with
  | start => simp
  | nested _ _ enters ih =>
    have whole := length_of_fits enters.fits
    rw [String.length_append] at whole
    refine List.forall_mem_cons.mpr ⟨?_, ih⟩
    dsimp only
    omega

theorem Entered.nodup (classes : ∀ raw p, lists raw p → raw.class?.isSome)
    (entered : Entered chain columns lists m k trail) : trail.Nodup := by
  induction entered with
  | start => exact .nil
  | @nested k _ trail _ _ _ new enters ih =>
    refine List.nodup_cons.mpr ⟨fun again => ?_, ih⟩
    have one : k.target.same k.target = true := by
      have named := classes _ _ enters.listed
      cases raw : k.target <;> simp_all [RawType.class?, RawType.same]
    have found : onTrail trail k = true := List.any_eq_true.mpr ⟨_, again, by simp [one]⟩
    rw [new] at found
    contradiction

theorem Entered.reaches (classes : ∀ raw p, lists raw p → raw.class?.isSome)
    (entered : Entered chain columns lists m k trail) :
    (k.target.class?.isSome → Reaches lists m.target k.target) ∧
      ∀ e ∈ trail, Reaches lists m.target e.1 ∧ ∃ p, lists e.1 p := by
  induction entered with
  | start => exact ⟨fun _ => .refl, by simp⟩
  | nested _ _ enters ih =>
    have reached := ih.1 (classes _ _ enters.listed)
    refine ⟨fun named => ?_, fun e member => ?_⟩
    · rcases enters.target with same | ⟨unnamed, _⟩
      · rw [same]
        exact reached.nested enters.listed enters.mappable (by rw [enters.own]; rfl)
      · rw [unnamed] at named
        contradiction
    · rcases List.mem_cons.mp member with rfl | earlier
      · exact ⟨reached, _, enters.listed⟩
      · exact ih.2 e earlier

/-- A trail is no longer than there are types with properties and lengths of leads. -/
theorem Entered.length_le (classes : ∀ raw p, lists raw p → raw.class?.isSome)
    (entered : Entered chain columns lists m k trail) (lead : ∃ t, m.lead = Text.lower t)
    {types : List RawType}
    (cover : ∀ raw p, Reaches lists m.target raw → lists raw p → raw ∈ types) :
    trail.length ≤ types.length * (longest columns + 1) := by
  -- Leads on one trail are told apart by their lengths, since they begin the last one.
  have apart : ∀ e ∈ trail, ∀ f ∈ trail, (e.1, e.2.length) = (f.1, f.2.length) → e = f := by
    intro e he f hf same
    obtain ⟨types, lengths⟩ := Prod.mk.inj same
    have shorter := List.prefix_of_prefix_length_le (entered.begins lead e he) (entered.begins lead f hf)
      (by simpa only [String.length_toList] using lengths.le)
    have texts := shorter.eq_of_length (by simpa only [String.length_toList] using lengths)
    exact Prod.ext types (String.toList_inj.mp texts)
  have distinct := List.Nodup.map_on apart (entered.nodup classes)
  have inside : trail.map (fun e => (e.1, e.2.length)) ⊆ types ×ˢ List.range (longest columns + 1) := by
    intro key member
    obtain ⟨e, he, rfl⟩ := List.mem_map.mp member
    obtain ⟨reached, p, listed⟩ := (entered.reaches classes).2 e he
    have short := entered.fits e he
    exact List.mem_product.mpr ⟨cover _ p reached listed, List.mem_range.mpr (by omega)⟩
  have bounded := (List.Nodup.subperm distinct inside).length_le
  rwa [List.length_map, List.length_product, List.length_range] at bounded

end Trails

/-! ### Planning by other planners -/

/-- The classes that can have properties: the built-in ones, and those that the schema declares. -/
def classTypes (s : Schema) : List RawType :=
  ([.int, .float, .bool, .text, .bytes, .decimal, .datetime, .date, .time, .span, .uuid, .complex,
    .object, .list, .tuple, .set, .frozenset, .dict, .none, .any, .enum].map fun b => .cls (.builtin b)) ++
      s.classes.map fun cls => .cls (.declared cls.name)

theorem mem_classTypes {w : World} {c : Context} {raw : RawType} {t : PropertyTable}
    (known : raw.class?.bind (w.tableFor c) = some t) : raw ∈ classTypes w.schema := by
  obtain ⟨cls, named, tabled⟩ := Option.bind_eq_some_iff.mp known
  obtain rfl : raw = .cls cls := by cases raw <;> simp_all [RawType.class?]
  cases cls with
  | builtin b => exact List.mem_append_left _ (List.mem_map.mpr ⟨b, by cases b <;> decide, rfl⟩)
  | declared n =>
    obtain ⟨own, found, _⟩ := Option.bind_eq_some_iff.mp tabled
    have name : own.name = n := by simpa using List.find?_some found
    refine List.mem_append_right _ (List.mem_map.mpr ⟨own, List.mem_of_find?_eq_some found, ?_⟩)
    rw [name]

theorem class_of_mem {s : Schema} {raw : RawType} (member : raw ∈ classTypes s) : raw.class?.isSome := by
  rcases List.mem_append.mp member with builtin | declared
  · obtain ⟨_, _, rfl⟩ := List.mem_map.mp builtin
    rfl
  · obtain ⟨_, _, rfl⟩ := List.mem_map.mp declared
    rfl

/-- Worlds of a kind that planning in a context does not leave, and in which classes list no more properties
than `lists` says. -/
structure Realm (s : Schema) (h : Hooks) (c : Context) (lists : RawType → Property → Prop)
    (I : World → Prop) : Prop where
  schema : ∀ u, I u → u.schema = s
  log : ∀ level logger text u, I u → I ((log level logger text).run u).2
  table : ∀ raw u, I u → I ((table? c raw).run u).2 ∧
    ∀ t, ((table? c raw).run u).1 = .ok (some t) → ∀ p ∈ t.properties, lists raw p
  column : ∀ key u, I u → I ((Registry.findColumn h c key).run u).2
  child : ∀ m p u, lists m.target p → I u → I ((child m p).run u).2
  classes : ∀ raw p, lists raw p → raw ∈ classTypes s

def Shared (I : World → Prop) (u v : World) : Prop := u = v ∧ I u

theorem together_shared {I : World → Prop} {α : Type} {x : MappingM α} {Q : α → Prop}
    (keeps : ∀ u, I u → I (x.run u).2) (brings : ∀ u, I u → ∀ a, (x.run u).1 = .ok a → Q a) :
    Together .strict (Shared I) (fun a b => a = b ∧ Q a) x x := by
  rintro u _ ⟨rfl, kind⟩
  refine .inr ⟨?_, rfl, keeps u kind⟩
  have returned := brings u kind
  cases ran : (x.run u).1 with
  | error e => exact rfl
  | ok a => exact ⟨rfl, returned a ran⟩

theorem together_itself {I : World → Prop} {α : Type} {x : MappingM α}
    (keeps : ∀ u, I u → I (x.run u).2) : Together .strict (Shared I) (· = ·) x x :=
  (together_shared (Q := fun _ => True) keeps fun _ _ _ _ => trivial).mono fun _ _ both => both.1

namespace Realm

variable {s : Schema} {h : Hooks} {c : Context} {lists : RawType → Property → Prop} {I : World → Prop}
  (realm : Realm s h c lists I) {columns : List String} {chain : MatcherChain}
include realm

theorem fallbackMapper (owner : String) (p : Property) :
    Together .strict (Shared I) (fun a b => a = .raw ∧ b = .raw) (fallbackMapper ⟨h, c, columns, chain⟩ owner p)
      (fallbackMapper ⟨h, c, columns, chain⟩ owner p) := by
  refine Together.bind (S := (· = ·)) (together_itself fun _ kind => kind) fun found _ same => ?_
  subst same
  dsimp only
  split
  · exact (Together.throw (S := fun _ _ => True) _).bind fun _ _ _ =>
      (together_itself (realm.log _ _ _)).bind fun _ _ _ => .pure ⟨rfl, rfl⟩
  · exact (together_itself (realm.log _ _ _)).bind fun _ _ _ => .pure ⟨rfl, rfl⟩

theorem planColumn (m : ReflectiveMapper) (p : Property) :
    TogetherOver .strict (Shared I) (· = ·) (planColumn ⟨h, c, columns, chain⟩ m p)
      (planColumn ⟨h, c, columns, chain⟩ m p) := by
  unfold ReflectiveMapper.planColumn
  refine (TogetherOver.liftSame _).bind_same fun owner => ?_
  refine (TogetherOver.liftSame _).bind_same fun found => ?_
  cases found with
  | none => exact .pure rfl
  | some index =>
    refine (TogetherOver.lift (together_itself (realm.column _))).bind_same fun o => ?_
    cases o with
    | none =>
      refine (TogetherOver.lift (realm.fallbackMapper _ _)).bind ?_
      rintro _ _ ⟨rfl, rfl⟩
      exact (TogetherOver.modify _).bind fun _ _ _ => .pure rfl
    | some mapper =>
      refine (TogetherOver.pure (S := (· = ·)) rfl).bind_same fun mapper => ?_
      exact (TogetherOver.modify _).bind fun _ _ _ => .pure rfl

variable {plan plan' : Planner} {m : ReflectiveMapper} {trail : Trail}

theorem planNested {p : Property} {nested : String} (listed : lists m.target p)
    (mappable : p.unmappable = false) (own : p.nested = some nested)
    (agree : ∀ k, Enters chain columns lists m k p nested →
      TogetherOver .strict (Shared I) (· = ·) (plan k trail) (plan' k trail)) :
    TogetherOver .strict (Shared I) (· = ·) (planNested ⟨h, c, columns, chain⟩ plan m trail p nested)
      (planNested ⟨h, c, columns, chain⟩ plan' m trail p nested) := by
  unfold ReflectiveMapper.planNested
  have asked : ∀ e : Except Failure Bool, TogetherOver .strict (Shared I) (fun a b => a = b ∧ e = .ok a)
      (liftM (liftM e : MappingM Bool) : Planning Bool) (liftM (liftM e : MappingM Bool) : Planning Bool) := by
    intro e
    refine .lift (.lift ?_)
    cases e with
    | error e => exact rfl
    | ok b => exact ⟨rfl, rfl⟩
  refine (asked _).bind fun under _ ⟨same, answer⟩ => ?_
  subst same
  split
  · refine (TogetherOver.liftSame _).bind_same fun owner => ?_
    exact (TogetherOver.lift (together_itself (realm.log _ _ _))).bind fun _ _ _ => .pure rfl
  · next some =>
    obtain rfl : under = true := by simpa using some
    split
    · split
      · exact .throw _
      · exact .throw _
    · next fits =>
      have made : Together .strict (Shared I) (fun a b => a = b ∧ Enters chain columns lists m a p nested)
          (ReflectiveMapper.child m p) (ReflectiveMapper.child m p) := by
        refine together_shared (fun u kind => realm.child m p u listed kind) fun u _ k returned => ?_
        exact .of_child listed mappable own answer (eq_false_of_ne_true fits) (Prod.ext returned rfl)
      refine (TogetherOver.lift made).bind fun k _ ⟨same, enters⟩ => ?_
      subst same
      refine (agree k enters).bind_same fun o => ?_
      exact .pure rfl

theorem planEntries (agree : ∀ k p nested, Enters chain columns lists m k p nested →
      TogetherOver .strict (Shared I) (· = ·) (plan k trail) (plan' k trail)) {ps : List Property}
    (listed : ∀ p ∈ ps, lists m.target p) :
    TogetherOver .strict (Shared I) (· = ·) (planEntries ⟨h, c, columns, chain⟩ plan m trail ps)
      (planEntries ⟨h, c, columns, chain⟩ plan' m trail ps) := by
  induction ps with
  | nil => exact .pure rfl
  | cons p ps ih =>
    have rest := ih fun p' hp => listed p' (List.mem_cons_of_mem p hp)
    have more : ∀ o o' : Option Entry, o = o' → TogetherOver .strict (Shared I) (· = ·)
        (do return o.toList ++ (← ReflectiveMapper.planEntries ⟨h, c, columns, chain⟩ plan m trail ps))
        (do return o'.toList ++
          (← ReflectiveMapper.planEntries ⟨h, c, columns, chain⟩ plan' m trail ps)) := by
      rintro o _ rfl
      refine rest.bind_same fun es => ?_
      exact .pure rfl
    unfold ReflectiveMapper.planEntries
    split
    · exact rest
    · next mappable =>
      rw [Bool.not_eq_true] at mappable
      split
      · exact (realm.planColumn m p).bind more
      · next nested own =>
        have first := listed p List.mem_cons_self
        exact (realm.planNested first mappable own fun k enters => agree k p nested enters).bind more

theorem planStep (agree : onTrail trail m = false → ∀ k p nested, Enters chain columns lists m k p nested →
      TogetherOver .strict (Shared I) (· = ·) (plan k ((m.target, m.lead) :: trail))
        (plan' k ((m.target, m.lead) :: trail))) :
    TogetherOver .strict (Shared I) (· = ·) (planStep ⟨h, c, columns, chain⟩ plan m trail)
      (planStep ⟨h, c, columns, chain⟩ plan' m trail) := by
  unfold ReflectiveMapper.planStep
  cases again : onTrail trail m with
  | true =>
    refine (TogetherOver.liftSame _).bind_same fun owner => ?_
    exact (TogetherOver.throw (S := fun _ _ => False) _).bind fun _ _ never => never.elim
  | false =>
    have looked := together_shared (Q := fun o => ∀ t ∈ o, ∀ p ∈ t.properties, lists m.target p)
      (fun u kind => (realm.table m.target u kind).1) fun u kind o returned t known => by
        cases known
        exact (realm.table m.target u kind).2 t returned
    refine (TogetherOver.lift looked).bind fun o _ ⟨same, listed⟩ => ?_
    subst same
    cases o with
    | none =>
      refine (TogetherOver.liftSame _).bind_same fun owner => ?_
      exact .throw _
    | some t =>
      refine (realm.planEntries (agree again) (listed t rfl)).bind_same fun es => ?_
      dsimp only
      split
      · exact .pure rfl
      · exact .pure rfl

/-- What lies below the longest trail is never asked for a plan. -/
theorem planAbove (stop stop' : Planner) {k : ReflectiveMapper} {depth depth' : Nat}
    (short : ∀ k trail, Entered chain columns lists m k trail → trail.length < depth)
    (short' : ∀ k trail, Entered chain columns lists m k trail → trail.length < depth')
    (entered : Entered chain columns lists m k trail) {n n' : Nat} (left : trail.length + n = depth)
    (left' : trail.length + n' = depth') :
    TogetherOver .strict (Shared I) (· = ·) (planAbove ⟨h, c, columns, chain⟩ stop n k trail)
      (planAbove ⟨h, c, columns, chain⟩ stop' n' k trail) := by
  induction n generalizing k trail n' with
  | zero =>
    have above := short k trail entered
    omega
  | succ n ih =>
    cases n' with
    | zero =>
      have above := short' k trail entered
      omega
    | succ n' =>
      refine realm.planStep fun new k' p nested enters => ?_
      exact ih (entered.nested new enters) (by rw [List.length_cons]; omega) (by rw [List.length_cons]; omega)

theorem named (raw : RawType) (p : Property) (listed : lists raw p) : raw.class?.isSome :=
  class_of_mem (realm.classes raw p listed)

/-- The bound for trails is never reached. -/
theorem within_bound (lead : ∃ t, m.lead = Text.lower t) {k : ReflectiveMapper}
    (entered : Entered chain columns lists m k trail) : trail.length < trailBound s columns := by
  have bounded := entered.length_le realm.named lead fun raw p _ listed => realm.classes raw p listed
  have types : (classTypes s).length = s.classes.length + 21 := by
    rw [classTypes, List.length_append, List.length_map, List.length_map, Nat.add_comm]
    rfl
  rw [types] at bounded
  show _ < (s.classes.length + 22) * (longest columns + 3)
  calc trail.length ≤ (s.classes.length + 21) * (longest columns + 1) := bounded
    _ ≤ (s.classes.length + 22) * (longest columns + 1) := Nat.mul_le_mul_right _ (by omega)
    _ < (s.classes.length + 22) * (longest columns + 3) := Nat.mul_lt_mul_of_pos_left (by omega) (by omega)

/-- A specialization comes to the same by every planner that plans deeper than trails are long. -/
theorem specialize_above (lead : ∃ t, m.lead = Text.lower t) (stop : Planner) {depth : Nat}
    (short : ∀ chain k trail, Entered chain columns lists m k trail → trail.length < depth) {w : World}
    (here : I w) :
    (m.specializeBy (fun s => ReflectiveMapper.planAbove s stop depth) h c columns).run w =
      (m.specialize h c columns).run w := by
  have read : (settings c).run w = (.ok ((w.settings[c.settings]?).getD default), w) := rfl
  rw [run_specialize, realm.schema w here]
  unfold specializeBy
  rw [run_bind_ok read, run_bind_ok read, run_bind, run_bind]
  dsimp only
  rw [planWithin_above]
  have together := realm.planAbove stop (fun _ _ => throw .exhausted)
    (short ((w.settings[c.settings]?).getD default).chain) (fun _ _ => realm.within_bound lead) .start
    (Nat.zero_add _) (Nat.zero_add _) columns
  obtain ⟨outcomes, same, _⟩ := together.related ⟨rfl, here⟩
  have planned := Prod.ext (outcomes.mono fun _ _ both => Prod.ext both.1 both.2).eq same
  rw [planned]

end Realm

/-! ### Worlds that planning does not leave -/

section Realms

variable {w : World} {c : Context} {h : Hooks}

theorem listed_classes (raw : RawType) (p : Property) (listed : w.Lists c raw p) :
    raw ∈ classTypes w.schema := by
  obtain ⟨_, known, _⟩ := listed
  exact mem_classTypes known

theorem realm_level {fs : List ColumnFactory} (library : ∀ f ∈ fs, f.Library) (h : Hooks) :
    Realm w.schema h c (w.Lists c) (w.Level c fs) where
  schema _ level := level.schema
  log level logger text _ here := here.log level logger text
  table raw u here := by
    obtain ⟨v, ran, consulted⟩ := run_table_for c raw u
    rw [ran]
    exact ⟨here.consulted consulted, fun t found => here.tabled.lists (World.consult_some found)⟩
  column key u here := by
    have supplies := supplies_findColumnAs (s := w.schema) library h c key key.nullable
    obtain ⟨o, y, v, ran, _, _, stocked, searched⟩ := supplies u here.stocked
    unfold Registry.findColumn
    rw [ran]
    exact here.searched searched stocked
  child m p u _ here := by
    obtain ⟨serial, q, v, ran, _, rest, _⟩ := run_child m p u
    rw [ran]
    exact here.aside (by rw [rest]) (by rw [rest]) (by rw [rest]) (by rw [rest])
  classes := listed_classes

end Realms

/-! ### Specialization ends -/

theorem planStep_again {s : Scope} {plan : Planner} {k : ReflectiveMapper} {trail : Trail} {n : String}
    (named : k.typeName = .ok n) (again : onTrail trail k = true) (unread : List String) (u : World) :
    ((planStep s plan k trail).run unread).run u = (.error (.nestedCycle n k.lead), u) := by
  unfold planStep
  rw [if_pos again, named]
  rfl

theorem typeName_of_onTrail {k : ReflectiveMapper} {trail : Trail} (again : onTrail trail k = true)
    (classes : ∀ e ∈ trail, e.1.class?.isSome) : k.typeName = .ok k.target.name := by
  obtain ⟨e, member, found⟩ := List.any_eq_true.mp again
  rw [Bool.and_eq_true] at found
  rcases RawType.same_class found.1 with ⟨same, _⟩ | ⟨unnamed, _⟩
  · have named := classes e member
    rw [same] at named
    cases raw : k.target <;> simp_all [RawType.class?, typeName, RawType.ownName?, RawType.name]
  · have named := classes e member
    rw [unnamed] at named
    contradiction

/-- Specialization ends. Where nested properties lead to `N` types, and the longest column has `L`
characters, no more than `N * (L + 2)` mappers are entered one within the other, and what would be planned
below them makes no difference. None comes back on its trail but to fail for that. -/
theorem specialization_ends {w : World} {h : Hooks} {c : Context} {I : World → Prop}
    (realm : Realm w.schema h c (w.Lists c) I) (here : I w) {m : ReflectiveMapper}
    (lead : ∃ t, m.lead = Text.lower t) (columns : List String) {types : List RawType}
    (reachable : ∀ raw, Reaches (w.Lists c) m.target raw → raw ∈ types) :
    (∀ chain k trail, Entered chain columns (w.Lists c) m k trail →
      trail.Nodup ∧ trail.length + 1 ≤ types.length * (longest columns + 2) ∧
      (onTrail trail k = true → ∀ plan unread u,
        ((planStep ⟨h, c, columns, chain⟩ plan k trail).run unread).run u =
          (.error (.nestedCycle k.target.name k.lead), u))) ∧
    ∀ stop fuel, types.length * (longest columns + 2) ≤ fuel →
      (m.specializeBy (fun s => planAbove s stop fuel) h c columns).run w = (m.specialize h c columns).run w := by
  have some : 0 < types.length := List.length_pos_of_mem (reachable _ .refl)
  have bounded : ∀ chain k trail, Entered chain columns (w.Lists c) m k trail →
      trail.length + 1 ≤ types.length * (longest columns + 2) := by
    intro chain k trail entered
    have short := entered.length_le realm.named lead fun raw _ reached _ => reachable raw reached
    calc trail.length + 1 ≤ types.length * (longest columns + 1) + types.length := by omega
      _ = types.length * (longest columns + 2) := (Nat.mul_succ _ _).symm
  refine ⟨fun chain k trail entered => ⟨entered.nodup realm.named, bounded chain k trail entered, ?_⟩, ?_⟩
  · intro again plan unread u
    refine planStep_again (typeName_of_onTrail again fun e member => ?_) again unread u
    obtain ⟨_, p, listed⟩ := (entered.reaches realm.named).2 e member
    exact realm.named _ p listed
  · intro stop fuel enough
    exact realm.specialize_above lead stop (fun chain k trail entered =>
      (bounded chain k trail entered).trans enough) here

def links : Schema := .declare
  [⟨"Node", [], none, .record [{ name := "id", type := .cls (.builtin .int) },
    { name := "next", type := .marked (.cls (.declared "Node")) [.nested "n_"],
      fallback := some (.value .null) }] none⟩]

def node : RawType := .cls (.declared "Node")

/-- Nodes lead to nodes only, and from two columns no more than six are planned within one another. -/
theorem specialization_ends_links :
    ∃ w I, Session.start links [] ⟨.fresh true, none, []⟩ = .ok w ∧ I w ∧
      Realm w.schema (Session.hooks Session.depth) ⟨0, 0, 0⟩ (w.Lists ⟨0, 0, 0⟩) I ∧
      (∀ raw, Reaches (w.Lists ⟨0, 0, 0⟩) node raw → raw ∈ [node]) ∧
      (∀ chain k trail, Entered chain ["id", "n_id"] (w.Lists ⟨0, 0, 0⟩) ⟨0, node, ""⟩ k trail →
        trail.length + 1 ≤ 6) ∧
      ∀ stop, (specializeBy (fun s => planAbove s stop 6) (Session.hooks Session.depth) ⟨0, 0, 0⟩
        ⟨0, node, ""⟩ ["id", "n_id"]).run w =
          (specialize (Session.hooks Session.depth) ⟨0, 0, 0⟩ ⟨0, node, ""⟩ ["id", "n_id"]).run w := by
  have computed : ((Session.start links [] ⟨.fresh true, none, []⟩).toOption.any fun w =>
      ((w.registries[0]?).any fun r => r.columns.factories.all fun f => f.Library) &&
        ((w.tableFor ⟨0, 0, 0⟩ (.declared "Node")).all fun t =>
          t.properties.all fun p => p.nested.isNone || p.type.raw.same node)) = true := by
    decide +kernel
  simp only [Option.any_eq_true, Bool.and_eq_true] at computed
  obtain ⟨w, started, ⟨r, owned, library⟩, lists⟩ := computed
  have began : Session.start links [] ⟨.fresh true, none, []⟩ = .ok w := by
    cases result : Session.start links [] ⟨.fresh true, none, []⟩ with
    | error e => rw [result] at started; contradiction
    | ok v => rw [result] at started; exact congrArg Except.ok (Option.some.inj started)
  have reached : Reached links w := Reached.after started []
  have builtIn : ∀ f ∈ r.columns.factories, f.Library :=
    fun f hf => of_decide_eq_true (List.all_eq_true.mp library f hf)
  have here := World.level_of_reached (c := ⟨0, 0, 0⟩) reached owned builtIn
  have realm := realm_level (w := w) (c := ⟨0, 0, 0⟩) builtIn (Session.hooks Session.depth)
  have reachable : ∀ raw, Reaches (w.Lists ⟨0, 0, 0⟩) node raw → raw ∈ [node] := by
    intro raw reaches
    induction reaches with
    | refl => exact List.mem_singleton_self node
    | nested _ listed _ nested ih =>
      rw [List.mem_singleton.mp ih] at listed
      rcases (Bool.or_eq_true _ _).mp (listed.of_table lists) with none | same
      · rw [Option.isNone_iff_eq_none.mp none] at nested
        contradiction
      · rcases RawType.same_class same with ⟨equal, _⟩ | ⟨_, never⟩
        · exact equal ▸ List.mem_singleton_self node
        · contradiction
  obtain ⟨trails, ends⟩ := specialization_ends realm here (m := ⟨0, node, ""⟩) ⟨"", rfl⟩ ["id", "n_id"] reachable
  exact ⟨w, _, began, here, realm, reachable, fun chain k trail entered => (trails chain k trail entered).2.1,
    fun stop => ends stop 6 le_rfl⟩

end RowMapping.ReflectiveMapper
