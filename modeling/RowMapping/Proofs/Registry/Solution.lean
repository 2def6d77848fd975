import RowMapping.Proofs.Registry.Matched

/-! What look-ups come to, told from the factories of a registry and from what it kept at one time. Nothing
is kept on the way, so look-ups of factories may be nested only so and so deep. -/
namespace RowMapping

structure Solution where
  column : Descriptor → Except Failure (Option ColumnMapper)
  row : Descriptor → Except Failure (Option RowMapper)

/-- What types are resolved from. Mappers that are made anew bear the number `fresh`. -/
structure Ground where
  schema : Schema
  registry : Registry
  /-- The classes that have properties. -/
  described : ClassRef → Bool
  fresh : Nat

/-- What following a procedure comes to. Its commands do not bear on that. -/
def Procedure.told (look : Solution) {Mapper : Type} :
    Procedure Command Mapper → Except Failure (Option Mapper)
  | .answer m => .ok m
  | .raise r => .error (.raised r)
  | .column type next => look.column type >>= fun found => told look (next found)
  | .row type next => look.row type >>= fun found => told look (next found)
  | .perform _ next => told look next

namespace Ground

variable (g : Ground)

def arrayWith (container : Builtin) : Option ColumnMapper → Option ColumnMapper
  | some (.value origin target) => some (.array g.fresh container origin target)
  | _ => none

def arrayFor (key : Descriptor) (element : Option (Except Failure (Option ColumnMapper))) :
    Except Failure (Option ColumnMapper) :=
  match Registry.container? key, element with
  | some container, some found => found.map (g.arrayWith container)
  | _, _ => .ok none

def reflectiveFor (targets : Option (List RawType)) (lead : String) (key : Descriptor) :
    Except Failure (Option ReflectiveMapper) :=
  if targets.all (fun ts => ts.any key.raw.same) then
    if key.raw.class?.any g.described then .ok (some ⟨g.fresh, key.raw, Text.lower lead⟩)
    else if key.raw.class?.any g.schema.obscure then .error .undeclared
    else .ok none
  else .ok none

def askColumn (look : Solution) (key : Descriptor)
    (element : Option (Except Failure (Option ColumnMapper))) :
    ColumnFactory → Except Failure (Option ColumnMapper)
  | .scalars origin => .ok (scalarFor g.schema origin key)
  | .arrays => g.arrayFor key element
  | .fixed target mapper => .ok (if key.boxed.same target then some mapper else none)
  | .custom f => .ok (if f.claims key then some (.custom f.mapper) else none)
  | .written _ ask => (ask key).told look
  | .reflective targets lead => (g.reflectiveFor targets lead key).map (Option.map .misplaced)

mutual

def columnAs (look : Solution) : Descriptor → Bool → Except Failure (Option ColumnMapper)
  | .mk raw args _, nullable =>
    match g.registry.columns.cached? (.mk raw args nullable) with
    | some m => .ok (some m)
    | none => Chain.scan (g.askColumn look (.mk raw args nullable) (element look args))
        g.registry.columns.factories

def element (look : Solution) : List Descriptor → Option (Except Failure (Option ColumnMapper))
  | [] => none
  | d :: _ => some (columnAs look d true)

end

def askRow (look : Solution) (key : Descriptor) : RowFactory → Except Failure (Option RowMapper)
  | .reflective targets lead => (g.reflectiveFor targets lead key).map (Option.map .reflective)
  | .fixed target mapper => .ok (if key.boxed.same target then some mapper else none)
  | .custom f => .ok (if f.claims key then some (.custom f.mapper) else none)
  | .written _ ask => (ask key).told look
  | .scalars origin => .ok ((scalarFor g.schema origin key).map .misplaced)
  | .arrays => (g.arrayFor key (g.element look key.args)).map (Option.map .misplaced)

def singleFor (look : Solution) (key : Descriptor) : Except Failure (Option RowMapper) :=
  (g.columnAs look key key.nullable).map (Option.map fun m => .single g.fresh m 0)

def buildRow (look : Solution) (key : Descriptor) : Except Failure (Option RowMapper) :=
  Chain.scan (g.askRow look key) g.registry.rows.factories >>= fun
    | some m => .ok (some m)
    | none => g.singleFor look key

def rowAs (look : Solution) (key : Descriptor) : Except Failure (Option RowMapper) :=
  match g.registry.rows.cached? key with
  | some m => .ok (some m)
  | none => g.buildRow look key

/-- What look-ups come to with those of factories nested less than `depth` deep. -/
def solution : Nat → Solution
  | 0 => ⟨fun _ => .error .exhausted, fun _ => .error .exhausted⟩
  | depth + 1 => ⟨fun key => g.columnAs (solution depth) key key.nullable, g.rowAs (solution depth)⟩

end Ground

/-! ### Deeper look-ups -/

def CutShort {α : Type} (o p : Except Failure α) : Prop := o = .error .exhausted ∨ o = p

namespace CutShort

variable {α β : Type} {o p q : Except Failure α}

theorem refl (o : Except Failure α) : CutShort o o := .inr rfl

protected theorem bind {f g : α → Except Failure β} (first : CutShort o p)
    (next : ∀ a, CutShort (f a) (g a)) : CutShort (o >>= f) (p >>= g) := by
  rcases first with rfl | rfl
  · exact .inl rfl
  · cases o with
    | error e => exact .inr rfl
    | ok a => exact next a

theorem map (first : CutShort o p) (f : α → β) : CutShort (o.map f) (p.map f) := by
  rcases first with rfl | rfl
  · exact .inl rfl
  · exact .inr rfl

theorem scan {Factory Mapper : Type} {ask ask' : Factory → Except Failure (Option Mapper)}
    {fs : List Factory} (asked : ∀ f ∈ fs, CutShort (ask f) (ask' f)) :
    CutShort (Chain.scan ask fs) (Chain.scan ask' fs) := by
  induction fs with
  | nil => exact refl _
  | cons f fs ih =>
    refine (asked f List.mem_cons_self).bind fun found => ?_
    cases found with
    | none => exact ih fun g member => asked g (List.mem_cons_of_mem f member)
    | some m => exact refl _

theorem eq (cut : CutShort o p) (whole : o ≠ .error .exhausted) : o = p := cut.resolve_left whole

end CutShort

structure Solution.Within (look look' : Solution) : Prop where
  column : ∀ key, CutShort (look.column key) (look'.column key)
  row : ∀ key, CutShort (look.row key) (look'.row key)

section Depth

variable {g : Ground} {look look' : Solution}

theorem Procedure.told_within (within : look.Within look') {Mapper : Type} (p : Procedure Command Mapper) :
    CutShort (p.told look) (p.told look') := by
  induction p with
  | answer m => exact .refl _
  | raise r => exact .refl _
  | column type next ih => exact (within.column type).bind ih
  | row type next ih => exact (within.row type).bind ih
  | perform commands next ih => exact ih

namespace Ground

theorem arrayFor_within (key : Descriptor) {x y : Option (Except Failure (Option ColumnMapper))}
    (elements : Option.Rel CutShort x y) : CutShort (g.arrayFor key x) (g.arrayFor key y) := by
  unfold arrayFor
  cases Registry.container? key with
  | none => cases elements <;> exact .refl _
  | some container =>
    cases elements with
    | none => exact .refl _
    | some cut => exact cut.map _

variable (within : look.Within look')
include within

theorem askColumn_within (key : Descriptor) {x y : Option (Except Failure (Option ColumnMapper))}
    (elements : Option.Rel CutShort x y) (f : ColumnFactory) :
    CutShort (g.askColumn look key x f) (g.askColumn look' key y f) := by
  cases f with
  | arrays => exact arrayFor_within key elements
  | written name ask => exact Procedure.told_within within (ask key)
  | scalars | fixed | custom | reflective => exact .refl _

theorem columnAs_within (key : Descriptor) (nullable : Bool) :
    CutShort (g.columnAs look key nullable) (g.columnAs look' key nullable) := by
  induction key using Descriptor.induct_args generalizing nullable with
  | step key ih =>
  obtain ⟨raw, args, admitted⟩ := key
  unfold columnAs
  split
  · exact .refl _
  · refine .scan fun f _ => askColumn_within within _ ?_ f
    cases args with
    | nil => exact .none
    | cons d _ => exact .some (ih d List.mem_cons_self true)

theorem element_within (args : List Descriptor) :
    Option.Rel CutShort (g.element look args) (g.element look' args) := by
  cases args with
  | nil => exact .none
  | cons d _ => exact .some (columnAs_within within d true)

theorem askRow_within (key : Descriptor) (f : RowFactory) :
    CutShort (g.askRow look key f) (g.askRow look' key f) := by
  cases f with
  | arrays => exact (arrayFor_within key (element_within within key.args)).map _
  | written name ask => exact Procedure.told_within within (ask key)
  | scalars | fixed | custom | reflective => exact .refl _

theorem singleFor_within (key : Descriptor) : CutShort (g.singleFor look key) (g.singleFor look' key) :=
  (columnAs_within within key key.nullable).map _

theorem buildRow_within (key : Descriptor) : CutShort (g.buildRow look key) (g.buildRow look' key) := by
  refine CutShort.bind (.scan fun f _ => askRow_within within key f) fun found => ?_
  cases found with
  | none => exact singleFor_within within key
  | some m => exact .refl _

theorem rowAs_within (key : Descriptor) : CutShort (g.rowAs look key) (g.rowAs look' key) := by
  unfold rowAs
  split
  · exact .refl _
  · exact buildRow_within within key

end Ground
end Depth

theorem Ground.solution_within (g : Ground) {m n : Nat} (le : m ≤ n) :
    (g.solution m).Within (g.solution n) := by
  induction m generalizing n with
  | zero => exact ⟨fun _ => .inl rfl, fun _ => .inl rfl⟩
  | succ m ih =>
    cases n with
    | zero => omega
    | succ n =>
      have within := ih (Nat.le_of_succ_le_succ le)
      exact ⟨fun key => columnAs_within within key key.nullable, rowAs_within within⟩

/-! ### One type, spelled in two ways -/

def Akin {α β : Type} (S : α → β → Prop) : Except Failure α → Except Failure β → Prop
  | .ok a, .ok b => S a b
  | .error _, .error _ => True
  | _, _ => False

namespace Akin

variable {α β γ δ : Type} {S : α → β → Prop} {T : γ → δ → Prop}

protected theorem bind {o : Except Failure α} {p : Except Failure β} {f : α → Except Failure γ}
    {g : β → Except Failure δ} (first : Akin S o p) (next : ∀ a b, S a b → Akin T (f a) (g b)) :
    Akin T (o >>= f) (p >>= g) := by
  cases o <;> cases p
  · trivial
  · contradiction
  · contradiction
  · exact next _ _ first

theorem map {o : Except Failure α} {p : Except Failure β} {f : α → γ} {g : β → δ} (first : Akin S o p)
    (next : ∀ a b, S a b → T (f a) (g b)) : Akin T (o.map f) (p.map g) := by
  cases o <;> cases p
  · trivial
  · contradiction
  · contradiction
  · exact next _ _ first

theorem scan {Factory Mapper : Type} {S : Option Mapper → Option Mapper → Prop}
    (kinds : ∀ x y, S x y → x.isSome = y.isSome) (none : S none none)
    {ask ask' : Factory → Except Failure (Option Mapper)} {fs : List Factory}
    (asked : ∀ f ∈ fs, Akin S (ask f) (ask' f)) : Akin S (Chain.scan ask fs) (Chain.scan ask' fs) := by
  induction fs with
  | nil => exact none
  | cons f fs ih =>
    refine (asked f List.mem_cons_self).bind fun x y related => ?_
    have kind := kinds x y related
    cases x <;> cases y
    · exact ih fun g member => asked g (List.mem_cons_of_mem f member)
    · contradiction
    · contradiction
    · exact related

end Akin

structure Solution.Uniform (n : Nat) (look : Solution) : Prop where
  column : ∀ d e, d.Alike e → Akin (ColumnsFound n) (look.column d) (look.column e)
  row : ∀ d e, d.Alike e → Akin (RowsFound n) (look.row d) (look.row e)

/-- Factories run no commands and answer alike for alike types, and no mapper keeps state. -/
structure Ground.Pure (g : Ground) : Prop where
  rows : ∀ f ∈ g.registry.rows.factories, f.Matched .exact g.fresh f ∧ f.Matched .loose g.fresh f
  columns : ∀ f ∈ g.registry.columns.factories, f.Matched .exact g.fresh f ∧ f.Matched .loose g.fresh f
  keptRows : ∀ e ∈ g.registry.rows.cache, e.2.Stateless
  keptColumns : ∀ e ∈ g.registry.columns.cache, e.2.Stateless

theorem Chain.cached_alike {Factory Mapper : Type} (c : Chain Factory Mapper) {d e : Descriptor}
    (alike : d.Alike e) : c.cached? d = c.cached? e := by
  rcases alike with rfl | same
  · rfl
  · have tests : (fun x : Descriptor × Mapper => x.1.same d) = fun x => x.1.same e := by
      funext x
      rw [Bool.eq_iff_iff]
      exact ⟨fun one => Descriptor.same_trans one same,
        fun one => Descriptor.same_trans one (Descriptor.same_symm same)⟩
    simp only [Chain.cached?, tests]

theorem Descriptor.Alike.nullable {d e : Descriptor} (alike : d.Alike e) : d.nullable = e.nullable := by
  rcases alike with rfl | same
  · rfl
  · exact (Descriptor.same_iff.mp same).2.1

section Uniform

variable {g : Ground}

theorem Procedure.told_akin {n : Nat} {look : Solution} (uniform : look.Uniform n) {Mapper : Type}
    [Serial Mapper] {good : Mapper → Prop} {p q : Procedure Command Mapper}
    (matched : p.Matched .loose n good q) : Akin (FoundAs n good) (p.told look) (q.told look) := by
  induction matched with
  | answer found => exact found
  | raise => trivial
  | column keys _ ih => exact (uniform.column _ _ keys).bind ih
  | row keys _ ih => exact (uniform.row _ _ keys).bind ih

namespace Ground

theorem foundAs_scalar (s : Schema) (n origin : Nat) {d e : Descriptor} (alike : d.Alike e) :
    ColumnsFound n (scalarFor s origin d) (scalarFor s origin e) := by
  rw [scalarFor_alike s origin alike]
  refine ⟨.refl _, fun m found => ?_⟩
  unfold scalarFor at found
  split at found
  · split at found
    · cases found
      trivial
    · contradiction
  · contradiction

theorem foundAs_array (g : Ground) (container : Builtin) {o p : Option ColumnMapper}
    (found : ColumnsFound g.fresh o p) :
    ColumnsFound g.fresh (g.arrayWith container o) (g.arrayWith container p) := by
  rcases found.cases with ⟨rfl, rfl⟩ | ⟨m, m', rfl, rfl, twins, _⟩
  · exact foundAs_none
  · cases m <;> cases m' <;> try cases twins
    case value.value origin target origin' target' =>
      obtain ⟨origins, rfl⟩ := ColumnMapper.value.inj twins
      refine foundAs_some ?_ trivial
      simp only [Twins, Serial.upTo, origins]
    all_goals exact foundAs_none

theorem arrayFor_akin {d e : Descriptor} (alike : d.Alike e)
    {x y : Option (Except Failure (Option ColumnMapper))}
    (elements : Option.Rel (Akin (ColumnsFound g.fresh)) x y) :
    Akin (ColumnsFound g.fresh) (g.arrayFor d x) (g.arrayFor e y) := by
  unfold arrayFor
  rw [container_alike alike]
  cases Registry.container? e with
  | none => cases elements <;> exact foundAs_none
  | some container =>
    cases elements with
    | none => exact foundAs_none
    | some akin => exact akin.map fun _ _ => g.foundAs_array container

theorem reflectiveFor_alike (g : Ground) (targets : Option (List RawType)) (lead : String)
    {d e : Descriptor} (alike : d.Alike e) :
    g.reflectiveFor targets lead d = g.reflectiveFor targets lead e := by
  rcases alike.raw_cases with ⟨cls, hd, he⟩ | ⟨hd, he⟩
  · simp only [reflectiveFor, hd, he]
  · have missing : ∀ z : Descriptor, (∀ cls, z.raw ≠ .cls cls) → z.raw.class? = none := by
      intro z other
      cases raw : z.raw with
      | cls cls => exact absurd raw (other cls)
      | _ => rfl
    simp [reflectiveFor, missing d hd, missing e he]

theorem reflectiveFor_akin (g : Ground) (targets : Option (List RawType)) (lead : String)
    {d e : Descriptor} (alike : d.Alike e) {α : Type} [Serial α] {good : α → Prop}
    {made : ReflectiveMapper → α} (own : ∀ m, good (made m)) :
    Akin (FoundAs g.fresh good) ((g.reflectiveFor targets lead d).map (Option.map made))
      ((g.reflectiveFor targets lead e).map (Option.map made)) := by
  rw [g.reflectiveFor_alike targets lead alike]
  cases g.reflectiveFor targets lead e with
  | error e => trivial
  | ok o => exact ⟨.refl _, by simp [own]⟩

theorem foundAs_claimed {n : Nat} {f : CustomFactory} (matched : f.Matched .loose n f) {α : Type} [Serial α]
    {good : α → Prop} {made : CustomMapper → α} (own : good (made f.mapper)) {d e : Descriptor}
    (alike : d.Alike e) :
    FoundAs n good (if f.claims d then some (made f.mapper) else none)
      (if f.claims e then some (made f.mapper) else none) := by
  rw [matched.claims d e alike]
  split
  · exact foundAs_some (.refl _) own
  · exact foundAs_none

theorem foundAs_fixed {n : Nat} {α : Type} [Serial α] {good : α → Prop} {m : α} (own : good m)
    (target : Descriptor) {d e : Descriptor} (alike : d.Alike e) :
    FoundAs n good (if d.boxed.same target then some m else none)
      (if e.boxed.same target then some m else none) := by
  rw [alike.same_eq target]
  split
  · exact foundAs_some (.refl _) own
  · exact foundAs_none

section Look

variable {look : Solution} (uniform : look.Uniform g.fresh)
include uniform

theorem askColumn_akin {d e : Descriptor} (alike : d.Alike e)
    {x y : Option (Except Failure (Option ColumnMapper))}
    (elements : Option.Rel (Akin (ColumnsFound g.fresh)) x y) {f : ColumnFactory}
    (matched : f.Matched .loose g.fresh f) :
    Akin (ColumnsFound g.fresh) (g.askColumn look d x f) (g.askColumn look e y f) := by
  cases matched with
  | scalars => exact foundAs_scalar g.schema _ _ alike
  | arrays => exact arrayFor_akin alike elements
  | fixed target _ own => exact foundAs_fixed own target alike
  | custom matched => exact foundAs_claimed matched matched.stateless alike
  | written name asks => exact Procedure.told_akin uniform (asks d e alike)
  | reflective targets lead => exact g.reflectiveFor_akin targets lead alike fun _ => trivial

variable (pure : g.Pure)
include pure

theorem columnAs_akin {d e : Descriptor} (alike : d.Alike e) (nullable : Bool) :
    Akin (ColumnsFound g.fresh) (g.columnAs look d nullable) (g.columnAs look e nullable) := by
  induction d using Descriptor.induct_args generalizing e nullable with
  | step d ih =>
  have elements : Option.Rel (Akin (ColumnsFound g.fresh)) (g.element look d.args)
      (g.element look e.args) := by
    cases hd : d.args <;> cases he : e.args <;>
      have args := alike.args <;> rw [hd, he] at args <;> cases args
    · exact .none
    · next head _ => exact .some (ih _ (hd ▸ List.mem_cons_self) head true)
  obtain ⟨raw, args, n⟩ := d
  obtain ⟨raw', args', n'⟩ := e
  have key : (Descriptor.mk raw args nullable).Alike (.mk raw' args' nullable) :=
    Manner.loose.admitting nullable alike
  unfold columnAs
  rw [g.registry.columns.cached_alike key]
  split
  · next m hit => exact foundAs_some (.refl m) (Chain.cached_good pure.keptColumns hit)
  · exact .scan (fun _ _ found => found.1.isSome_eq) foundAs_none fun f member =>
      askColumn_akin uniform key elements (pure.columns f member).2

theorem element_akin {ds es : List Descriptor} (alike : List.Forall₂ Descriptor.Alike ds es) :
    Option.Rel (Akin (ColumnsFound g.fresh)) (g.element look ds) (g.element look es) := by
  cases alike with
  | nil => exact .none
  | cons one _ => exact .some (columnAs_akin uniform pure one true)

theorem askRow_akin {d e : Descriptor} (alike : d.Alike e) {f : RowFactory}
    (matched : f.Matched .loose g.fresh f) :
    Akin (RowsFound g.fresh) (g.askRow look d f) (g.askRow look e f) := by
  cases matched with
  | reflective targets lead => exact g.reflectiveFor_akin targets lead alike fun _ => trivial
  | fixed target _ own => exact foundAs_fixed own target alike
  | custom matched => exact foundAs_claimed matched matched.stateless alike
  | written name asks => exact Procedure.told_akin uniform (asks d e alike)
  | scalars => exact Abreast.misplaced (foundAs_scalar g.schema _ _ alike)
  | arrays =>
    exact (arrayFor_akin alike (element_akin uniform pure alike.args)).map fun _ _ => Abreast.misplaced

omit uniform pure in
theorem foundAs_single (n index serial : Nat) {o p : Option ColumnMapper} (found : ColumnsFound n o p) :
    RowsFound n (o.map fun m => .single serial m index) (p.map fun m => .single serial m index) := by
  rcases found.cases with ⟨rfl, rfl⟩ | ⟨m, m', rfl, rfl, twins, own⟩
  · exact foundAs_none
  · refine foundAs_some ?_ own
    have same : Serial.upTo n m = Serial.upTo n m' := twins
    simp only [Twins, Serial.upTo] at same ⊢
    rw [same]

theorem buildRow_akin {d e : Descriptor} (alike : d.Alike e) :
    Akin (RowsFound g.fresh) (g.buildRow look d) (g.buildRow look e) := by
  refine Akin.bind (S := RowsFound g.fresh) ?_ fun o p found => ?_
  · exact .scan (fun _ _ found => found.1.isSome_eq) foundAs_none fun f member =>
      askRow_akin uniform pure alike (pure.rows f member).2
  · rcases found.cases with ⟨rfl, rfl⟩ | ⟨m, m', rfl, rfl, twins, own⟩
    · dsimp only [singleFor]
      rw [alike.nullable]
      exact (columnAs_akin uniform pure alike _).map fun _ _ => foundAs_single _ _ _
    · exact foundAs_some twins own

end Look

theorem solution_uniform (pure : g.Pure) (depth : Nat) : (g.solution depth).Uniform g.fresh := by
  induction depth with
  | zero => exact ⟨fun _ _ _ => trivial, fun _ _ _ => trivial⟩
  | succ depth ih =>
    refine ⟨fun d e alike => ?_, fun d e alike => ?_⟩
    · simp only [solution, alike.nullable]
      exact columnAs_akin ih pure alike _
    · simp only [solution, rowAs]
      rw [g.registry.rows.cached_alike alike]
      split
      · next m hit => exact foundAs_some (.refl m) (Chain.cached_good pure.keptRows hit)
      · exact buildRow_akin ih pure alike

end Ground
end Uniform
end RowMapping
