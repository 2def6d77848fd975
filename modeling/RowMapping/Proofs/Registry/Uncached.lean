import RowMapping.Proofs.Registry.Findings
import RowMapping.Proofs.Types.Sameness

/-! What column factories come to when nothing is kept. The answer for a type is computed from the
factories alone, with look-ups nested so and so deep. It depends on the type only up to sameness. -/
namespace RowMapping

open MappingM

abbrev Oracle := Descriptor → Finding

/-! ### Types as keys -/

def Descriptor.Alike (d e : Descriptor) : Prop := d = e ∨ d.same e = true

namespace Descriptor

theorem Alike.refl (d : Descriptor) : d.Alike d := .inl rfl

theorem Alike.symm {d e : Descriptor} (alike : d.Alike e) : e.Alike d := by
  rcases alike with rfl | same
  · exact .inl rfl
  · exact .inr (same_symm same)

theorem Alike.same_eq {d e : Descriptor} (alike : d.Alike e) (t : Descriptor) :
    d.boxed.same t = e.boxed.same t := by
  rcases alike with rfl | same
  · rfl
  · exact same_congr (same_boxed same) t

theorem Alike.raw_cls {d e : Descriptor} (alike : d.Alike e) {c : ClassRef}
    (known : d.raw = .cls c) : e.raw = .cls c := by
  rcases alike with rfl | same
  · exact known
  · have raws := (same_iff.mp same).1
    rw [known] at raws
    cases h : e.raw <;> simp_all [RawType.same]

theorem Alike.raw_cases {d e : Descriptor} (alike : d.Alike e) :
    (∃ c, d.raw = .cls c ∧ e.raw = .cls c) ∨ (∀ c, d.raw ≠ .cls c) ∧ ∀ c, e.raw ≠ .cls c := by
  by_cases known : ∃ c, d.raw = .cls c
  · obtain ⟨c, hc⟩ := known
    exact .inl ⟨c, hc, alike.raw_cls hc⟩
  · refine .inr ⟨fun c hc => known ⟨c, hc⟩, fun c hc => known ⟨c, alike.symm.raw_cls hc⟩⟩

theorem Alike.args {d e : Descriptor} (alike : d.Alike e) :
    List.Forall₂ Alike d.args e.args := by
  rcases alike with rfl | same
  · exact List.forall₂_same.mpr fun d _ => Alike.refl d
  · exact (same_iff.mp same).2.2.imp fun _ _ => .inr

end Descriptor

/-! ### Answers -/

/-- What following a procedure finds. Its commands do not bear on that, and a look-up of a row is
not answered here. -/
def Procedure.reply (look : Oracle) : Procedure Command ColumnMapper → Finding
  | .answer m => some m
  | .raise _ => none
  | .column type next => (look type).bind fun found => reply look (next found)
  | .row _ _ => none
  | .perform _ next => reply look next

def scalarFor (s : Schema) (origin : Nat) (key : Descriptor) : Option ColumnMapper :=
  match key.raw with
  | .cls c => if key.args.isEmpty && Registry.isScalar s c then some (.value origin c) else none
  | _ => none

def arrayWith (container : Builtin) : Option ColumnMapper → Option ColumnMapper
  | some (.value origin target) => some (.array 0 container origin target)
  | _ => none

def arrayFor (key : Descriptor) (element : Option Finding) : Finding :=
  match Registry.container? key, element with
  | some container, some found => found.map (arrayWith container)
  | _, _ => some none

/-- What a factory answers for a type, where `look` finds other types and `element` was found for the
type of the items. A reflective factory has no answer that depends on the type alone. -/
def ColumnFactory.answer (s : Schema) (look : Oracle) (key : Descriptor)
    (element : Option Finding) : ColumnFactory → Finding
  | .scalars origin => some (scalarFor s origin key)
  | .arrays => arrayFor key element
  | .fixed target mapper => some (if key.boxed.same target then some mapper else none)
  | .custom f => some (if f.claims key then some (.custom f.mapper) else none)
  | .written _ ask => (ask key).reply look
  | .reflective .. => none

mutual

def findingAs (s : Schema) (fs : List ColumnFactory) (look : Oracle) : Descriptor → Bool → Finding
  | .mk raw args _, nullable =>
    Chain.scan (ColumnFactory.answer s look (.mk raw args nullable) (findingElement s fs look args)) fs

def findingElement (s : Schema) (fs : List ColumnFactory) (look : Oracle) :
    List Descriptor → Option Finding
  | [] => none
  | d :: _ => some (findingAs s fs look d true)

end

/-- What scanning the factories with an empty cache finds for a type, with look-ups of factories
nested less than `depth` deep. -/
def uncached (s : Schema) (fs : List ColumnFactory) : Nat → Oracle
  | 0, _ => none
  | depth + 1, key => findingAs s fs (uncached s fs depth) key key.nullable

/-! ### Answers that depend on the type and on look-ups alone -/

/-- Procedures that ask for the same types and, told the same, answer the same. Neither looks up
rows. -/
inductive Procedure.Like :
    Procedure Command ColumnMapper → Procedure Command ColumnMapper → Prop
  | answer {m n : Option ColumnMapper} : FoundAlike m n → Like (.answer m) (.answer n)
  | raise (r t : Raise) : Like (.raise r) (.raise t)
  | column {d e : Descriptor} {next next' : Option ColumnMapper → Procedure Command ColumnMapper} :
      d.Alike e → (∀ x y, FoundAlike x y → Like (next x) (next' y)) →
        Like (.column d next) (.column e next')
  | performLeft {p q : Procedure Command ColumnMapper} (commands : Nat → List Command) :
      Like p q → Like (.perform commands p) q
  | performRight {p q : Procedure Command ColumnMapper} (commands : Nat → List Command) :
      Like p q → Like p (.perform commands q)

/-- The answer of the factory for a type depends only on the type and on the column look-ups that it
makes. -/
def ColumnFactory.Dependable : ColumnFactory → Prop
  | .scalars _ | .arrays | .fixed .. => True
  | .custom f => ∀ d e, d.same e = true → f.claims d = f.claims e
  | .written _ ask => ∀ d e, d.Alike e → (ask d).Like (ask e)
  | .reflective .. => False

def Oracle.Uniform (look : Oracle) : Prop := ∀ d e, d.Alike e → Agree (look d) (look e)

theorem Procedure.Like.reply_agree {look : Oracle} (uniform : look.Uniform)
    {p q : Procedure Command ColumnMapper} (like : p.Like q) : Agree (p.reply look) (q.reply look) := by
  induction like with
  | answer alike => exact congrArg some alike
  | raise r t => rfl
  | column alike _ ih => exact (uniform _ _ alike).bind ih
  | performLeft _ _ ih => exact ih
  | performRight _ _ ih => exact ih

theorem scalarFor_of_not_cls {s : Schema} {origin : Nat} {d : Descriptor}
    (other : ∀ c, d.raw ≠ .cls c) : scalarFor s origin d = none := by
  unfold scalarFor
  split
  · next c hc => exact absurd hc (other c)
  · rfl

theorem container_alike {d e : Descriptor} (alike : d.Alike e) :
    Registry.container? d = Registry.container? e := by
  rcases alike.raw_cases with ⟨c, hd, he⟩ | ⟨hd, he⟩
  · simp only [Registry.container?, hd, he]
  · have missing : ∀ f : Descriptor, (∀ c, f.raw ≠ .cls c) → Registry.container? f = none := by
      intro f other
      unfold Registry.container?
      split
      · next b hb => exact absurd hb (other _)
      · rfl
    rw [missing d hd, missing e he]

theorem arrayWith_alike (container : Builtin) {o p : Option ColumnMapper} (alike : FoundAlike o p) :
    FoundAlike (arrayWith container o) (arrayWith container p) := by
  cases p with
  | none => rw [foundAlike_none alike]; rfl
  | some n =>
    obtain ⟨m, rfl, same⟩ := foundAlike_some alike
    cases n with
    | value origin target => rw [same.value]; rfl
    | array | raw | custom | misplaced => cases m <;> first | rfl | cases same

theorem scalarFor_alike (s : Schema) (origin : Nat) {d e : Descriptor} (alike : d.Alike e) :
    scalarFor s origin d = scalarFor s origin e := by
  have empty : d.args.isEmpty = e.args.isEmpty := by
    have lengths := alike.args.length_eq
    cases hd : d.args <;> cases he : e.args <;> simp_all
  rcases alike.raw_cases with ⟨c, hd, he⟩ | ⟨hd, he⟩
  · simp only [scalarFor, hd, he, empty]
  · rw [scalarFor_of_not_cls hd, scalarFor_of_not_cls he]

theorem arrayFor_agree {d e : Descriptor} (alike : d.Alike e) {x y : Option Finding}
    (elements : Option.Rel Agree x y) : Agree (arrayFor d x) (arrayFor e y) := by
  unfold arrayFor
  rw [container_alike alike]
  cases Registry.container? e with
  | none => cases elements <;> rfl
  | some container =>
    cases elements with
    | none => rfl
    | some agree =>
      simp only [Option.map_eq_bind]
      exact agree.bind fun o p alike => congrArg some (arrayWith_alike container alike)

theorem ColumnFactory.answer_agree {s : Schema} {look : Oracle} (uniform : look.Uniform)
    {d e : Descriptor} (alike : d.Alike e) {x y : Option Finding} (elements : Option.Rel Agree x y)
    {f : ColumnFactory} (dependable : f.Dependable) :
    Agree (f.answer s look d x) (f.answer s look e y) := by
  cases f with
  | scalars origin => exact congrArg (some ∘ Option.map Numbered.anonymous) (scalarFor_alike s origin alike)
  | arrays => exact arrayFor_agree alike elements
  | fixed target mapper => simp only [answer, alike.same_eq]; rfl
  | custom f =>
    have claims : f.claims d = f.claims e := by
      rcases alike with rfl | same
      · rfl
      · exact dependable d e same
    simp only [answer, claims]; rfl
  | written name ask => exact (dependable d e alike).reply_agree uniform
  | reflective targets lead => contradiction

theorem findingAs_agree {s : Schema} {fs : List ColumnFactory} {look : Oracle}
    (dependable : ∀ f ∈ fs, f.Dependable) (uniform : look.Uniform) {d e : Descriptor}
    (alike : d.Alike e) (nullable : Bool) :
    Agree (findingAs s fs look d nullable) (findingAs s fs look e nullable) := by
  induction d using Descriptor.induct_args generalizing e nullable with
  | step d ih =>
  have elements : Option.Rel Agree (findingElement s fs look d.args)
      (findingElement s fs look e.args) := by
    cases hd : d.args <;> cases he : e.args <;>
      have args := alike.args <;> rw [hd, he] at args <;> cases args
    · exact .none
    · next head _ => exact .some (ih _ (hd ▸ List.mem_cons_self) head true)
  obtain ⟨raw, args, n⟩ := d
  obtain ⟨raw', args', n'⟩ := e
  have key : (Descriptor.mk raw args nullable).Alike (.mk raw' args' nullable) := by
    rcases alike with h | same
    · cases h
      exact .refl _
    · obtain ⟨raws, _, arguments⟩ := Descriptor.same_iff.mp same
      exact .inr (Descriptor.same_iff.mpr ⟨raws, rfl, arguments⟩)
  exact Agree.scan fun f hf => ColumnFactory.answer_agree uniform key elements (dependable f hf)

theorem uncached_uniform {s : Schema} {fs : List ColumnFactory}
    (dependable : ∀ f ∈ fs, f.Dependable) (depth : Nat) : (uncached s fs depth : Oracle).Uniform := by
  induction depth with
  | zero => exact fun _ _ _ => rfl
  | succ depth ih =>
    intro d e alike
    have nullable : d.nullable = e.nullable := by
      rcases alike with rfl | same
      · rfl
      · exact (Descriptor.same_iff.mp same).2.1
    simp only [uncached, nullable]
    exact findingAs_agree dependable ih alike _

/-! ### Deeper look-ups find more -/

def Oracle.Below (look look' : Oracle) : Prop := ∀ d o, look d = some o → look' d = some o

theorem Procedure.reply_below {look look' : Oracle} (below : look.Below look')
    {p : Procedure Command ColumnMapper} {o : Option ColumnMapper} (found : p.reply look = some o) :
    p.reply look' = some o := by
  induction p with
  | answer m => exact found
  | raise r => contradiction
  | column type next ih =>
    simp only [reply, Option.bind_eq_some_iff] at found ⊢
    obtain ⟨x, hx, found⟩ := found
    exact ⟨x, below _ _ hx, ih x found⟩
  | row type next => contradiction
  | perform commands next ih => exact ih found

theorem arrayFor_below {d : Descriptor} {x y : Option Finding}
    (elements : Option.Rel (fun x y => ∀ o, x = some o → y = some o) x y)
    {o : Option ColumnMapper} (found : arrayFor d x = some o) : arrayFor d y = some o := by
  unfold arrayFor at found ⊢
  generalize Registry.container? d = container at found ⊢
  cases container with
  | none => cases elements <;> exact found
  | some container =>
    cases elements with
    | none => exact found
    | some below =>
      obtain ⟨p, hp, rfl⟩ := Option.map_eq_some_iff.mp found
      exact Option.map_eq_some_iff.mpr ⟨p, below p hp, rfl⟩

theorem ColumnFactory.answer_below {s : Schema} {look look' : Oracle} (below : look.Below look')
    {d : Descriptor} {x y : Option Finding}
    (elements : Option.Rel (fun x y => ∀ o, x = some o → y = some o) x y) (f : ColumnFactory)
    (o : Option ColumnMapper) (found : f.answer s look d x = some o) :
    f.answer s look' d y = some o := by
  cases f with
  | arrays => exact arrayFor_below elements found
  | written name ask => exact Procedure.reply_below below found
  | scalars | fixed | custom | reflective => exact found

theorem findingAs_below {s : Schema} {fs : List ColumnFactory} {look look' : Oracle}
    (below : look.Below look') {d : Descriptor} {nullable : Bool} {o : Option ColumnMapper}
    (found : findingAs s fs look d nullable = some o) : findingAs s fs look' d nullable = some o := by
  induction d using Descriptor.induct_args generalizing nullable o with
  | step d ih =>
  obtain ⟨raw, args, n⟩ := d
  refine scan_below (ColumnFactory.answer_below below ?_) found
  cases args with
  | nil => exact .none
  | cons a as => exact .some fun p hp => ih a List.mem_cons_self hp

theorem uncached_mono {s : Schema} {fs : List ColumnFactory} {m n : Nat} (le : m ≤ n) :
    (uncached s fs m : Oracle).Below (uncached s fs n) := by
  induction m generalizing n with
  | zero =>
    intro d o found
    contradiction
  | succ m ih =>
    cases n with
    | zero => omega
    | succ n =>
      intro d o found
      exact findingAs_below (ih (by omega)) found

end RowMapping
