import RowMapping.Proofs.Mapper.Parallel

/-! Mappers of the caller side by side. Where the questions that they put have the same answers, those that keep
no state compute the same. The settings of the two sessions may differ, as far as the mappers do not heed it. -/
namespace RowMapping

open MappingM

/-! ### Settings that make no difference -/

/-- Told settings that are alike, and the same of everything else, both do the same. -/
inductive Script.Like (alike : Settings → Settings → Prop) : Script → Script → Prop
  | yield (v : Value) : Like alike (.yield v) (.yield v)
  | raise (r : Raise) : Like alike (.raise r) (.raise r)
  | settings {next next' : Settings → Script} : (∀ s t, alike s t → Like alike (next s) (next' t)) →
      Like alike (.ask .settings next) (.ask .settings next')
  | ask {q : Question} {next next' : q.Answer → Script} : q ≠ .settings → (∀ a, Like alike (next a) (next' a)) →
      Like alike (.ask q next) (.ask q next')

theorem Script.Like.of_eq (script : Script) : Script.Like (· = ·) script script := by
  induction script with
  | yield v => exact .yield v
  | raise r => exact .raise r
  | ask q next ih =>
    by_cases asked : q = .settings
    · subst asked
      exact .settings fun s t same => same ▸ ih s
    · exact .ask asked ih

def Behaviour.Blind (alike : Settings → Settings → Prop) : Behaviour → Prop
  | .written script => ∀ index, Script.Like alike (script index) (script index)
  | _ => True

theorem Behaviour.Blind.of_eq (b : Behaviour) : b.Blind (· = ·) := by
  cases b with
  | written script => exact fun index => .of_eq (script index)
  | const | raw | zero | tag | peek | wasNull | join | count | delegate | raise => trivial

/-! ### What a mapper computes -/

/-- Two sessions in which questions have the same answers, but for settings that are alike. -/
structure Conversant (l : Leniency) (R : World → World → Prop) (alike : Settings → Settings → Prop) (h k : Hooks)
    (c d : Context) : Prop where
  settings : Together l R alike (settings c) (settings d)
  columnFor : ∀ key, Together l R (fun o p => o.isSome = p.isSome) (h.findColumn c key) (k.findColumn d key)
  rowFor : ∀ key, Together l R (fun o p => o.isSome = p.isSome) (h.findRow c key) (k.findRow d key)
  column : ∀ type index row, Together l R (· = ·) (h.column c type index row) (k.column d type index row)
  row : ∀ type row, Together l R (· = ·) (h.row c type row) (k.row d type row)

theorem together_join {l : Leniency} {R : World → World → Prop} :
    TogetherOver l R (· = ·)
      (do let names := (← get).columns
          let pairs ← (names.zipIdx).mapM fun p => do return Value.list [.text p.1, ← Reading.column p.2]
          return Value.list pairs : Reading Value)
      (do let names := (← get).columns
          let pairs ← (names.zipIdx).mapM fun p => do return Value.list [.text p.1, ← Reading.column p.2]
          return Value.list pairs : Reading Value) := by
  refine TogetherOver.get.bind_same fun row => ?_
  have pair : ∀ p : String × Nat, TogetherOver l R (· = ·)
      (do return Value.list [.text p.1, ← Reading.column p.2] : Reading Value)
      (do return Value.list [.text p.1, ← Reading.column p.2] : Reading Value) := by
    intro p
    refine (together_columnOf _).bind_same fun v => ?_
    exact .pure rfl
  refine (TogetherOver.mapM pair _).bind fun vs vs' same => ?_
  rw [List.forall₂_eq_eq_eq] at same
  exact .pure (congrArg Value.list same)

namespace Conversant

variable {l : Leniency} {R : World → World → Prop} {alike : Settings → Settings → Prop} {h k : Hooks}
  {c d : Context} (conversant : Conversant l R alike h k c d)
include conversant

theorem columnOver (index : Int) (type : TypeExpr) :
    TogetherOver l R (· = ·) (fun row => h.column c type index row) (fun row => k.column d type index row) :=
  fun row => (conversant.column type index row).mono fun _ _ same => ⟨congrArg Prod.fst same, congrArg Prod.snd same⟩

theorem rowOver (type : TypeExpr) :
    TogetherOver l R (· = ·) (fun row => h.row c type row) (fun row => k.row d type row) :=
  fun row => (conversant.row type row).mono fun _ _ same => ⟨congrArg Prod.fst same, congrArg Prod.snd same⟩

theorem put {q : Question} (other : q ≠ .settings) : TogetherOver l R (· = ·) (q.put h c) (q.put k d) := by
  cases q with
  | value index => exact together_columnOf index
  | wasNull => exact together_wasNull
  | columns => exact TogetherOver.get.bind fun _ _ same => .pure (congrArg Row.columns same)
  | settings => contradiction
  | hasColumn type => exact (TogetherOver.lift (conversant.columnFor type)).bind fun _ _ same => .pure same
  | hasRow type => exact (TogetherOver.lift (conversant.rowFor type)).bind fun _ _ same => .pure same
  | column type index => exact conversant.columnOver index type
  | row type => exact conversant.rowOver type
  | rowOf type cells =>
    exact (TogetherOver.lift (conversant.row type cells)).bind fun _ _ same => .pure (congrArg Prod.fst same)

theorem follow {p q : Script} (like : p.Like alike q) : TogetherOver l R (· = ·) (p.follow h c) (q.follow k d) := by
  -- On why the two are alike: whatever they are told next, they are alike again.
  induction like with
  | yield v => exact .pure rfl
  | raise r => exact .throw _
  | settings _ ih => exact (TogetherOver.lift conversant.settings).bind ih
  | ask other _ ih => exact (conversant.put other).bind_same ih

variable {delegate delegate' : TypeExpr → Reading Value}
  (delegates : ∀ type, TogetherOver l R (· = ·) (delegate type) (delegate' type)) {m : CustomMapper}
  (blind : m.spec.behaviour.Blind alike) (counts : m.spec.behaviour ≠ .count) (index : Option Int)
include delegates blind counts

theorem compute : TogetherOver l R (· = ·) (m.compute h c delegate index) (m.compute k d delegate' index) := by
  have read : ∀ i, TogetherOver l R (· = ·) (do Reading.column (← requireIndex i) : Reading Value)
      (do Reading.column (← requireIndex i) : Reading Value) := by
    intro i
    refine (together_requireIndex i).bind_same fun j => ?_
    exact together_columnOf j
  unfold CustomMapper.compute
  cases behaves : m.spec.behaviour with
  | const v => exact .pure rfl
  | raw => exact read index
  | zero v =>
    refine (together_requireIndex index).bind_same fun j => ?_
    refine (together_columnOf j).bind_same fun v => ?_
    exact .pure rfl
  | tag label =>
    refine (together_requireIndex index).bind_same fun j => ?_
    refine (together_columnOf j).bind_same fun v => ?_
    exact .pure rfl
  | peek v =>
    refine (together_requireIndex _).bind_same fun j => ?_
    exact (together_columnOf j).bind fun _ _ _ => .pure rfl
  | wasNull =>
    refine together_wasNull.bind_same fun b => ?_
    exact .pure rfl
  | join => exact together_join
  | count => exact absurd behaves counts
  | delegate type => exact delegates type
  | raise r => exact .throw _
  | written script =>
    rw [behaves] at blind
    exact conversant.follow (blind index)

theorem run : TogetherOver l R (· = ·) (m.run h c delegate index) (m.run k d delegate' index) := by
  unfold CustomMapper.run
  split
  · exact .throw _
  · exact conversant.compute delegates blind counts index

end Conversant
end RowMapping
