import RowMapping.Convert.Scalar

/-! No scalar conversion makes null of a value, but one: a member of an enumeration whose value is null
counts as that null where an integer is asked for. -/
namespace RowMapping

/-- A member of an enumeration that stands for null. -/
def Value.Hollow (v : Value) : Prop := ∃ cls base name, v = .member cls base name .null

theorem Value.isNull_iff {v : Value} : v.isNull = true ↔ v = .null := by
  cases v <;> simp [Value.isNull]

namespace Scalar

def Solid (o : Outcome) : Prop := o ≠ .ok .null

@[simp] theorem solid_error (r : Rejection) : Solid (.error r) := by simp [Solid]

@[simp] theorem solid_ok {v : Value} : Solid (.ok v) ↔ v ≠ .null := by simp [Solid]

theorem solid_map {α : Type} {f : α → Value} (solid : ∀ a, f a ≠ .null) (x : Except Rejection α) :
    Solid (x.map f) := by
  cases x with
  | error r => exact solid_error r
  | ok a => exact solid_ok.mpr (solid a)

@[simp] theorem solid_elim {α : Type} {o : Option α} {r : Rejection} {f : α → Outcome}
    (solid : ∀ a, Solid (f a)) : Solid (o.elim (.error r) f) := by
  cases o with
  | none => exact solid_error r
  | some a => exact solid a

theorem toInt_solid {v : Value} (solid : ¬ v.Hollow) : Solid (toInt false v) := by
  have int : ∀ x : Except Rejection Int, Solid (x.map .int) := solid_map (by simp)
  unfold toInt
  split
  · simp
  · simp
  · simp only [Bool.false_eq_true, if_false]
    split
    · simp
    · exact int _
    · exact int _
    · split
      · exact int _
      · simp
    · split
      · exact int _
      · simp
    · split
      · exact int _
      · simp
    · refine solid_ok.mpr ?_
      rintro rfl
      exact solid ⟨_, _, _, rfl⟩
    · simp

@[simp] theorem binaryOfInt_solid (n : Int) : Solid (binaryOfInt n) := by
  unfold binaryOfInt
  dsimp only
  split <;> simp

theorem toFloat_solid (v : Value) : Solid (toFloat false v) := by
  unfold toFloat
  repeat' split
  all_goals simp at *

@[simp] theorem truthOfInt_solid (n : Int) : Solid (truthOfInt n) := by
  unfold truthOfInt
  repeat' split
  all_goals simp

@[simp] theorem truthOfBinary64_solid (x : Number.Binary64) : Solid (truthOfBinary64 x) := by
  unfold truthOfBinary64
  split <;> simp

@[simp] theorem truthOfWhole_solid (n : Int) : Solid (truthOfWhole n) := by
  unfold truthOfWhole
  split <;> simp

theorem toBool_solid (v : Value) : Solid (toBool false v) := by
  unfold toBool
  split
  · simp
  · simp only [Bool.false_eq_true, if_false]
    repeat' split
    all_goals simp

theorem toText_solid (v : Value) : Solid (toText false v) := by
  unfold toText
  split
  · simp
  · simp
  · simp only [Bool.false_eq_true, if_false]
    split <;> simp

@[simp] theorem finiteDecimal_solid (d : Number.Decimal) : Solid (finiteDecimal d) := by
  unfold finiteDecimal
  split <;> simp

@[simp] theorem decimalOfText_solid (s : String) : Solid (decimalOfText s) := by
  unfold decimalOfText
  split <;> simp

theorem toDecimal_solid (v : Value) : Solid (toDecimal false v) := by
  unfold toDecimal
  repeat' split
  all_goals simp at *

theorem toBytes_solid (v : Value) : Solid (toBytes false v) := by
  unfold toBytes
  repeat' split
  all_goals simp at *

@[simp] theorem keepDate_solid (d : Time.Date) : Solid (keepDate d) := by
  unfold keepDate
  split <;> simp

@[simp] theorem keepMoment_solid (d : Time.DateTime) : Solid (keepMoment d) := by
  unfold keepMoment
  split <;> simp

theorem toMoment_solid (v : Value) : Solid (toMoment false v) := by
  unfold toMoment
  repeat' split
  all_goals simp at *

@[simp] theorem dateOfMoment_solid (v : Value) : Solid (dateOfMoment v) := by
  unfold dateOfMoment
  repeat' split
  all_goals simp

theorem toDate_solid (v : Value) : Solid (toDate false v) := by
  unfold toDate
  repeat' split
  all_goals simp at *

@[simp] theorem keepTime_solid (r : Time.Read Time.TimeOfDay) : Solid (keepTime r) := by
  cases r <;> simp [keepTime]

theorem toTime_solid (v : Value) : Solid (toTime false v) := by
  unfold toTime
  repeat' split
  all_goals simp at *

@[simp] theorem keepSpan_solid (r : Time.Read Time.Span) : Solid (keepSpan r) := by
  cases r <;> simp [keepSpan]

theorem toSpan_solid (v : Value) : Solid (toSpan false v) := by
  unfold toSpan
  split
  · simp
  · simp only [Bool.false_eq_true, if_false]
    split
    · exact keepSpan_solid _
    · split
      · exact keepSpan_solid _
      · exact keepSpan_solid _
      · simp

@[simp] theorem keepUuid_solid (r : Except UuidFault Uuid) : Solid (keepUuid r) := by
  cases r <;> simp [keepUuid]

theorem toUuid_solid (v : Value) : Solid (toUuid false v) := by
  unfold toUuid
  repeat' split
  all_goals simp at *

theorem ofValue_ne_null {spec : EnumSpec} {v m : Value} (known : spec.ofValue? v = some m) :
    m ≠ .null := by
  obtain ⟨e, _, rfl⟩ := Option.map_eq_some_iff.mp known
  simp [EnumSpec.memberOf]

theorem toMember_solid (spec : EnumSpec) (v : Value) : Solid (toMember spec false v) := by
  unfold toMember
  dsimp only
  split
  · repeat' split
    all_goals simp
  · simp only [Bool.false_eq_true, if_false]
    split
    · next m found =>
      obtain ⟨x, _, known⟩ := Option.bind_eq_some_iff.mp found
      exact solid_ok.mpr (ofValue_ne_null known)
    · split <;> simp

/-- A conversion that yields null was given null, or else a member that stands for it. -/
theorem convert_solid (s : Scalar) {v : Value} (solid : ¬ v.Hollow) :
    Solid (s.convert false v) := by
  cases s with
  | int => exact toInt_solid solid
  | float => exact toFloat_solid v
  | bool => exact toBool_solid v
  | text => exact toText_solid v
  | bytes => exact toBytes_solid v
  | decimal => exact toDecimal_solid v
  | datetime => exact toMoment_solid v
  | date => exact toDate_solid v
  | time => exact toTime_solid v
  | span => exact toSpan_solid v
  | uuid => exact toUuid_solid v
  | enumeration spec => exact toMember_solid spec v
  | anyMember => cases v <;> simp [convert]

end Scalar
end RowMapping
