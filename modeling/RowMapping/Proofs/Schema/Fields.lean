import Mathlib.Data.List.Nodup
import RowMapping.Schema.Property

/-! The fields of declared records and models. A class takes over the fields of its bases, and no name
stands for two of them. -/
namespace RowMapping

def Class.Distinct (c : Class) : Prop := (c.shape.fields.map (·.name)).Nodup

theorem Property.of_name (name : String) (type : TypeExpr) (metadata : List Mark) :
    (Property.of name type metadata).name = name := by
  have keeps : ∀ (g : Property → Mark → Property), (∀ p m, (g p m).name = p.name) →
      ∀ (ms : List Mark) (p : Property), (ms.foldl g p).name = p.name := by
    intro g same ms
    induction ms with
    | nil => exact fun p => rfl
    | cons m ms ih => exact fun p => (ih (g p m)).trans (same p m)
  exact keeps _ (fun p m => by cases m <;> rfl) _ _

theorem put_nodup {α : Type} {name : α → String} {kept : List α} (distinct : (kept.map name).Nodup) (a : α) :
    ((if kept.any (name · = name a) then kept.map fun b => if name b = name a then a else b
      else kept ++ [a]).map name).Nodup := by
  split
  · have names : (kept.map fun b => if name b = name a then a else b).map name = kept.map name := by
      rw [List.map_map]
      refine List.map_congr_left fun b _ => ?_
      simp only [Function.comp_apply]
      split
      · next same => exact same.symm
      · rfl
    rw [names]
    exact distinct
  · next new =>
    rw [List.map_append, List.nodup_append]
    refine ⟨distinct, by simp, ?_⟩
    intro n hn n' hn' same
    obtain ⟨b, hb, rfl⟩ := List.mem_map.mp hn
    rw [List.map_singleton, List.mem_singleton] at hn'
    exact new (List.any_eq_true.mpr ⟨b, hb, decide_eq_true (same.trans hn')⟩)

theorem putField_nodup {kept : List FieldSpec} (distinct : (kept.map (·.name)).Nodup) (f : FieldSpec) :
    ((putField kept f).map (·.name)).Nodup := put_nodup distinct f

namespace Schema

theorem mergedFields_nodup (bases : List Class) (own : List FieldSpec) :
    ((mergedFields bases own).map (·.name)).Nodup := by
  suffices kept : ∀ fs kept : List FieldSpec, (kept.map (·.name)).Nodup →
      ((fs.foldl putField kept).map (·.name)).Nodup from kept _ [] List.nodup_nil
  intro fs
  induction fs with
  | nil => exact fun _ distinct => distinct
  | cons f fs ih => exact fun kept distinct => ih _ (putField_nodup distinct f)

theorem resolve_distinct {s : Schema} (distinct : ∀ c ∈ s.classes, c.Distinct) (d : ClassDecl) :
    (s.resolve d).Distinct := by
  unfold resolve Class.Distinct
  cases d.body with
  | record own guard => exact mergedFields_nodup _ own
  | model own settings => exact mergedFields_nodup _ own
  | plain | enumeration => exact List.nodup_nil
  | inherited =>
    dsimp only
    split
    · next b found =>
      obtain ⟨r, _, known⟩ := List.mem_filterMap.mp (List.mem_of_find?_eq_some found)
      cases r with
      | declared n => exact distinct b (List.mem_of_find?_eq_some known)
      | builtin => contradiction
    · exact List.nodup_nil

theorem declare_distinct (ds : List ClassDecl) : ∀ c ∈ (declare ds).classes, c.Distinct := by
  suffices kept : ∀ s : Schema, (∀ c ∈ s.classes, c.Distinct) →
      ∀ c ∈ (ds.foldl extend s).classes, c.Distinct from kept ⟨[]⟩ (List.forall_mem_nil _)
  induction ds with
  | nil => exact fun _ distinct => distinct
  | cons d ds ih =>
    intro s distinct
    refine ih (s.extend d) fun c member => ?_
    rcases List.mem_append.mp member with old | new
    · exact distinct c old
    · exact List.mem_singleton.mp new ▸ resolve_distinct distinct d

end Schema
end RowMapping
