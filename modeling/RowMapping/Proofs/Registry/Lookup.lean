import RowMapping.Proofs.Session.Course
import RowMapping.Proofs.Types.Sameness

/-! How look-ups run: a hit changes nothing, a miss leads through a scan to what is recorded of it, and
without a registry there is nothing to find. -/
namespace RowMapping

open MappingM

section Caches

variable {Factory Mapper : Type} (c : Chain Factory Mapper) {key other : Descriptor} (m : Mapper)

theorem Chain.cached_store (same : key.same other = true) :
    (c.store key m).cached? other = some m := by
  simp [store, cached?, same]

theorem Chain.cached_store_other (different : key.same other = false) :
    (c.store key m).cached? other = c.cached? other := by
  simp only [cached?, store, List.find?_cons, different, List.find?_filter]
  congr 2
  funext e
  cases same : e.1.same other with
  | false => simp
  | true =>
    cases one : e.1.same key with
    | false => simp
    | true =>
      have absurd := Descriptor.same_trans (Descriptor.same_symm one) same
      rw [different] at absurd
      contradiction

end Caches

section Runs

variable {h : Hooks} {c : Context} {key : Descriptor} {w v : World} {r : Registry}

theorem run_registry (known : w.registries[c.registry]? = some r) :
    (registry c).run w = (.ok r, w) := by
  show (Except.ok ((w.registries[c.registry]?).getD default), w) = _
  rw [known, Option.getD_some]

theorem run_registry_unknown (unknown : w.registries[c.registry]? = none) :
    (registry c).run w = (.ok default, w) := by
  show (Except.ok ((w.registries[c.registry]?).getD default), w) = _
  rw [unknown, Option.getD_none]

/-! ### Columns -/

section Columns

variable {element : Option (MappingM (Option ColumnMapper))}

theorem resolveColumn_hit {m : ColumnMapper} (known : w.registries[c.registry]? = some r)
    (hit : r.columns.cached? key = some m) :
    (Registry.resolveColumn h c key element).run w = (.ok (some m), w) := by
  rw [Registry.resolveColumn, run_bind_ok (run_registry known)]
  simp only [hit]
  rfl

theorem resolveColumn_failed {e : Failure} (known : w.registries[c.registry]? = some r)
    (miss : r.columns.cached? key = none)
    (scanned : (Chain.scan (Registry.askColumn h c key element) r.columns.factories).run w =
      (.error e, v)) : (Registry.resolveColumn h c key element).run w = (.error e, v) := by
  rw [Registry.resolveColumn, run_bind_ok (run_registry known)]
  simp only [miss]
  exact run_bind_error scanned

theorem resolveColumn_miss {found : Option ColumnMapper}
    (known : w.registries[c.registry]? = some r) (miss : r.columns.cached? key = none)
    (scanned : (Chain.scan (Registry.askColumn h c key element) r.columns.factories).run w =
      (.ok found, v)) :
    (Registry.resolveColumn h c key element).run w =
      (.ok found, ((Registry.recordColumn c r.columns.generation key found).run v).2) := by
  rw [Registry.resolveColumn, run_bind_ok (run_registry known)]
  simp only [miss]
  rw [run_bind_ok scanned]
  cases found <;> rfl

theorem resolveColumn_unknown (unknown : w.registries[c.registry]? = none) :
    (Registry.resolveColumn h c key element).run w =
      (.ok none, ((log .debug .registry ("No column mapper for " ++ key.text)).run w).2) := by
  rw [Registry.resolveColumn, run_bind_ok (run_registry_unknown unknown)]
  rfl

end Columns

/-! ### Rows -/

theorem findRow_hit {m : RowMapper} (known : w.registries[c.registry]? = some r)
    (hit : r.rows.cached? key = some m) :
    (Registry.findRow h c key).run w = (.ok (some m), w) := by
  rw [Registry.findRow, run_bind_ok (run_registry known)]
  simp only [hit]
  rfl

theorem findRow_failed {e : Failure} (known : w.registries[c.registry]? = some r)
    (miss : r.rows.cached? key = none)
    (built : (Registry.buildRow h c key r.rows.factories).run w = (.error e, v)) :
    (Registry.findRow h c key).run w = (.error e, v) := by
  rw [Registry.findRow, run_bind_ok (run_registry known)]
  simp only [miss]
  exact run_bind_error built

theorem findRow_miss {found : Option RowMapper} (known : w.registries[c.registry]? = some r)
    (miss : r.rows.cached? key = none)
    (built : (Registry.buildRow h c key r.rows.factories).run w = (.ok found, v)) :
    (Registry.findRow h c key).run w =
      (.ok found, ((Registry.recordRow c key found).run v).2) := by
  rw [Registry.findRow, run_bind_ok (run_registry known)]
  simp only [miss]
  rw [run_bind_ok built]
  cases found <;> rfl

theorem findRow_unknown (unknown : w.registries[c.registry]? = none) :
    (Registry.findRow h c key).run w =
      (.ok none, ((Registry.recordRow c key none).run
        ((log .debug .registry ("No column mapper for " ++ key.text)).run w).2).2) := by
  have single : (Registry.singleFor h c key).run w =
      (.ok none, ((log .debug .registry ("No column mapper for " ++ key.text)).run w).2) := by
    obtain ⟨raw, args, nullable⟩ := key
    exact run_bind_ok (resolveColumn_unknown unknown)
  rw [Registry.findRow, run_bind_ok (run_registry_unknown unknown)]
  exact run_bind_ok single

theorem recordRow_keeps {t : Registry} (known : v.registries[c.registry]? = some t) (m : RowMapper) :
    ((Registry.recordRow c key (some m)).run v).2.registries[c.registry]? =
      some { t with rows := t.rows.store key m } := by
  have told : ((Registry.recordRow c key (some m)).run v).2.registries =
      ((Registry.keepRow c key m).run v).2.registries := by
    rw [Registry.recordRow, run_bind_ok (x := Registry.keepRow _ _ _) (a := ()) rfl]
    show World.registries (if _ then _ else _) = _
    split <;> rfl
  rw [told]
  show (v.registries.modify c.registry _)[c.registry]? = _
  rw [List.getElem?_modify_eq, known]
  rfl

end Runs

namespace Course

variable {R : World → World → Prop} (course : Course R) {h : Hooks} {c : Context} {key : Descriptor}
include course

theorem resolveColumn_from {element : Option (MappingM (Option ColumnMapper))} {w : World}
    (scan : ∀ fs, Leads R (Chain.scan (Registry.askColumn h c key element) fs))
    (recorded : ∀ r v found, w.registries[c.registry]? = some r → r.columns.cached? key = none →
      (Chain.scan (Registry.askColumn h c key element) r.columns.factories).run w = (.ok found, v) →
      R w v → R w ((Registry.recordColumn c r.columns.generation key found).run v).2) :
    R w ((Registry.resolveColumn h c key element).run w).2 := by
  cases known : w.registries[c.registry]? with
  | none =>
    rw [resolveColumn_unknown known]
    exact course.log _ _ _ w
  | some r =>
    cases hit : r.columns.cached? key with
    | some m =>
      rw [resolveColumn_hit known hit]
      exact course.refl w
    | none =>
      have led := scan r.columns.factories w
      rcases scanned : (Chain.scan (Registry.askColumn h c key element) r.columns.factories).run w
        with ⟨e | found, v⟩ <;> rw [scanned] at led
      · rw [resolveColumn_failed known hit scanned]
        exact led
      · rw [resolveColumn_miss known hit scanned]
        exact recorded r v found known hit scanned led

theorem findRow_from {w : World} (build : ∀ fs, Leads R (Registry.buildRow h c key fs))
    (recorded : ∀ r v found, w.registries[c.registry]? = some r → r.rows.cached? key = none →
      (Registry.buildRow h c key r.rows.factories).run w = (.ok found, v) →
      R w v → R w ((Registry.recordRow c key found).run v).2) :
    R w ((Registry.findRow h c key).run w).2 := by
  cases known : w.registries[c.registry]? with
  | none =>
    rw [findRow_unknown known]
    exact course.trans (course.log _ _ _ w) (course.log _ _ _ _)
  | some r =>
    cases hit : r.rows.cached? key with
    | some m =>
      rw [findRow_hit known hit]
      exact course.refl w
    | none =>
      have led := build r.rows.factories w
      rcases built : (Registry.buildRow h c key r.rows.factories).run w with ⟨e | found, v⟩ <;>
        rw [built] at led
      · rw [findRow_failed known hit built]
        exact led
      · rw [findRow_miss known hit built]
        exact recorded r v found known hit built led

end Course
end RowMapping
