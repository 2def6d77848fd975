import RowMapping.Proofs.Schema.Fields
import RowMapping.Proofs.Session.Reached

/-! Property tables, declared ones and those of records and models. No name stands for two properties,
and only the properties of a model go by keywords of their own. -/
namespace RowMapping

structure PropertyTable.Regular (t : PropertyTable) : Prop where
  distinct : (t.properties.map (·.name)).Nodup
  keys : t.keys = [] ∨ ∃ n, t.builder = .validate n

theorem putProperty_nodup {kept : List Property} (distinct : (kept.map (·.name)).Nodup)
    (p : Property) : ((putProperty kept p).map (·.name)).Nodup := put_nodup distinct p

theorem distinctProperties_nodup (ps : List Property) :
    ((distinctProperties ps).map (·.name)).Nodup := by
  suffices kept : ∀ qs : List Property, (qs.map (·.name)).Nodup →
      ((ps.foldl putProperty qs).map (·.name)).Nodup from kept [] List.nodup_nil
  induction ps with
  | nil => exact fun _ distinct => distinct
  | cons p ps ih => exact fun qs distinct => ih _ (putProperty_nodup distinct p)

theorem mem_distinctProperties {ps : List Property} {p : Property} (member : p ∈ distinctProperties ps) :
    p ∈ ps := by
  suffices kept : ∀ qs rs : List Property, (∀ q ∈ qs, q ∈ ps) → (∀ q ∈ rs, q ∈ ps) →
      ∀ q ∈ rs.foldl putProperty qs, q ∈ ps from
    kept [] ps (fun _ none => absurd none List.not_mem_nil) (fun _ own => own) p member
  intro qs rs
  induction rs generalizing qs with
  | nil => exact fun old _ => old
  | cons r rs ih =>
    intro old own
    have new := own r List.mem_cons_self
    refine ih _ (fun q put => ?_) fun q hq => own q (List.mem_cons_of_mem r hq)
    unfold putProperty at put
    split at put
    · obtain ⟨q', hq', rfl⟩ := List.mem_map.mp put
      split
      · exact new
      · exact old q' hq'
    · rcases List.mem_append.mp put with hq | hq
      · exact old q hq
      · exact List.mem_singleton.mp hq ▸ new

namespace PropertyTable

theorem regular_declared (s : Schema) (serial : Nat) (cls : ClassRef) (ps : List Property)
    (builder : Option Builder) (marker : Option String) :
    (declared s serial cls ps builder marker).Regular :=
  ⟨distinctProperties_nodup ps, .inl rfl⟩

theorem regular_ofClass {serial : Nat} {cls : Class} {t : PropertyTable}
    (known : ofClass? serial cls = some t) : t.Regular := by
  unfold ofClass? at known
  split at known
  · cases known
    exact ⟨distinctProperties_nodup _, .inl rfl⟩
  · cases known
    exact ⟨distinctProperties_nodup _, .inr ⟨_, rfl⟩⟩
  · contradiction

/-- Properties that go by their own names, as all but those of validated models do. -/
theorem Regular.keyOf {t : PropertyTable} (regular : t.Regular)
    (unvalidated : ∀ n, t.builder ≠ .validate n) (name : String) : t.keyOf name = name := by
  have none : t.keys = [] := by
    rcases regular.keys with none | ⟨n, validates⟩
    · exact none
    · exact absurd validates (unvalidated n)
  simp [PropertyTable.keyOf, none]

end PropertyTable

def TableStore.Regular (s : TableStore) : Prop := ∀ e ∈ s.declared ++ s.derived, e.2.Regular

namespace TableStore

theorem Regular.declare {s : TableStore} (regular : s.Regular) {t : PropertyTable} (new : t.Regular) :
    (s.declare t).Regular := by
  intro e he
  rcases List.mem_append.mp he with declared | derived
  · rcases List.mem_cons.mp declared with rfl | old
    · exact new
    · exact regular e (List.mem_append_left _ (List.mem_of_mem_filter old))
  · exact regular e (List.mem_append_right _ derived)

theorem Regular.derive {s : TableStore} (regular : s.Regular) {t : PropertyTable} (new : t.Regular) :
    (s.derive t).Regular := by
  intro e he
  rcases List.mem_append.mp he with declared | derived
  · exact regular e (List.mem_append_left _ declared)
  · rcases List.mem_cons.mp derived with rfl | old
    · exact new
    · exact regular e (List.mem_append_right _ old)

theorem stored_of_find {s : TableStore} {c : ClassRef} {t : PropertyTable} (found : s.find? c = some t) :
    ∃ e ∈ s.declared ++ s.derived, e.2 = t := by
  have within : ∀ es : List (ClassRef × PropertyTable), lookup? es c = some t → ∃ e ∈ es, e.2 = t := by
    intro es known
    obtain ⟨e, he, rfl⟩ := Option.map_eq_some_iff.mp known
    exact ⟨e, List.mem_of_find?_eq_some he, rfl⟩
  rcases Option.or_eq_some_iff.mp found with declared | ⟨_, derived⟩
  · obtain ⟨e, he, same⟩ := within _ declared
    exact ⟨e, List.mem_append_left _ he, same⟩
  · obtain ⟨e, he, same⟩ := within _ derived
    exact ⟨e, List.mem_append_right _ he, same⟩

theorem Regular.find {s : TableStore} (regular : s.Regular) {c : ClassRef} {t : PropertyTable}
    (found : s.find? c = some t) : t.Regular := by
  obtain ⟨e, he, rfl⟩ := stored_of_find found
  exact regular e he

end TableStore

def World.Regular (w : World) : Prop := ∀ store ∈ w.tables, store.Regular

namespace World

theorem Regular.modify {w : World} (regular : w.Regular) (i : Nat) {f : TableStore → TableStore}
    (keeps : ∀ store, store.Regular → (f store).Regular) :
    Regular { w with tables := w.tables.modify i f } := by
  intro store member
  obtain ⟨j, old, known, ⟨_, rfl⟩ | ⟨_, rfl⟩⟩ := exists_of_mem_modify member
  · exact keeps old (regular old (List.mem_of_getElem? known))
  · exact regular store (List.mem_of_getElem? known)

theorem course_regular : Course fun w v => w.Regular → v.Regular where
  refl _ := id
  trans h k := k ∘ h
  change := by
    intro w v change regular
    cases change with
    | aside _ _ tables => exact fun store member => regular store (tables ▸ member)
    | derived i _ known =>
      exact regular.modify i fun _ old => old.derive (PropertyTable.regular_ofClass (PropertyTable.describe_ok known).2)
    | declared i made =>
      subst made
      exact regular.modify i fun _ old => old.declare (PropertyTable.regular_declared _ _ _ _ _ _)
    | tablesAdded source =>
      intro store member
      rcases List.mem_append.mp member with old | new
      · exact regular store old
      · cases List.mem_singleton.mp new
        rcases source with rfl | copied
        · exact fun e he => absurd he List.not_mem_nil
        · exact regular _ copied
    | founded | copied | rowRegistered | columnRegistered => exact regular

theorem regular_of_reached {s : Schema} {w : World} (reached : Reached s w) : w.Regular := by
  have hooks := course_regular.hooks_of_keep (fun _ _ _ _ _ regular => regular)
    (fun _ _ _ _ regular => regular)
  refine reached.holds course_regular (fun depth => (hooks depth).2) fun w _ _ none store member => ?_
  exact absurd (none ▸ member) List.not_mem_nil

end World
end RowMapping
