import RowMapping.Proofs.Session.Commands

/-! Registries only grow. Whatever a session does, the factories of a chain stay in their order behind
those that were registered since, and the generation counts these. -/
namespace RowMapping

namespace Chain

variable {Factory Mapper : Type}

/-- Factories were put before those of `c`, and the generation counts them. -/
def Grown (c d : Chain Factory Mapper) : Prop :=
  ∃ added, d.factories = added ++ c.factories ∧ d.generation = c.generation + added.length

theorem Grown.refl (c : Chain Factory Mapper) : c.Grown c := ⟨[], rfl, rfl⟩

theorem Grown.trans {c d e : Chain Factory Mapper} (h : c.Grown d) (k : d.Grown e) : c.Grown e := by
  obtain ⟨as, hf, hg⟩ := h
  obtain ⟨bs, kf, kg⟩ := k
  refine ⟨bs ++ as, by rw [kf, hf, List.append_assoc], ?_⟩
  rw [kg, hg, List.length_append]
  omega

theorem grown_register (c : Chain Factory Mapper) (f : Factory) : c.Grown (c.register f) :=
  ⟨[f], rfl, rfl⟩

theorem grown_store (c : Chain Factory Mapper) (key : Descriptor) (m : Mapper) :
    c.Grown (c.store key m) := ⟨[], rfl, rfl⟩

/-- The generation tells whether something was registered. -/
theorem Grown.factories_eq_iff {c d : Chain Factory Mapper} (h : c.Grown d) :
    d.factories = c.factories ↔ d.generation = c.generation := by
  obtain ⟨added, hf, hg⟩ := h
  rw [hf, hg, List.append_left_eq_self, ← List.length_eq_zero_iff]
  omega

theorem Grown.between {c d e : Chain Factory Mapper} (h : c.Grown d) (k : d.Grown e)
    (same : e.factories = c.factories) : d.factories = c.factories := by
  obtain ⟨as, hf, _⟩ := h
  obtain ⟨bs, kf, _⟩ := k
  rw [kf, hf, ← List.append_assoc, List.append_left_eq_self, List.append_eq_nil_iff] at same
  rw [hf, same.2, List.nil_append]

end Chain

theorem exists_of_mem_modify {α : Type} {xs : List α} {i : Nat} {f : α → α} {y : α}
    (member : y ∈ xs.modify i f) :
    ∃ j x, xs[j]? = some x ∧ (i = j ∧ y = f x ∨ i ≠ j ∧ y = x) := by
  obtain ⟨j, hj⟩ := List.mem_iff_getElem?.mp member
  rw [List.getElem?_modify, Option.map_eq_map, Option.map_eq_some_iff] at hj
  obtain ⟨x, known, rfl⟩ := hj
  refine ⟨j, x, known, ?_⟩
  by_cases here : i = j
  · exact .inl ⟨here, if_pos here⟩
  · exact .inr ⟨here, if_neg here⟩

structure World.Grown (w v : World) : Prop where
  schema : v.schema = w.schema
  registries : ∀ {i : Nat} {r : Registry}, w.registries[i]? = some r →
    ∃ s : Registry, v.registries[i]? = some s ∧ r.rows.Grown s.rows ∧ r.columns.Grown s.columns

namespace World

theorem Grown.refl (w : World) : w.Grown w := ⟨rfl, fun h => ⟨_, h, .refl _, .refl _⟩⟩

theorem Grown.trans {u v w : World} (h : u.Grown v) (k : v.Grown w) : u.Grown w := by
  refine ⟨k.schema.trans h.schema, fun known => ?_⟩
  obtain ⟨r, hr, rows, columns⟩ := h.registries known
  obtain ⟨s, hs, rows', columns'⟩ := k.registries hr
  exact ⟨s, hs, rows.trans rows', columns.trans columns'⟩

theorem grown_of_registries {w v : World} (schema : v.schema = w.schema)
    (registries : v.registries = w.registries) : w.Grown v :=
  ⟨schema, fun h => ⟨_, registries ▸ h, .refl _, .refl _⟩⟩

theorem grown_add (w : World) (r : Registry) :
    w.Grown { w with registries := w.registries ++ [r] } := by
  refine ⟨rfl, fun {i r} h => ⟨r, ?_, .refl _, .refl _⟩⟩
  rw [List.getElem?_append_left (List.getElem?_eq_some_iff.mp h).1]
  exact h

theorem grown_modify (w : World) (j : Nat) (f : Registry → Registry)
    (grows : ∀ r : Registry, r.rows.Grown (f r).rows ∧ r.columns.Grown (f r).columns) :
    w.Grown { w with registries := w.registries.modify j f } := by
  refine ⟨rfl, fun {i r} h => ?_⟩
  by_cases here : j = i
  · subst here
    exact ⟨f r, by simp [h], grows r⟩
  · exact ⟨r, by simp [here, h], .refl _, .refl _⟩

theorem course_grown : Course Grown where
  refl := Grown.refl
  trans := Grown.trans
  change := by
    intro w v change
    cases change with
    | aside schema registries tables => exact grown_of_registries schema registries
    | derived | declared | tablesAdded => exact grown_of_registries rfl rfl
    | founded | copied => exact grown_add _ _
    | rowRegistered i f =>
      exact grown_modify _ i _ fun r => ⟨Chain.grown_register _ f, .refl _⟩
    | columnRegistered i f =>
      exact grown_modify _ i _ fun r => ⟨.refl _, Chain.grown_register _ f⟩

theorem grown_keepColumn (c : Context) (generation : Nat) (key : Descriptor) (m : ColumnMapper) :
    Leads Grown (Registry.keepColumn c generation key m) := by
  refine fun w => grown_modify w c.registry _ fun r => ?_
  split
  · exact ⟨.refl _, Chain.grown_store _ key m⟩
  · exact ⟨.refl _, .refl _⟩

theorem grown_keepRow (c : Context) (key : Descriptor) (m : RowMapper) :
    Leads Grown (Registry.keepRow c key m) :=
  fun w => grown_modify w c.registry _ fun _ => ⟨Chain.grown_store _ key m, .refl _⟩

/-- Every use of the hooks of a session and every look-up lets registries grow. -/
theorem grown_hooks (depth : Nat) :
    (Session.hooks depth).Lead Grown ∧ Registry.Lead Grown (Session.hooks depth) :=
  course_grown.hooks_of_keep grown_keepColumn grown_keepRow depth

end World
end RowMapping
