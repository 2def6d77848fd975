import RowMapping.Proofs.Mapper.Leftovers
import RowMapping.Proofs.Text.Folded

/-! Sub-objects keep to their columns. With matchers that take no notice of case, or of underscores either, a
column that is accepted behind a lead in small letters lies under that lead as it is spelled. So what a nested
property reads at any depth lies under its own lead and those around it; and where no column lies under its lead,
it could read none. -/
namespace RowMapping

open MappingM ReflectiveMapper

/-! ### Matchers -/

theorem Matcher.liesUnder_of_accepts {x : Matcher} (standard : x ∈ Matcher.standard) {column lead rest : String}
    (accepted : x.accepts column (Text.lower lead ++ rest) = true) : x.liesUnder column lead = true := by
  simp only [Matcher.standard, List.mem_cons, List.not_mem_nil, or_false] at standard
  rcases standard with rfl | rfl
  · have same : Text.fold column = Text.fold (Text.lower lead ++ rest) := of_decide_eq_true accepted
    simp only [Matcher.liesUnder, same, Text.fold_append, Text.fold_lower, List.isPrefixOf_iff_prefix]
    exact List.prefix_append _ _
  · have same : Text.squash column = Text.squash (Text.lower lead ++ rest) := of_decide_eq_true accepted
    simp only [Matcher.liesUnder, same, Text.squash_append, Text.squash_lower, List.isPrefixOf_iff_prefix]
    exact List.prefix_append _ _

namespace MatcherChain

variable {chain : MatcherChain} (standard : ∀ x ∈ chain.usable, x ∈ Matcher.standard) {column lead : String}
include standard

theorem liesUnder_of_accepts {rest : String} (accepted : chain.accepts column (Text.lower lead ++ rest) = .ok true) :
    chain.liesUnder column lead = .ok true := by
  obtain ⟨x, member, own⟩ := accepts_true.mp accepted
  exact liesUnder_true.mpr ⟨x, member, x.liesUnder_of_accepts (standard x member) own⟩

theorem refused_of_apart (apart : chain.liesUnder column lead = .ok false) (rest : String) :
    chain.accepts column (Text.lower lead ++ rest) = .ok false := by
  cases asked : chain.accepts column (Text.lower lead ++ rest) with
  | error e =>
    rw [liesUnder_eq, (accepts_error asked).1, if_pos rfl] at apart
    split at apart
    · cases apart
    · cases apart
  | ok b =>
    cases b with
    | false => rfl
    | true => cases apart.symm.trans (liesUnder_of_accepts standard asked)

omit standard in
theorem apart_of_anyUnder {columns : List String} (none : chain.anyUnder lead columns = .ok false) :
    ∀ name ∈ columns, chain.liesUnder name lead = .ok false := by
  induction columns with
  | nil => exact nofun
  | cons c cs ih =>
    simp only [anyUnder] at none
    cases asked : chain.liesUnder c lead with
    | error e => rw [asked] at none; contradiction
    | ok b =>
      rw [asked] at none
      cases b with
      | true => cases none
      | false => exact List.forall_mem_cons.mpr ⟨asked, ih none⟩

end MatcherChain

/-! ### Plans -/

mutual

/-- What a plan under a lead reads below its nested properties, at any depth: for each such property its lead, as
it is spelled, with each position. -/
def Plan.scopes (lead : String) : Plan → List (String × Nat)
  | .mk _ entries => entryScopes lead entries

def entryScopes (lead : String) : List (Property × PlanSource) → List (String × Nat)
  | [] => []
  | (p, source) :: rest => source.scopes (lead ++ p.nested.getD "") ++ entryScopes lead rest

def PlanSource.scopes (full : String) : PlanSource → List (String × Nat)
  | .column .. => []
  | .nested plan => plan.positions.map (full, ·) ++ plan.scopes (Text.lower full)

end

theorem mem_entryScopes {lead : String} {es : List Entry} {r : String × Nat} :
    r ∈ entryScopes lead es ↔ ∃ e ∈ es, r ∈ e.2.scopes (lead ++ e.1.nested.getD "") := by
  induction es with
  | nil => simp [entryScopes]
  | cons e es ih =>
    obtain ⟨p, source⟩ := e
    simp only [entryScopes, List.mem_append, ih, List.exists_mem_cons_iff]

def Plan.Scoped (chain : MatcherChain) (columns : List String) (lead : String) (plan : Plan) : Prop :=
  ∀ full i, (full, i) ∈ plan.scopes lead → ∃ name, columns[i]? = some name ∧ chain.liesUnder name full = .ok true

namespace Plan.Traced

variable {chain : MatcherChain} {columns : List String} {plan : Plan} {lead : String}

/-- A plan under a lead in small letters reads columns that are accepted for names behind it, since the leads of
nested properties begin with it. -/
theorem accepted (traced : plan.Traced chain columns lead) (small : ∃ t, lead = Text.lower t) :
    ∀ i ∈ plan.positions, ∃ name rest, columns[i]? = some name ∧ chain.accepts name (lead ++ rest) = .ok true := by
  induction plan using Plan.induct_nested generalizing lead with
  | step table es ih =>
  obtain ⟨each⟩ := traced
  intro i member
  obtain ⟨⟨p, source⟩, inside, own⟩ := mem_entryPositions.mp member
  cases each _ inside with
  | column _ only =>
    obtain rfl : i = _ := List.mem_singleton.mp own
    obtain ⟨name, here, accepted, _⟩ := only
    exact ⟨name, _, here, accepted⟩
  | @nested _ nested _ _ _ _ below =>
    obtain ⟨name, rest, here, accepted⟩ := ih p _ inside below ⟨_, rfl⟩ i own
    obtain ⟨t, rfl⟩ := small
    obtain ⟨more, longer⟩ := Text.prefix_lower_append t nested
    have whole : Text.lower (Text.lower t ++ nested) = Text.lower t ++ String.ofList more := by
      rw [← String.toList_inj, String.toList_append, String.toList_ofList, longer]
    rw [whole, String.append_assoc] at accepted
    exact ⟨name, _, here, accepted⟩

theorem keeps_scopes (traced : plan.Traced chain columns lead) (standard : ∀ x ∈ chain.usable, x ∈ Matcher.standard) :
    plan.Scoped chain columns lead := by
  induction plan using Plan.induct_nested generalizing lead with
  | step table es ih =>
  obtain ⟨each⟩ := traced
  intro full i member
  obtain ⟨⟨p, source⟩, inside, scope⟩ := mem_entryScopes.mp member
  cases each _ inside with
  | column => contradiction
  | @nested _ nested _ q own _ below =>
    dsimp only at scope
    rw [own, Option.getD_some] at scope
    rcases List.mem_append.mp scope with here | deeper
    · obtain ⟨j, read, same⟩ := List.mem_map.mp here
      cases same
      obtain ⟨name, rest, known, accepted⟩ := below.accepted ⟨_, rfl⟩ i read
      exact ⟨name, known, MatcherChain.liesUnder_of_accepts standard accepted⟩
    · exact ih p q inside below full i deeper

end Plan.Traced

namespace ReflectiveMapper

variable {w : World} {c : Context}

/-- With matchers that pass over case, or underscores as well, whatever is read below a nested property lies under
its lead as spelled, in every plan that is drafted, and so in every specialized one; and where no column lies under
a lead, none stands for any name behind that lead in small letters. -/
theorem sub_objects_scoped (h : Hooks) (m : ReflectiveMapper) (columns : List String)
    (standard : ∀ x ∈ ((w.settings[c.settings]?).getD default).chain.usable, x ∈ Matcher.standard) :
    let chain := ((w.settings[c.settings]?).getD default).chain
    (∀ p unread u, (m.draft h c columns).run w = (.ok (some p, unread), u) → p.Scoped chain columns m.lead) ∧
    (∀ p v, (m.specialize h c columns).run w = (.ok p, v) → p.Scoped chain columns m.lead) ∧
    ∀ full, chain.anyUnder full columns = .ok false →
      ∀ name ∈ columns, ∀ rest, chain.accepts name (Text.lower full ++ rest) = .ok false := by
  intro chain
  have drafts : ∀ p unread u, (m.draft h c columns).run w = (.ok (some p, unread), u) →
      p.Scoped chain columns m.lead := fun p _ _ drafted => ((drawn_draft drafted).traced p rfl).keeps_scopes standard
  refine ⟨drafts, fun p v specialized => ?_, fun full none name member rest => ?_⟩
  · obtain ⟨unread, u, drafted⟩ := draft_of_specialize specialized
    exact drafts p unread u drafted
  · exact MatcherChain.refused_of_apart standard (MatcherChain.apart_of_anyUnder none name member) rest

def dwellings : Schema := .declare
  [⟨"City", [], none, .record [{ name := "name", type := .cls (.builtin .text) }] none⟩,
    ⟨"Address", [], none, .record
      [{ name := "city", type := .marked (.cls (.declared "City")) [.nested "City_"] }] none⟩,
    ⟨"Dweller", [], none, .record
      [{ name := "address", type := .marked (.cls (.declared "Address")) [.nested "ADDR_"] }] none⟩]

def dwellingsWorld : World := (Session.start dwellings [] ⟨.fresh true, none, []⟩).toOption.getD default

def dweller : ReflectiveMapper := ⟨0, .cls (.declared "Dweller"), ""⟩

/-- The name of a city lies under both leads around it, and no column lies under that of a country. -/
theorem sub_objects_scoped_dweller : ∃ p unread u,
    (dweller.draft (Session.hooks Session.depth) ⟨0, 0, 0⟩ ["addrCityName"]).run dwellingsWorld =
        (.ok (some p, unread), u) ∧
      p.scopes dweller.lead = [("ADDR_", 0), ("addr_City_", 0)] ∧
      standardChain.liesUnder "addrCityName" "ADDR_" = .ok true ∧
      standardChain.liesUnder "addrCityName" "addr_City_" = .ok true ∧
      standardChain.accepts "addrCityName" (Text.lower "addr_Country_" ++ "name") = .ok false := by
  have computed : ((dweller.draft (Session.hooks Session.depth) ⟨0, 0, 0⟩ ["addrCityName"]).run
      dwellingsWorld).1.toOption.any (fun r => r.1.any fun p =>
        p.scopes dweller.lead = [("ADDR_", 0), ("addr_City_", 0)]) = true := by decide +kernel
  simp only [Option.any_eq_true, decide_eq_true_eq] at computed
  obtain ⟨⟨_, unread⟩, found, p, rfl, scopes⟩ := computed
  have drafted := run_of_toOption found
  obtain ⟨drafts, _, gate⟩ := sub_objects_scoped (w := dwellingsWorld) (c := ⟨0, 0, 0⟩)
    (Session.hooks Session.depth) dweller ["addrCityName"] fun _ member => member
  have under : ∀ full, (full, 0) ∈ p.scopes dweller.lead → standardChain.liesUnder "addrCityName" full = .ok true := by
    intro full read
    obtain ⟨_, ⟨⟩, lies⟩ := drafts p unread _ drafted full 0 read
    exact lies
  rw [scopes] at under
  exact ⟨p, unread, _, drafted, scopes, under _ (by simp), under _ (by simp),
    gate "addr_Country_" rfl _ (List.mem_singleton_self _) "name"⟩

end ReflectiveMapper
end RowMapping
