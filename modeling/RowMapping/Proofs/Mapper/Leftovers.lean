import RowMapping.Proofs.Column.Rearranged
import RowMapping.Proofs.Mapper.Traced

/-! Columns left over. In strict mode specialization refuses the columns that lie under the mapper's own lead
and that its plan reads at no depth, these columns and no others, and otherwise returns the plan. -/
namespace RowMapping

open MappingM ReflectiveMapper

/-- The columns under a lead that the plan reads at no depth, in the order of the row. -/
def Plan.leftUnder (plan : Plan) (chain : MatcherChain) (lead : String) (columns : List String) : List String :=
  (columns.zipIdx.filter fun e =>
    !plan.positions.contains e.2 && chain.usable.any (·.liesUnder e.1 lead)).map (·.1)

section Leftovers

variable {chain : MatcherChain} {columns : List String} {lead : String} {plan : Plan}

theorem leftover_unbroken (unbroken : chain.broken = false) (lead : String) (unread : List String) :
    leftover chain lead unread = .ok (unread.filter fun name => chain.usable.any (·.liesUnder name lead)) := by
  induction unread with
  | nil => rfl
  | cons name names ih =>
    simp only [leftover, MatcherChain.liesUnder_unbroken unbroken, ih, List.filter_cons]
    cases chain.usable.any (·.liesUnder name lead) <;> rfl

theorem remains_iff (traced : plan.Traced chain columns lead) {name : String} {i : Nat}
    (here : columns[i]? = some name) :
    (plan.positions.any fun j => columns[j]? = some name) = plan.positions.contains i := by
  refine Bool.eq_iff_iff.mpr ?_
  simp only [List.any_eq_true, decide_eq_true_eq, List.contains_iff_mem]
  constructor
  · rintro ⟨j, read, there⟩
    -- Another column of that name would keep the plan from reading either.
    obtain ⟨c, own, alone⟩ := traced.unique j read
    cases own.symm.trans there
    exact alone i here ▸ read
  · exact fun read => ⟨i, read, here⟩

theorem remaining_under (traced : plan.Traced chain columns lead) (under : String) :
    ((remaining columns plan.positions columns).filter fun name => chain.usable.any (·.liesUnder name under)) =
      plan.leftUnder chain under columns := by
  have names : columns = columns.zipIdx.map (·.1) := (List.zipIdx_map_fst 0 columns).symm
  have paired : ∀ test : String → Bool, columns.filter test = (columns.zipIdx.filter fun e => test e.1).map (·.1) := by
    intro test
    conv_lhs => rw [names]
    rw [List.filter_map]
    rfl
  rw [remaining, List.filter_filter, paired, Plan.leftUnder]
  refine congrArg _ (List.filter_congr fun e member => ?_)
  obtain ⟨name, i⟩ := e
  have here : columns[i]? = some name := List.mem_zipIdx_iff_getElem?.mp member
  dsimp only
  rw [remains_iff traced here, Bool.and_comm]

theorem mem_leftUnder {name : String} : name ∈ plan.leftUnder chain lead columns ↔
    ∃ i, columns[i]? = some name ∧ i ∉ plan.positions ∧ chain.usable.any (·.liesUnder name lead) = true := by
  simp only [Plan.leftUnder, List.mem_map, List.mem_filter, List.mem_zipIdx_iff_getElem?, Bool.and_eq_true,
    Bool.not_eq_true', List.contains_eq_mem, decide_eq_false_iff_not]
  constructor
  · rintro ⟨⟨_, i⟩, ⟨here, unread, lies⟩, rfl⟩
    exact ⟨i, here, unread, lies⟩
  · rintro ⟨i, here, unread, lies⟩
    exact ⟨(name, i), ⟨here, unread, lies⟩, rfl⟩

end Leftovers

namespace ReflectiveMapper

variable {h : Hooks} {c : Context} {m : ReflectiveMapper} {columns : List String} {w u : World}

theorem typeName_of_class (named : m.target.class?.isSome) : ∃ owner, m.typeName = .ok owner := by
  obtain ⟨cls, known⟩ := Option.isSome_iff_exists.mp named
  obtain ⟨serial, target, lead⟩ := m
  cases target with
  | cls c => exact ⟨c.name, rfl⟩
  | union | literalForm | value | «variable» | unresolved => contradiction

theorem run_conclude {chain : MatcherChain} (unbroken : chain.broken = false) {owner : String}
    (named : m.typeName = .ok owner) (strict : ((u.settings[c.settings]?).getD default).strictMatching = true)
    (p : Plan) (unread : List String) :
    ((conclude c chain m columns (some p, unread)).run u).1 =
      match unread.filter fun name => chain.usable.any (·.liesUnder name m.lead) with
      | [] => .ok p
      | left => .error (.leftoverColumns owner left) := by
  have read : (settings c).run u = (.ok ((u.settings[c.settings]?).getD default), u) := rfl
  have name : ∀ v, (liftM m.typeName : MappingM String).run v = (.ok owner, v) := fun v => by rw [named]; rfl
  have found : ∀ v, (liftM (leftover chain m.lead unread) : MappingM (List String)).run v =
      (.ok (unread.filter fun name => chain.usable.any (·.liesUnder name m.lead)), v) := fun v => by
    rw [leftover_unbroken unbroken]; rfl
  have refuses : (refuseLeftover c chain m unread).run u =
      match unread.filter fun name => chain.usable.any (·.liesUnder name m.lead) with
      | [] => (.ok (), u)
      | left => (.error (.leftoverColumns owner left), u) := by
    unfold refuseLeftover
    rw [run_bind_ok read, if_pos strict, run_bind_ok (found u)]
    cases unread.filter fun name => chain.usable.any (·.liesUnder name m.lead) with
    | nil => rfl
    | cons first rest =>
      rw [if_pos (by rfl), run_bind_ok (name u)]
      rfl
  unfold conclude
  rw [run_bind, refuses]
  cases unread.filter fun name => chain.usable.any (·.liesUnder name m.lead) with
  | nil =>
    dsimp only
    rw [run_bind_ok (name u)]
    rfl
  | cons first rest => rfl

/-- Once a plan is drafted, strict matching refuses the columns under the mapper's lead that the plan reads at no
depth, in the order of the row, and returns the plan where there are none. -/
theorem leftovers_refused {p : Plan} {unread : List String}
    (drafted : (m.draft h c columns).run w = (.ok (some p, unread), u))
    (matchers : ((w.settings[c.settings]?).getD default).chain.broken = false)
    (strict : ((u.settings[c.settings]?).getD default).strictMatching = true) :
    let chain := ((w.settings[c.settings]?).getD default).chain
    let left := p.leftUnder chain m.lead columns
    (left ≠ [] ↔ ∃ i name, columns[i]? = some name ∧ chain.liesUnder name m.lead = .ok true ∧ i ∉ p.positions) ∧
    ∃ owner, m.typeName = .ok owner ∧
      ((m.specialize h c columns).run w).1 = if left = [] then .ok p else .error (.leftoverColumns owner left) := by
  intro chain left
  have drawn := drawn_draft drafted
  have traced := drawn.traced p rfl
  obtain ⟨owner, named⟩ := typeName_of_class (drawn.named p rfl)
  refine ⟨?_, owner, named, ?_⟩
  · have under : ∀ name, chain.liesUnder name m.lead = .ok true ↔
        chain.usable.any (·.liesUnder name m.lead) = true := by
      intro name
      rw [MatcherChain.liesUnder_unbroken matchers]
      exact ⟨Except.ok.inj, congrArg _⟩
    constructor
    · intro some
      obtain ⟨name, member⟩ := List.exists_mem_of_ne_nil left some
      obtain ⟨i, here, unread, lies⟩ := mem_leftUnder.mp member
      exact ⟨i, name, here, (under name).mpr lies, unread⟩
    · rintro ⟨i, name, here, lies, unread⟩
      exact List.ne_nil_of_mem (mem_leftUnder.mpr ⟨i, here, unread, (under name).mp lies⟩)
  · have rest : (unread.filter fun name => chain.usable.any (·.liesUnder name m.lead)) = left := by
      rw [drawn.left (List.Sublist.refl columns)]
      exact remaining_under traced m.lead
    rw [run_specialize_draft, run_bind_ok drafted, run_conclude matchers named strict p unread, rest]
    cases left with
    | nil => rfl
    | cons => rfl

def stays : Schema := .declare
  [⟨"Guest", [], none, .record [{ name := "name", type := .cls (.builtin .text) }] none⟩,
    ⟨"Stay", [], none, .record [{ name := "id", type := .cls (.builtin .int) },
      { name := "guest", type := .marked (.cls (.declared "Guest")) [.nested "g_"] }] none⟩]

def staysWorld : World :=
  (Session.start stays [] ⟨.fresh true, none, [.strictMatching (.bool true)]⟩).toOption.getD default

def stay : ReflectiveMapper := ⟨0, .cls (.declared "Stay"), ""⟩

def stayColumns : List String := ["id", "note", "g_name", "note", "g_age"]

/-- Two notes and an age are left over. -/
theorem leftovers_refused_stay : ∃ p unread u,
    (stay.draft (Session.hooks Session.depth) ⟨0, 0, 0⟩ stayColumns).run staysWorld = (.ok (some p, unread), u) ∧
      p.leftUnder standardChain stay.lead stayColumns = ["note", "note", "g_age"] ∧
      ((stay.specialize (Session.hooks Session.depth) ⟨0, 0, 0⟩ stayColumns).run staysWorld).1 =
        .error (.leftoverColumns "Stay" ["note", "note", "g_age"]) := by
  have computed : ((stay.draft (Session.hooks Session.depth) ⟨0, 0, 0⟩ stayColumns).run
      staysWorld).1.toOption.any (fun r => r.1.any fun p =>
        p.leftUnder standardChain stay.lead stayColumns = ["note", "note", "g_age"]) = true := by decide +kernel
  simp only [Option.any_eq_true, decide_eq_true_eq] at computed
  obtain ⟨⟨_, unread⟩, found, p, rfl, left⟩ := computed
  have drafted := run_of_toOption found
  have strict : (((stay.draft (Session.hooks Session.depth) ⟨0, 0, 0⟩ stayColumns).run staysWorld).2.settings[0]?
      |>.getD default).strictMatching = true := by decide +kernel
  obtain ⟨_, owner, named, result⟩ := leftovers_refused drafted rfl strict
  cases named
  refine ⟨p, unread, _, drafted, left, result.trans ?_⟩
  rw [show p.leftUnder ((staysWorld.settings[(⟨0, 0, 0⟩ : Context).settings]?).getD default).chain stay.lead
    stayColumns = ["note", "note", "g_age"] from left]
  rfl

end ReflectiveMapper
end RowMapping
