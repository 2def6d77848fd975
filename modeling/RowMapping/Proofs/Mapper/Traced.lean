import RowMapping.Proofs.Column.Searched
import RowMapping.Proofs.Mapper.Batches

/-! What plans read and what they leave. A column that a plan reads, at any depth, is the only one that is
accepted for its property behind the lead that the property stands under; and planning takes these columns,
and no others, off those unread. -/
namespace RowMapping

open MappingM ReflectiveMapper

mutual

def Plan.positions : Plan → List Nat
  | .mk _ entries => entryPositions entries

def entryPositions : List (Property × PlanSource) → List Nat
  | [] => []
  | (_, source) :: rest => source.positions ++ entryPositions rest

def PlanSource.positions : PlanSource → List Nat
  | .column _ index => [index]
  | .nested plan => plan.positions

end

theorem entryPositions_append (es fs : List Entry) :
    entryPositions (es ++ fs) = entryPositions es ++ entryPositions fs := by
  induction es with
  | nil => rfl
  | cons e es ih =>
    obtain ⟨p, source⟩ := e
    simp only [List.cons_append, entryPositions, ih, List.append_assoc]

theorem mem_entryPositions {es : List Entry} {i : Nat} :
    i ∈ entryPositions es ↔ ∃ e ∈ es, i ∈ e.2.positions := by
  induction es with
  | nil => simp [entryPositions]
  | cons e es ih =>
    obtain ⟨p, source⟩ := e
    simp only [entryPositions, List.mem_append, ih, List.exists_mem_cons_iff]

mutual

/-- The plan reads columns under a lead. Each of them is the only one that is accepted for the property behind
the lead; and a nested plan reads columns under the longer lead, which some column lies under. -/
inductive Plan.Traced (chain : MatcherChain) (columns : List String) : String → Plan → Prop
  | mk {lead : String} {table : PropertyTable} {entries : List Entry} :
      (∀ e ∈ entries, EntryTraced chain columns lead e) → Plan.Traced chain columns lead (.mk table entries)

inductive EntryTraced (chain : MatcherChain) (columns : List String) : String → Entry → Prop
  | column {lead : String} {p : Property} {mapper : ColumnMapper} {index : Nat} : p.nested = none →
      chain.Only (lead ++ p.columnName) columns index → EntryTraced chain columns lead (p, .column mapper index)
  | nested {lead nested : String} {p : Property} {q : Plan} : p.nested = some nested →
      chain.anyUnder (lead ++ nested) columns = .ok true → q.Traced chain columns (Text.lower (lead ++ nested)) →
        EntryTraced chain columns lead (p, .nested q)

end

theorem MatcherChain.Only.unique {chain : MatcherChain} {name : String} {columns : List String} {i : Nat}
    (only : chain.Only name columns i) :
    ∃ c, columns[i]? = some c ∧ ∀ j, columns[j]? = some c → j = i := by
  obtain ⟨c, here, accepted, others⟩ := only
  refine ⟨c, here, fun j there => ?_⟩
  by_contra other
  cases accepted.symm.trans (others j c there other)

theorem Plan.Traced.unique {chain : MatcherChain} {columns : List String} {plan : Plan} {lead : String}
    (traced : plan.Traced chain columns lead) :
    ∀ i ∈ plan.positions, ∃ c, columns[i]? = some c ∧ ∀ j, columns[j]? = some c → j = i := by
  induction plan using Plan.induct_nested generalizing lead with
  | step table es ih =>
  obtain ⟨each⟩ := traced
  intro i member
  obtain ⟨⟨p, source⟩, inside, own⟩ := mem_entryPositions.mp member
  cases each _ inside with
  | column _ only =>
    obtain rfl : i = _ := List.mem_singleton.mp own
    exact only.unique
  | nested _ _ below => exact ih p _ inside below i own

/-! ### What is left unread -/

/-- The names that no column at one of the positions has. -/
def remaining (columns : List String) (positions : List Nat) (unread : List String) : List String :=
  unread.filter fun name => !positions.any fun i => columns[i]? = some name

section Remaining

variable {columns unread : List String} {c : String} {i : Nat}

theorem remaining_nil (columns unread : List String) : remaining columns [] unread = unread :=
  List.filter_eq_self.mpr fun _ _ => rfl

theorem remaining_append (columns : List String) (is js : List Nat) (unread : List String) :
    remaining columns (is ++ js) unread = remaining columns js (remaining columns is unread) := by
  simp only [remaining, List.filter_filter, List.any_append, Bool.not_or, Bool.and_comm]

theorem remaining_congr {is js : List Nat} (same : ∀ i, i ∈ is ↔ i ∈ js) :
    remaining columns is unread = remaining columns js unread := by
  refine List.filter_congr fun name _ => congrArg (!·) ?_
  exact Bool.eq_iff_iff.mpr (by simp only [List.any_eq_true, same])

theorem remaining_sublist (is : List Nat) (among : unread.Sublist columns) :
    (remaining columns is unread).Sublist columns := List.filter_sublist.trans among

theorem once_of_unique (alone : ∀ j, columns[j]? = some c → j = i) :
    columns.Pairwise fun a b => ¬ (a = c ∧ b = c) := by
  refine List.pairwise_iff_getElem.mpr fun j k hj hk before => ?_
  rintro ⟨first, second⟩
  have same := alone j (by rw [List.getElem?_eq_getElem hj, first])
  have other := alone k (by rw [List.getElem?_eq_getElem hk, second])
  omega

theorem erase_eq_filter (once : unread.Pairwise fun a b => ¬ (a = c ∧ b = c)) :
    unread.erase c = unread.filter (c != ·) := by
  induction once with
  | nil => rfl
  | @cons d ds apart _ ih =>
    by_cases same : d = c
    · subst same
      rw [List.erase_cons_head, List.filter_cons_of_neg (by simp)]
      refine (List.filter_eq_self.mpr fun e member => ?_).symm
      simpa using fun equal : d = e => apart e member ⟨rfl, equal.symm⟩
    · rw [List.erase_cons_tail (by simpa using same), ih, List.filter_cons_of_pos]
      simpa using fun equal : c = d => same equal.symm

theorem erase_eq_remaining (here : columns[i]? = some c) (alone : ∀ j, columns[j]? = some c → j = i)
    (among : unread.Sublist columns) : unread.erase c = remaining columns [i] unread := by
  rw [erase_eq_filter ((once_of_unique alone).sublist among)]
  refine List.filter_congr fun name _ => ?_
  rw [List.any_cons, List.any_nil, Bool.or_false, here]
  simp [bne, BEq.beq]

end Remaining

/-- The entries are traced, and of the columns unread before them those are left that they do not read. -/
structure Took (chain : MatcherChain) (columns : List String) (lead : String) (unread : List String)
    (es : List Entry) (left : List String) : Prop where
  traced : ∀ e ∈ es, EntryTraced chain columns lead e
  left : unread.Sublist columns → left = remaining columns (entryPositions es) unread

section Took

variable {chain : MatcherChain} {columns unread middle left : List String} {lead : String}

theorem took_nil (unread : List String) : Took chain columns lead unread [] unread :=
  ⟨nofun, fun _ => (remaining_nil columns unread).symm⟩

theorem Took.append {es fs : List Entry} (first : Took chain columns lead unread es middle)
    (rest : Took chain columns lead middle fs left) : Took chain columns lead unread (es ++ fs) left := by
  refine ⟨fun e member => ?_, fun among => ?_⟩
  · rcases List.mem_append.mp member with own | later
    · exact first.traced e own
    · exact rest.traced e later
  · have taken := first.left among
    have still : middle.Sublist columns := taken ▸ remaining_sublist _ among
    rw [rest.left still, taken, entryPositions_append, remaining_append]

theorem took_column {p : Property} {mapper : ColumnMapper} {i : Nat} (plain : p.nested = none)
    (only : chain.Only (lead ++ p.columnName) columns i) (unread : List String) :
    Took chain columns lead unread [(p, .column mapper i)] (unread.erase ((columns[i]?).getD "")) := by
  refine ⟨fun e member => ?_, fun among => ?_⟩
  · rw [List.mem_singleton.mp member]
    exact .column plain only
  · obtain ⟨c, here, alone⟩ := only.unique
    rw [here, Option.getD_some]
    exact erase_eq_remaining here alone among

end Took

/-! ### Planning -/

theorem yields_anything {α : Type} (x : MappingM α) : Yields (fun _ => True) (fun _ => True) x :=
  fun _ _ => ⟨trivial, fun _ _ => trivial⟩

/-- Whatever columns are unread, `Q` relates them to what is planned and to the columns then left. -/
def Draws {α : Type} (Q : List String → α → List String → Prop) (x : Planning α) : Prop :=
  ∀ unread, Yields (fun _ => True) (fun r => Q unread r.1 r.2) (x.run unread)

namespace Draws

variable {α β : Type} {P : α → Prop} {Q : List String → α → List String → Prop}
  {S : List String → β → List String → Prop}

protected theorem pure {a : α} (holds : ∀ unread, Q unread a unread) : Draws Q (pure a) :=
  fun unread => Yields.pure (holds unread)

protected theorem throw (e : Failure) : Draws Q (throw e : Planning α) := fun _ => Yields.throw e

protected theorem bind {x : Planning α} {f : α → Planning β} (first : Draws Q x)
    (next : ∀ a, Draws (fun middle b left => ∀ unread, Q unread a middle → S unread b left) (f a)) :
    Draws S (x >>= f) := by
  intro unread
  exact (first unread).bind fun r holds => (next r.1 r.2).mono fun _ result => result unread holds

theorem lift {x : MappingM α} {f : α → Planning β} (first : Yields (fun _ => True) P x)
    (next : ∀ a, P a → Draws S (f a)) : Draws S (liftM x >>= f) := by
  intro unread
  have lifted : Yields (fun _ => True) (fun r => P r.1 ∧ r.2 = unread)
      ((liftM x : Planning α).run unread) := first.bind fun a holds => Yields.pure ⟨holds, rfl⟩
  refine Yields.bind lifted fun r holds => ?_
  exact holds.2 ▸ next r.1 holds.1 r.2

theorem fails (e : Failure) (f : PUnit → Planning β) : Draws S (throw e >>= f) :=
  Draws.bind (Q := fun _ _ _ => False) (.throw e) fun _ _ =>
    (yields_anything _).mono fun _ _ _ never => never.elim

end Draws

/-- The plan of a mapper, if there is one, is that of a class, and is traced; and of the columns unread before
it those are left that it does not read. -/
structure Drawn (chain : MatcherChain) (columns : List String) (m : ReflectiveMapper) (unread : List String)
    (o : Option Plan) (left : List String) : Prop where
  named : ∀ q ∈ o, m.target.class?.isSome
  traced : ∀ q ∈ o, q.Traced chain columns m.lead
  left : unread.Sublist columns → left = remaining columns (o.elim [] Plan.positions) unread

section Planning

variable {s : Scope} {plan : Planner} {m : ReflectiveMapper} {trail : Trail} {p : Property}

theorem planColumn_draws (m : ReflectiveMapper) (plain : p.nested = none) :
    Draws (fun unread o left => Took s.chain s.columns m.lead unread o.toList left) (planColumn s m p) := by
  refine Draws.lift (Yields.lift _) fun owner _ => ?_
  refine Draws.lift (Yields.lift _) fun found searched => ?_
  cases found with
  | none => exact .pure took_nil
  | some i =>
    have only := MatcherChain.find_some searched
    have taken : ∀ mapper, Draws (fun unread (o : Option Entry) left =>
        Took s.chain s.columns m.lead unread o.toList left)
        (do modify fun unread => unread.erase ((s.columns[i]?).getD "")
            return some (p, .column mapper i)) :=
      fun mapper unread => Yields.pure (took_column plain only unread)
    refine Draws.lift (yields_anything _) fun o _ => ?_
    cases o with
    | some mapper => exact taken mapper
    | none => exact Draws.lift (yields_anything _) fun mapper _ => taken mapper

theorem child_lead (m : ReflectiveMapper) {nested : String} (own : p.nested = some nested) :
    Yields (fun _ => True) (fun k => k.lead = Text.lower (m.lead ++ nested)) (child m p) := by
  intro w _
  obtain ⟨serial, q, v, ran, _⟩ := run_child m p w
  rw [ran]
  refine ⟨trivial, ?_⟩
  rintro _ ⟨⟩
  rw [own, Option.getD_some]

def PlannerDraws (s : Scope) (plan : Planner) : Prop :=
  ∀ m trail, Draws (Drawn s.chain s.columns m) (plan m trail)

theorem planNested_draws (draws : PlannerDraws s plan) (m : ReflectiveMapper) (trail : Trail) {nested : String}
    (own : p.nested = some nested) :
    Draws (fun unread o left => Took s.chain s.columns m.lead unread o.toList left)
      (planNested s plan m trail p nested) := by
  unfold planNested
  refine Draws.lift (Yields.lift _) fun under answer => ?_
  split
  · refine Draws.lift (Yields.lift _) fun owner _ => ?_
    exact Draws.lift (yields_anything _) fun _ _ => .pure took_nil
  · next some =>
    obtain rfl : under = true := by simpa using some
    split
    · split
      · exact .throw _
      · exact .throw _
    · refine Draws.lift (child_lead m own) fun k lead => ?_
      refine (draws k trail).bind fun o => .pure fun left unread drawn => ?_
      cases o with
      | none => exact ⟨nofun, drawn.left⟩
      | some q =>
        have traced := drawn.traced q rfl
        rw [lead] at traced
        refine ⟨fun e member => ?_, fun among => ?_⟩
        · rw [List.mem_singleton.mp member]
          exact .nested own answer traced
        · rw [drawn.left among, Option.elim_some, Option.map_some, Option.toList_some, entryPositions,
            PlanSource.positions, entryPositions, List.append_nil]

theorem planEntries_draws (draws : PlannerDraws s plan) (m : ReflectiveMapper) (trail : Trail)
    (ps : List Property) :
    Draws (Took s.chain s.columns m.lead) (planEntries s plan m trail ps) := by
  induction ps with
  | nil => exact .pure took_nil
  | cons p ps ih =>
    have more : ∀ x : Planning (Option Entry),
        Draws (fun unread o left => Took s.chain s.columns m.lead unread o.toList left) x →
        Draws (Took s.chain s.columns m.lead) (do
          let entry ← x
          return entry.toList ++ (← planEntries s plan m trail ps)) := by
      intro x first
      refine first.bind fun o => ?_
      exact ih.bind fun es => .pure fun left middle rest unread taken => taken.append rest
    unfold planEntries
    split
    · exact ih
    · split
      · next plain => exact more _ (planColumn_draws m plain)
      · next nested own => exact more _ (planNested_draws draws m trail own)

theorem Took.ordered {chain : MatcherChain} {columns unread left : List String} {es : List Entry}
    {table : PropertyTable} (took : Took chain columns m.lead unread es left) (named : m.target.class?.isSome) :
    Drawn chain columns m unread (some (.mk table (ordered es))) left := by
  have same := ordered_perm es
  refine ⟨fun _ _ => named, ?_, fun among => ?_⟩
  · rintro _ ⟨⟩
    exact .mk fun e member => took.traced e (same.mem_iff.mp member)
  · rw [took.left among, Option.elim_some, Plan.positions]
    exact remaining_congr fun i => by simp only [mem_entryPositions, same.mem_iff]

theorem planWithin_draws (fuel : Nat) : PlannerDraws s (planWithin s fuel) := by
  -- Sub-objects are planned with one less, by the planner that `planEntries` is given.
  induction fuel with
  | zero => exact fun _ _ => .throw _
  | succ fuel ih =>
    intro m trail
    unfold planWithin
    split
    · refine Draws.lift (Yields.lift _) fun _ _ => ?_
      exact .fails _ _
    · have described : Yields (fun _ => True) (fun o : Option PropertyTable => o.isSome → m.target.class?.isSome)
          (table? s.context m.target) := by
        intro w _
        obtain ⟨v, ran, _⟩ := run_table_for s.context m.target w
        rw [ran]
        refine ⟨trivial, fun o found some => ?_⟩
        obtain ⟨t, rfl⟩ := Option.isSome_iff_exists.mp some
        exact World.class_of_consult found
      refine Draws.lift described fun o named => ?_
      cases o with
      | none => exact Draws.lift (Yields.lift _) fun _ _ => .throw _
      | some table =>
        refine (planEntries_draws ih m _ _).bind fun es => ?_
        split
        · next none =>
          refine .pure fun left unread took => ⟨?_, ?_, ?_⟩
          · rintro _ ⟨⟩
          · rintro _ ⟨⟩
          · rw [Bool.and_eq_true, List.isEmpty_iff] at none
            have taken := took.left
            rw [none.1] at taken
            exact taken
        · exact .pure fun left unread took => took.ordered (named rfl)

end Planning

/-! ### Drafts -/

/-- What specialization plans before it refuses any column: a plan, if anything is read, and the columns that
nothing in it reads. -/
def ReflectiveMapper.draft (h : Hooks) (c : Context) (m : ReflectiveMapper) (columns : List String) :
    MappingM (Option Plan × List String) := do
  let chain := (← settings c).chain
  let bound := trailBound (← get).schema columns
  (planWithin ⟨h, c, columns, chain⟩ bound m []).run columns

/-- What specialization makes of a draft: it refuses columns that are left, and tells of the plan. -/
def ReflectiveMapper.conclude (c : Context) (chain : MatcherChain) (m : ReflectiveMapper) (columns : List String) :
    Option Plan × List String → MappingM Plan
  | (none, _) => do throw (.noMatchingColumns (← m.typeName) columns)
  | (some p, unread) => do
    refuseLeftover c chain m unread
    log .debug .mapping ("Specialized " ++ (← m.typeName) ++ ": properties="
      ++ Text.quotedList p.propertyNames ++ " unmatched=" ++ Text.quotedList unread)
    return p

section Drafts

variable {h : Hooks} {c : Context} {m : ReflectiveMapper} {columns : List String} {w u : World}

theorem run_draft (h : Hooks) (c : Context) (m : ReflectiveMapper) (columns : List String) (w : World) :
    (m.draft h c columns).run w =
      ((planWithin ⟨h, c, columns, ((w.settings[c.settings]?).getD default).chain⟩
        (trailBound w.schema columns) m []).run columns).run w := by
  have read : (settings c).run w = (.ok ((w.settings[c.settings]?).getD default), w) := rfl
  unfold draft
  rw [run_bind_ok read, run_bind_ok (run_get w)]

theorem run_specialize_draft (h : Hooks) (c : Context) (m : ReflectiveMapper) (columns : List String) (w : World) :
    (m.specialize h c columns).run w =
      (m.draft h c columns >>= conclude c ((w.settings[c.settings]?).getD default).chain m columns).run w := by
  have read : (settings c).run w = (.ok ((w.settings[c.settings]?).getD default), w) := rfl
  unfold ReflectiveMapper.specialize
  rw [run_bind_ok read, run_bind_ok (run_get w), run_bind, run_bind, run_draft]
  generalize ((planWithin _ _ m []).run columns).run w = drafted
  obtain ⟨e | ⟨_ | p, unread⟩, u⟩ := drafted
  · rfl
  · rfl
  · rfl

theorem drawn_draft {o : Option Plan} {unread : List String}
    (drafted : (m.draft h c columns).run w = (.ok (o, unread), u)) :
    Drawn ((w.settings[c.settings]?).getD default).chain columns m columns o unread := by
  rw [run_draft] at drafted
  have draws := planWithin_draws (s := ⟨h, c, columns, ((w.settings[c.settings]?).getD default).chain⟩)
    (trailBound w.schema columns) m [] columns w trivial
  rw [drafted] at draws
  exact draws.2 _ rfl

theorem yields_conclude (c : Context) (chain : MatcherChain) (m : ReflectiveMapper) (columns : List String)
    (drafted : Option Plan × List String) :
    Yields (fun _ => True) (fun p => drafted.1 = some p) (conclude c chain m columns drafted) := by
  obtain ⟨_ | p, unread⟩ := drafted
  · exact (yields_anything _).bind fun _ _ => Yields.throw _
  · exact (yields_anything _).bind fun _ _ => (yields_anything _).bind fun _ _ =>
      (yields_anything _).bind fun _ _ => Yields.pure rfl

theorem draft_of_specialize {p : Plan} {v : World} (specialized : (m.specialize h c columns).run w = (.ok p, v)) :
    ∃ unread u, (m.draft h c columns).run w = (.ok (some p, unread), u) := by
  rw [run_specialize_draft, run_bind] at specialized
  rcases drafted : (m.draft h c columns).run w with ⟨e | ⟨o, unread⟩, u⟩ <;> rw [drafted] at specialized
  · cases specialized
  · have same := (yields_conclude c _ m columns (o, unread) u trivial).2 p (congrArg Prod.fst specialized)
    exact ⟨unread, u, by rw [← same]⟩

end Drafts
end RowMapping
