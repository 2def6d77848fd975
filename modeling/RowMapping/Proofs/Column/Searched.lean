import RowMapping.Proofs.Column.Unique

/-! What searches among columns come to, by any matchers: a column is found where it is the only one that
is accepted, and none where none is. -/
namespace RowMapping.MatcherChain

variable {chain : MatcherChain} {name : String} {columns : List String}

theorem accepts_eq (chain : MatcherChain) (column name : String) : chain.accepts column name =
    if chain.usable.any (·.accepts column name) then .ok true
    else if chain.broken then .error .lacksPart else .ok false := rfl

theorem liesUnder_eq (chain : MatcherChain) (column lead : String) : chain.liesUnder column lead =
    if chain.usable.any (·.liesUnder column lead) then .ok true
    else if chain.broken then .error .lacksPart else .ok false := rfl

theorem liesUnder_true {column lead : String} :
    chain.liesUnder column lead = .ok true ↔ ∃ x ∈ chain.usable, x.liesUnder column lead = true := by
  rw [liesUnder_eq, ← List.any_eq_true]
  cases chain.usable.any (·.liesUnder column lead) <;> cases chain.broken <;> simp

theorem accepts_true {column : String} :
    chain.accepts column name = .ok true ↔ ∃ x ∈ chain.usable, x.accepts column name = true := by
  rw [accepts_eq, ← List.any_eq_true]
  cases chain.usable.any (·.accepts column name) <;> cases chain.broken <;> simp

theorem accepts_error {column : String} {e : Failure} (failed : chain.accepts column name = .error e) :
    chain.broken = true ∧ e = .lacksPart := by
  rw [accepts_eq] at failed
  split at failed
  · contradiction
  · split at failed
    · next broken => exact ⟨broken, (Except.error.inj failed).symm⟩
    · contradiction

theorem liesUnder_error {column lead : String} {e : Failure}
    (failed : chain.liesUnder column lead = .error e) : chain.broken = true ∧ e = .lacksPart := by
  rw [liesUnder_eq] at failed
  split at failed
  · contradiction
  · split at failed
    · next broken => exact ⟨broken, (Except.error.inj failed).symm⟩
    · contradiction

theorem anyUnder_error {lead : String} {e : Failure} (failed : chain.anyUnder lead columns = .error e) :
    chain.broken = true ∧ e = .lacksPart := by
  induction columns with
  | nil => contradiction
  | cons c cs ih =>
    simp only [anyUnder] at failed
    cases asked : chain.liesUnder c lead with
    | error f =>
      rw [asked] at failed
      cases failed
      exact liesUnder_error asked
    | ok b =>
      rw [asked] at failed
      cases b with
      | true => contradiction
      | false => exact ih failed

theorem searchFrom_error {label : String} {i : Nat} {found : Option (Nat × String)} {e : Failure}
    (failed : chain.searchFrom name label columns i found = .error e) :
    chain.broken = true ∧ e = .lacksPart ∨ ∃ a b, e = .ambiguousColumn label a b := by
  induction columns generalizing i found with
  | nil => contradiction
  | cons c cs ih =>
    simp only [searchFrom] at failed
    cases asked : chain.accepts c name with
    | error f =>
      rw [asked] at failed
      cases failed
      exact .inl (accepts_error asked)
    | ok b =>
      rw [asked] at failed
      cases b with
      | false => exact ih failed
      | true =>
        cases found with
        | none => exact ih failed
        | some first =>
          cases failed
          exact .inr ⟨_, _, rfl⟩

def Only (chain : MatcherChain) (name : String) (columns : List String) (k : Nat) : Prop :=
  ∃ c, columns[k]? = some c ∧ chain.accepts c name = .ok true ∧
    ∀ j d, columns[j]? = some d → j ≠ k → chain.accepts d name = .ok false

theorem searchFrom_ok {label : String} {i : Nat} {found : Option (Nat × String)} {o : Option Nat}
    (searched : chain.searchFrom name label columns i found = .ok o) :
    (∀ c ∈ columns, chain.accepts c name = .ok false) ∧ o = found.map (·.1) ∨
      found = none ∧ ∃ k, o = some (i + k) ∧ chain.Only name columns k := by
  induction columns generalizing i found with
  | nil => exact .inl ⟨nofun, (Except.ok.inj searched).symm⟩
  | cons c cs ih =>
    simp only [searchFrom] at searched
    cases asked : chain.accepts c name with
    | error e => rw [asked] at searched; contradiction
    | ok b =>
      rw [asked] at searched
      cases b with
      | false =>
        rcases ih searched with ⟨refused, rest⟩ | ⟨none, k, rest, d, here, accepted, others⟩
        · exact .inl ⟨List.forall_mem_cons.mpr ⟨asked, refused⟩, rest⟩
        · refine .inr ⟨none, k + 1, by rw [rest]; congr 1; omega, d, here, accepted, fun j e there other => ?_⟩
          cases j with
          | zero => exact Option.some.inj there ▸ asked
          | succ j => exact others j e there fun same => other (congrArg (· + 1) same)
      | true =>
        cases found with
        | some first => contradiction
        | none =>
          rcases ih searched with ⟨refused, rest⟩ | ⟨never, _⟩
          · refine .inr ⟨rfl, 0, rest, c, rfl, asked, fun j e there other => ?_⟩
            cases j with
            | zero => exact absurd rfl other
            | succ j => exact refused e (List.mem_of_getElem? there)
          · contradiction

theorem find_error {label : Option String} {e : Failure} (failed : chain.find name columns label = .error e) :
    chain.broken = true ∧ e = .lacksPart ∨ ∃ l a b, e = .ambiguousColumn l a b :=
  (searchFrom_error failed).imp_right fun named => ⟨_, named⟩

theorem find_none {label : Option String} (searched : chain.find name columns label = .ok none) :
    ∀ c ∈ columns, chain.accepts c name = .ok false := by
  rcases searchFrom_ok searched with ⟨refused, _⟩ | ⟨_, _, never, _⟩
  · exact refused
  · contradiction

theorem find_some {label : Option String} {k : Nat} (searched : chain.find name columns label = .ok (some k)) :
    chain.Only name columns k := by
  rcases searchFrom_ok searched with ⟨_, never⟩ | ⟨_, _, same, only⟩
  · contradiction
  · rw [Nat.zero_add] at same
    exact Option.some.inj same ▸ only

theorem Only.find {k : Nat} (only : chain.Only name columns k) (label : Option String) :
    chain.find name columns label = .ok (some k) := by
  obtain ⟨c, here, accepted, others⟩ := only
  exact (searchFrom_single here accepted others 0).trans (by rw [Nat.zero_add])

theorem find_refused (refused : ∀ c ∈ columns, chain.accepts c name = .ok false) (label : Option String) :
    chain.find name columns label = .ok none := searchFrom_refused refused 0 none

end RowMapping.MatcherChain
