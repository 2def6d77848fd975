import RowMapping.Proofs.Convert.Each
import RowMapping.Proofs.Schema.Keywords
import RowMapping.Schema.Property

/-! Records from keywords. Where the constructor of a record is called legally, binding the keywords fails for
arguments of the post-init only; what else is wrong comes from a default factory or from the post-init. -/
namespace RowMapping

/-- A legal list of keywords: each is the name of a field that the constructor takes, none comes twice, every
field that must be given is given, and no field with a fallback is given null instead. -/
structure LegalCall (fields : List FieldSpec) (ks : Keywords) : Prop where
  once : (ks.map (·.1)).Nodup
  taken : ∀ k v, (k, v) ∈ ks → ∃ f ∈ fields, f.settable = true ∧ f.name = k
  complete : ∀ f ∈ fields, f.settable = true → f.fallback = none → ∃ v, (f.name, v) ∈ ks
  solid : ∀ f ∈ fields, (f.name, .null) ∈ ks → f.fallback = none

namespace Schema

def assembled (name : String) (fields : List FieldSpec) (post : Option PostInit) (ks : Keywords) :
    Except Raise Value :=
  fields.mapM (initial ks) >>= finish name fields post

/-- The error is that of the default factory of a field that is not given, or that of the post-init. -/
def RaisedWithin (fields : List FieldSpec) (post : Option PostInit) (ks : Keywords) (r : Raise) : Prop :=
  (∃ f ∈ fields, ks.find? f.name = none ∧ f.fallback = some (.failing r)) ∨
    ∃ values, fields.mapM (initial ks) = .ok values ∧ completed post values = .error r

/-- No argument is for the post-init alone and must be given. -/
def Undemanding (fields : List FieldSpec) : Prop := ∀ f ∈ fields, f.initOnly = true → f.fallback.isSome

instance (fields : List FieldSpec) : Decidable (Undemanding fields) :=
  inferInstanceAs (Decidable (∀ f ∈ fields, f.initOnly = true → f.fallback.isSome))

section Calls

variable {fields : List FieldSpec} {ks : Keywords}

theorem initial_error {f : FieldSpec} {r : Raise} (failed : initial ks f = .error r) :
    ks.find? f.name = none ∧ f.fallback = some (.failing r) := by
  unfold initial at failed
  cases given : ks.find? f.name with
  | some v =>
    rw [given] at failed
    contradiction
  | none =>
    rw [given] at failed
    cases fallback : f.fallback with
    | none =>
      rw [fallback] at failed
      contradiction
    | some d =>
      rw [fallback] at failed
      cases d with
      | value v => contradiction
      | failing r' =>
        cases failed
        exact ⟨rfl, rfl⟩

theorem assembled_error {name : String} {post : Option PostInit} {r : Raise}
    (failed : assembled name fields post ks = .error r) : RaisedWithin fields post ks r := by
  unfold assembled at failed
  cases begun : fields.mapM (initial ks) with
  | error r' =>
    rw [begun] at failed
    cases failed
    obtain ⟨f, member, refused⟩ := mapM_error begun
    exact .inl ⟨f, member, initial_error refused⟩
  | ok values =>
    rw [begun] at failed
    refine .inr ⟨values, begun, ?_⟩
    cases done : completed post values with
    | error r' =>
      simp only [finish, done, bind, Except.bind, Except.map] at failed
      cases failed
      rfl
    | ok all =>
      simp only [finish, done, bind, Except.bind, Except.map] at failed
      cases failed

variable (taken : ∀ k v, (k, v) ∈ ks → ∃ f ∈ fields, f.settable = true ∧ f.name = k)
  (complete : ∀ f ∈ fields, f.settable = true → f.fallback = none → ∃ v, (f.name, v) ∈ ks) (title : String)

include taken in
theorem surplus_taken : (recordSignature title fields).surplus ks = [] := by
  unfold Signature.surplus
  rw [List.filter_eq_nil_iff]
  rintro ⟨k, v⟩ given
  obtain ⟨f, member, own, rfl⟩ := taken k v given
  have accepted : f.inConstructor = true := ((Bool.and_eq_true _ _).mp own).1
  simpa [recordSignature] using ⟨f, member, accepted, rfl⟩

include complete in
theorem lacking_complete (undemanding : Undemanding fields) (keywordOnly : Bool) :
    (recordSignature title fields).lacking ks keywordOnly = [] := by
  unfold Signature.lacking
  rw [List.map_eq_nil_iff, List.filter_eq_nil_iff]
  intro p member
  simp only [recordSignature, List.mem_map, List.mem_filter] at member
  obtain ⟨f, ⟨inside, accepted⟩, rfl⟩ := member
  cases fallback : f.fallback with
  | some v => simp
  | none =>
    have kept : f.initOnly = false := by
      refine eq_false_of_ne_true fun only => ?_
      have some := undemanding f inside only
      rw [fallback] at some
      contradiction
    have own : f.settable = true := by rw [FieldSpec.settable, accepted, kept]; rfl
    have given := Keywords.find_isSome.mpr (complete f inside own fallback)
    simp [Option.isNone_eq_false_iff.mpr given]

include taken complete in
/-- A record that gets what it must, and nothing else, becomes what its fields and its post-init make of it. -/
theorem buildRecord_bound (undemanding : Undemanding fields) (name : String) (post : Option PostInit) :
    buildRecord name fields post title ks = (assembled name fields post ks).mapError .raised := by
  have bound : ∃ all, (recordSignature title fields).bind ks = .ok all := by
    have rest : (recordSignature title fields).rest = none := rfl
    rw [Signature.bind, surplus_taken taken, lacking_complete complete title undemanding,
      lacking_complete complete title undemanding, rest]
    exact ⟨_, rfl⟩
  obtain ⟨all, bound⟩ := bound
  rw [buildRecord, bound]
  dsimp only
  rw [← assembled]
  cases assembled name fields post ks with
  | error r => rfl
  | ok v => rfl

end Calls

end Schema
end RowMapping
