import CaseIntake.Environment
import CaseIntake.Proofs.Dict

/-!
# CaseIntake.Proofs.Environment

What the environment of a list of variables knows: the value of the first variable of each name
that is not empty (`find?_ofGiven`), and no other name (`contains_ofGiven`).

`Identifies`: references that an environment does not tell apart (`resolve_of_identifies`).
-/

namespace CaseIntake
namespace Environment

theorem find?_declare (values : Dict Value) (v : Variable) (name : String) :
    (declare values v).find? name =
      (values.find? name).or
        (if name ≠ "" ∧ v.name = name then some (v.value.getD .null) else none) := by
  rw [declare]
  split
  · rename_i h
    by_cases hn : name ≠ "" ∧ v.name = name
    · obtain ⟨hne, rfl⟩ := hn
      have hc : values.contains v.name = true := by simpa [hne] using h
      obtain ⟨value, hv⟩ := Dict.contains_iff.1 hc
      simp [hv]
    · simp [hn]
  · rename_i h
    simp only [Bool.or_eq_true, decide_eq_true_eq, not_or, Bool.not_eq_true] at h
    obtain ⟨hne, hc⟩ := h
    rw [Dict.find?_insert]
    by_cases hn : v.name = name
    · subst hn
      simp [Dict.contains_eq_false.1 hc, hne]
    · simp [hn]

theorem find?_foldl_declare (given : List Variable) (name : String) :
    ∀ values : Dict Value,
      (given.foldl declare values).find? name =
        (values.find? name).or
          (if name = "" then none
            else (given.find? (·.name = name)).map fun v => v.value.getD .null) := by
  induction given with
  | nil => intro values; simp
  | cons v rest ih =>
    intro values
    rw [List.foldl_cons, ih, find?_declare, Option.or_assoc]
    congr 1
    by_cases hname : name = ""
    · simp [hname]
    · by_cases hv : v.name = name <;> simp [hname, hv]

theorem find?_ofGiven (given : List Variable) (name : String) :
    (ofGiven given).find? name =
      if name = "" then none
      else (given.find? (·.name = name)).map fun v => v.value.getD .null := by
  rw [find?, ofGiven, find?_foldl_declare]
  simp

theorem contains_ofGiven {given : List Variable} {name : String} :
    (ofGiven given).contains name = true ↔ name ≠ "" ∧ ∃ v ∈ given, v.name = name := by
  have h := find?_ofGiven given name
  rw [find?] at h
  rw [contains, Dict.contains, h]
  by_cases hname : name = "" <;> simp [hname]

/-- Which names are known does not depend on the order of the variables. -/
theorem contains_of_perm {given given' : List Variable} (h : given'.Perm given) :
    (ofGiven given').contains = (ofGiven given).contains := by
  funext name
  rw [Bool.eq_iff_iff, contains_ofGiven, contains_ofGiven]
  simp only [h.mem_iff]

theorem resolve_eq_bound_iff {env : Environment} {token name : String} {value : Value} :
    env.resolve token = .bound name value ↔
      name = Reference.name token ∧ env.find? name = some value := by
  rw [resolve]
  cases hfind : env.find? (Reference.name token) with
  | none =>
    simp only [reduceCtorEq, false_iff, not_and]
    rintro rfl
    simp [hfind]
  | some found =>
    simp only [Binding.bound.injEq]
    constructor
    · rintro ⟨rfl, rfl⟩
      exact ⟨rfl, hfind⟩
    · rintro ⟨rfl, hvalue⟩
      exact ⟨rfl, Option.some.inj (hfind.symm.trans hvalue)⟩

theorem resolve_eq_unbound_iff {env : Environment} {token other : String} :
    env.resolve token = .unbound other ↔
      other = token ∧ env.contains (Reference.name token) = false := by
  rw [resolve, contains, Dict.contains_eq_false, ← find?]
  cases env.find? (Reference.name token) with
  | none => simp [eq_comm]
  | some found => simp

theorem resolve_of_contains_eq_false {env : Environment} {token : String}
    (h : env.contains (Reference.name token) = false) : env.resolve token = .unbound token :=
  resolve_eq_unbound_iff.2 ⟨rfl, h⟩

/-- A reference resolves to the variable of its name if there is one. -/
theorem resolve_cases (env : Environment) (token : String) :
    (∃ value, env.contains (Reference.name token) = true ∧
      env.resolve token = .bound (Reference.name token) value) ∨
    (env.contains (Reference.name token) = false ∧ env.resolve token = .unbound token) := by
  cases hc : env.contains (Reference.name token) with
  | true =>
    obtain ⟨value, hfind⟩ := Dict.contains_iff.1 hc
    exact Or.inl ⟨value, rfl, resolve_eq_bound_iff.2 ⟨rfl, hfind⟩⟩
  | false => exact Or.inr ⟨rfl, resolve_of_contains_eq_false hc⟩

/-- The same text, or two references to one name that is known. -/
def Identifies (env : Environment) (a b : String) : Prop :=
  a = b ∨ Reference.name a = Reference.name b ∧ env.contains (Reference.name a) = true

/-- Two texts for one reference resolve to the variable that it refers to. -/
theorem resolve_of_identifies {env : Environment} {a b : String} (h : env.Identifies a b) :
    a = b ∨ ∃ name value, env.resolve a = .bound name value ∧ env.resolve b = .bound name value := by
  rcases h with rfl | ⟨hname, hknown⟩
  · exact Or.inl rfl
  · obtain ⟨value, hfind⟩ := Dict.contains_iff.1 hknown
    refine Or.inr ⟨Reference.name a, value, ?_, ?_⟩
    · exact resolve_eq_bound_iff.2 ⟨rfl, hfind⟩
    · exact resolve_eq_bound_iff.2 ⟨hname, hfind⟩

end Environment
end CaseIntake
