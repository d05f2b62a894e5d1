import CaseIntake.Proofs.Validation.Fields

/-!
# CaseIntake.Proofs.Validation.Locality

What is said of a case is said under its path, and depends on the other cases by their names only:
`warnings_local`.

* `diagnostics_at`: the diagnostics of a case stand between those of the cases before and after it.
* `Begins`, `Avoids`: the paths of all fields begin so, or none does. The index in a path tells the
  cases apart, and the word after it the parts of a case.
* `under_diagnostics`: the findings under the path of a case are what its checks say.
-/

namespace CaseIntake
namespace Validation

/-- The findings on fields whose paths begin so. -/
def under (path : String) (findings : List Finding) : List Finding :=
  findings.filter fun f => path.toList.isPrefixOf f.field.toList

theorem mem_under {path : String} {findings : List Finding} {f : Finding} :
    f ∈ under path findings ↔ f ∈ findings ∧ path.toList <+: f.field.toList := by
  rw [under, List.mem_filter, List.isPrefixOf_iff_prefix]

theorem under_append (path : String) (xs ys : List Finding) :
    under path (xs ++ ys) = under path xs ++ under path ys :=
  List.filter_append ..

/-- The path of every field begins so. -/
def Begins (path : String) (ds : List Diagnostic) : Prop :=
  ∀ d ∈ ds, path.toList <+: d.finding.field.toList

/-- The path of no field begins so. -/
def Avoids (path : String) (ds : List Diagnostic) : Prop :=
  ∀ d ∈ ds, ¬path.toList <+: d.finding.field.toList

theorem Begins.under_eq {path : String} {ds : List Diagnostic} (h : Begins path ds)
    (severity : Severity) :
    under path (Diagnostic.only severity ds) = Diagnostic.only severity ds := by
  refine List.filter_eq_self.2 fun f hf => ?_
  obtain ⟨d, hd, rfl⟩ := exists_of_mem_only hf
  exact List.isPrefixOf_iff_prefix.2 (h d hd)

theorem Avoids.under_eq {path : String} {ds : List Diagnostic} (h : Avoids path ds)
    (severity : Severity) : under path (Diagnostic.only severity ds) = [] := by
  refine List.filter_eq_nil_iff.2 fun f hf => ?_
  obtain ⟨d, hd, rfl⟩ := exists_of_mem_only hf
  rw [List.isPrefixOf_iff_prefix]
  exact h d hd

theorem Avoids.append {path : String} {xs ys : List Diagnostic} (hx : Avoids path xs)
    (hy : Avoids path ys) : Avoids path (xs ++ ys) :=
  List.forall_mem_append.2 ⟨hx, hy⟩

/-! ## The parts of a case -/

/-- Below a path, what begins with one word does not begin with another. -/
theorem Begins.avoids {path a b : String} {ds : List Diagnostic} (h : Begins (path ++ a) ds)
    (hab : ¬a.toList <+: b.toList) (hba : ¬b.toList <+: a.toList) : Avoids (path ++ b) ds := by
  intro d hd hb
  rcases List.prefix_or_prefix_of_prefix (h d hd) hb with hprefix | hprefix
  · exact hab (by simpa using hprefix)
  · exact hba (by simpa using hprefix)

theorem Below.begins {path : String} {ds : List Diagnostic} (h : Below path ds) :
    Begins (path ++ "/") ds := by
  intro d hd
  simpa using h d hd

/-- What is said of the elements of a list is said under the path of the list. -/
theorem begins_walk {α : Type} {path : String} {check : Nat → List α → α → List Diagnostic}
    (h : ∀ k before x, Below (element path k) (check k before x)) (xs : List α) (k : Nat)
    (before : List α) : Begins path (walk check k before xs) := by
  intro d hd
  obtain ⟨j, before, x, hd⟩ := exists_of_mem_walk hd
  have helement : path.toList <+: (element path j).toList := by simp [toList_element]
  exact helement.trans ((List.prefix_append _ _).trans (h j before x d hd))

section Parts

variable (o : Options) (path : String)

theorem begins_onGiven (given : List Variable) :
    Begins (path ++ "/given") (onGiven o path given) := by
  rw [onGiven, onGivenFrom_eq_walk]
  exact begins_walk (fun j before v => below_onVariable o _ _ v) given 0 []

theorem begins_onAction (env : Environment) (a : Invocation) :
    Begins (path ++ "/when") (onAction env (path ++ "/when") a) := by
  intro d hd
  exact (List.prefix_append _ _).trans (below_onAction (path ++ "/when") env a d hd)

theorem begins_onChecks (checks : List Check) :
    Begins (path ++ "/then") (onChecks o (path ++ "/then") checks) := by
  rw [onChecks]
  split
  · intro d hd
    obtain rfl := List.mem_singleton.1 hd
    exact List.prefix_rfl
  · rw [onChecksFrom_eq_walk]
    exact begins_walk (fun k _ c => below_onCheck o _ c) checks 0 []

end Parts

/-! ## A case among others -/

theorem element_prefix_inj {path : String} {i j : Nat} {field : List Char}
    (hi : (element path i ++ "/").toList <+: field) (hj : (element path j ++ "/").toList <+: field) :
    i = j := by
  obtain ⟨a, rfl⟩ := hi
  obtain ⟨b, hb⟩ := hj
  simp only [String.toList_append, toList_element, List.append_assoc, List.append_cancel_left_eq,
    List.cons_append, List.cons.injEq, true_and, List.nil_append, digits_bracket_inj] at hb
  exact hb.1.symm

theorem Begins.avoids_element {path : String} {i j : Nat} {ds : List Diagnostic}
    (h : Begins (element path i ++ "/") ds) (hne : j ≠ i) : Avoids (element path j ++ "/") ds :=
  fun d hd hj => hne (element_prefix_inj hj (h d hd))

/-- The names of the tests before a position, the nearest first. -/
def namesBefore (tests : List TestCase) (i : Nat) : List String :=
  ((tests.take i).map TestCase.name).reverse

theorem mem_namesBefore {tests : List TestCase} {i : Nat} {name : String} :
    name ∈ namesBefore tests i ↔ ∃ j < i, ∃ c, tests[j]? = some c ∧ c.name = name := by
  rw [namesBefore, List.mem_reverse, List.mem_map]
  constructor
  · rintro ⟨c, hc, hname⟩
    obtain ⟨j, hj⟩ := List.mem_iff_getElem?.1 hc
    obtain ⟨hlt, -⟩ := List.getElem?_eq_some_iff.1 hj
    rw [List.length_take] at hlt
    rw [List.getElem?_take_of_lt (by omega)] at hj
    exact ⟨j, by omega, c, hj, hname⟩
  · rintro ⟨j, hlt, c, hc, hname⟩
    rw [← List.getElem?_take_of_lt hlt] at hc
    exact ⟨c, List.mem_of_getElem? hc, hname⟩

section Suite

variable {o : Options}

theorem onCasesFrom_append (k : Nat) (earlier : List String) (xs ys : List TestCase) :
    onCasesFrom o k earlier (xs ++ ys) =
      onCasesFrom o k earlier xs ++
        onCasesFrom o (k + xs.length) ((xs.map TestCase.name).reverse ++ earlier) ys := by
  induction xs generalizing k earlier with
  | nil => simp [onCasesFrom]
  | cons c xs ih =>
    rw [List.cons_append, onCasesFrom, onCasesFrom, ih]
    simp [Nat.add_comm, Nat.add_left_comm]

/-- The cases of a list are told apart by their positions in it. -/
theorem avoids_onCasesFrom {i k : Nat} {earlier : List String} {cs : List TestCase}
    (h : i < k ∨ k + cs.length ≤ i) :
    Avoids (element "tests" i ++ "/") (onCasesFrom o k earlier cs) := by
  induction cs generalizing k earlier with
  | nil => exact fun d hd => absurd hd List.not_mem_nil
  | cons c cs ih =>
    rw [List.length_cons] at h
    refine Avoids.append ?_ (ih (by omega))
    exact (below_onCase o _ earlier c).begins.avoids_element (by omega)

/-- What is said before a case: of the name of the function, and of the cases before it. -/
def onBefore (o : Options) (s : Suite) (i : Nat) : List Diagnostic :=
  onFunctionName o s.functionName ++ onCasesFrom o 0 [] (s.tests.take i)

/-- What is said of the cases after a case. -/
def onAfter (o : Options) (s : Suite) (i : Nat) : List Diagnostic :=
  onCasesFrom o (i + 1) (namesBefore s.tests (i + 1)) (s.tests.drop (i + 1))

theorem diagnostics_at {s : Suite} {i : Nat} {c : TestCase} (hc : s.tests[i]? = some c) :
    diagnostics o s =
      onBefore o s i ++ onCase o (element "tests" i) (namesBefore s.tests i) c ++
        onAfter o s i := by
  obtain ⟨hlt, hget⟩ := List.getElem?_eq_some_iff.1 hc
  have hlength : (s.tests.take i).length = i := by
    rw [List.length_take]
    omega
  have htests : s.tests = s.tests.take i ++ c :: s.tests.drop (i + 1) := by
    rw [← hget, ← List.drop_eq_getElem_cons hlt, List.take_append_drop]
  have hnames : namesBefore s.tests (i + 1) = c.name :: namesBefore s.tests i := by
    rw [namesBefore, List.take_add_one, hc]
    simp [namesBefore]
  have hcases : onCasesFrom o 0 [] s.tests =
      onCasesFrom o 0 [] (s.tests.take i) ++
        (onCase o (element "tests" i) (namesBefore s.tests i) c ++ onAfter o s i) := by
    have happend : onCasesFrom o 0 [] (s.tests.take i ++ c :: s.tests.drop (i + 1)) = _ :=
      onCasesFrom_append 0 [] _ _
    rw [← htests] at happend
    rw [happend, hlength, onCasesFrom, onAfter, hnames]
    simp [namesBefore]
  have hne : s.tests.isEmpty = false := by
    rw [htests]
    simp
  simp [diagnostics, hcases, hne, onBefore, List.append_assoc]

theorem avoids_onBefore (s : Suite) (i : Nat) :
    Avoids (element "tests" i ++ "/") (onBefore o s i) := by
  refine Avoids.append (fun d hd => ?_) (avoids_onCasesFrom (Or.inr ?_))
  · rw [field_of_mem_onFunctionName d hd]
    simp [toList_element]
  · rw [List.length_take]
    omega

theorem avoids_onAfter (s : Suite) (i : Nat) :
    Avoids (element "tests" i ++ "/") (onAfter o s i) :=
  avoids_onCasesFrom (Or.inl (Nat.lt_succ_self i))

/-- The findings under the path of a case are what is said of the case. -/
theorem under_diagnostics {s : Suite} {i : Nat} {c : TestCase} (hc : s.tests[i]? = some c)
    (severity : Severity) :
    under (element "tests" i ++ "/") (Diagnostic.only severity (diagnostics o s)) =
      Diagnostic.only severity (onCase o (element "tests" i) (namesBefore s.tests i) c) := by
  rw [diagnostics_at hc, Diagnostic.only_append, Diagnostic.only_append, under_append, under_append,
    (avoids_onBefore s i).under_eq, (avoids_onAfter s i).under_eq,
    (below_onCase o _ _ c).begins.under_eq, List.nil_append, List.append_nil]

end Suite

/-! ## Names -/

/-- The warning on a case with the name of an earlier one. -/
def repeatedName (i : Nat) (name : String) : Finding :=
  ⟨element "tests" i ++ "/name", "duplicate test name", some name⟩

theorem warnings_onName (i : Nat) (earlier : List String) (name : String) :
    Diagnostic.only .warning (onName (element "tests" i) earlier name) =
      if name ≠ "" ∧ name ∈ earlier then [repeatedName i name] else [] := by
  rw [onName]
  by_cases hempty : name = ""
  · simp [hempty, Diagnostic.only, Diagnostic.error]
  · by_cases hmem : name ∈ earlier <;>
      simp [hempty, hmem, Diagnostic.only, Diagnostic.warning, repeatedName]

/-- The rest of a case: all of it but its name. -/
def onRest (o : Options) (path : String) (c : TestCase) : List Diagnostic :=
  onGiven o path c.given ++ onAction (Environment.ofGiven c.given) (path ++ "/when") c.action ++
    onChecks o (path ++ "/then") c.checks

theorem onCase_eq (o : Options) (path : String) (earlier : List String) (c : TestCase) :
    onCase o path earlier c = onName path earlier c.name ++ onRest o path c := by
  simp only [onCase, onRest, List.append_assoc]

theorem avoids_onRest (o : Options) (path : String) (c : TestCase) :
    Avoids (path ++ "/name") (onRest o path c) :=
  (((begins_onGiven o path c.given).avoids (by decide +kernel) (by decide +kernel)).append
    ((begins_onAction path _ c.action).avoids (by decide +kernel) (by decide +kernel))).append
    ((begins_onChecks o path c.checks).avoids (by decide +kernel) (by decide +kernel))

theorem repeatedName_not_mem_onRest (o : Options) (i : Nat) (c : TestCase) :
    repeatedName i c.name ∉ Diagnostic.only .warning (onRest o (element "tests" i) c) := by
  intro hmem
  obtain ⟨d, hd, hfinding⟩ := exists_of_mem_only hmem
  refine avoids_onRest o _ c d hd ?_
  rw [hfinding]
  exact List.prefix_rfl

section Local

variable {s : Suite} {i : Nat} {c : TestCase} (hc : s.tests[i]? = some c) (o : Options)

include hc

theorem under_warnings :
    under (element "tests" i ++ "/") (s.validate o).warnings =
      (if c.name ≠ "" ∧ c.name ∈ namesBefore s.tests i then [repeatedName i c.name] else []) ++
        Diagnostic.only .warning (onRest o (element "tests" i) c) := by
  rw [← warnings_onName, ← Diagnostic.only_append, ← onCase_eq]
  exact under_diagnostics hc .warning

theorem filter_under_warnings :
    (under (element "tests" i ++ "/") (s.validate o).warnings).filter
        (· ≠ repeatedName i c.name) =
      Diagnostic.only .warning (onRest o (element "tests" i) c) := by
  have hrest : (Diagnostic.only .warning (onRest o (element "tests" i) c)).filter
      (· ≠ repeatedName i c.name) = Diagnostic.only .warning (onRest o (element "tests" i) c) := by
    refine List.filter_eq_self.2 fun f hf => decide_eq_true ?_
    rintro rfl
    exact repeatedName_not_mem_onRest o i c hf
  rw [under_warnings hc o, List.filter_append, hrest]
  split <;> simp

theorem repeatedName_mem_iff :
    repeatedName i c.name ∈ (s.validate o).warnings ↔
      c.name ≠ "" ∧ ∃ j < i, ∃ d, s.tests[j]? = some d ∧ d.name = c.name := by
  have hunder : repeatedName i c.name ∈ (s.validate o).warnings ↔
      repeatedName i c.name ∈ under (element "tests" i ++ "/") (s.validate o).warnings := by
    rw [mem_under]
    refine (and_iff_left ?_).symm
    simp [repeatedName]
  rw [hunder, under_warnings hc o, List.mem_append,
    or_iff_left (repeatedName_not_mem_onRest o i c), ← mem_namesBefore]
  split <;> simp_all

end Local

/-- Two suites with the same case at one position have the same warnings on it, whatever their other
cases and their functions are. Only the warning on a repeated name looks at other cases, and at
nothing but the names of those before it. -/
theorem warnings_local {s t : Suite} {i : Nat} {c : TestCase} (hs : s.tests[i]? = some c)
    (ht : t.tests[i]? = some c) (o : Options) :
    (under (element "tests" i ++ "/") (s.validate o).warnings).filter
        (· ≠ repeatedName i c.name) =
      (under (element "tests" i ++ "/") (t.validate o).warnings).filter
        (· ≠ repeatedName i c.name) ∧
    (repeatedName i c.name ∈ (s.validate o).warnings ↔
      c.name ≠ "" ∧ ∃ j < i, ∃ d, s.tests[j]? = some d ∧ d.name = c.name) ∧
    (repeatedName i c.name ∈ (t.validate o).warnings ↔
      c.name ≠ "" ∧ ∃ j < i, ∃ d, t.tests[j]? = some d ∧ d.name = c.name) :=
  ⟨(filter_under_warnings hs o).trans (filter_under_warnings ht o).symm,
    repeatedName_mem_iff hs o, repeatedName_mem_iff ht o⟩

/-- The second of two tests, and the second of thirteen, of which the eleventh and those after it
have the same faults and the same name. -/
theorem warnings_local_second :
    let c : TestCase := ⟨"n", none, [⟨"2x", some (.string "1"), some "int"⟩, ⟨"y", none, none⟩],
      ⟨"F($z, $y)", ["2x"]⟩, [], []⟩
    let s : Suite := ⟨"F", none, [⟨"n", none, [], ⟨"", []⟩, [], []⟩, c]⟩
    let t : Suite := ⟨"", none, ⟨"m", none, [], ⟨"", []⟩, [], []⟩ :: c :: List.replicate 11 c⟩
    let here := under (element "tests" 1 ++ "/")
    let repeated := repeatedName 1 "n"
    (here (s.validate .standard).warnings).filter (· ≠ repeated) =
        (here (t.validate .standard).warnings).filter (· ≠ repeated) ∧
      repeated ∈ (s.validate .standard).warnings ∧
      repeated ∉ (t.validate .standard).warnings := by
  intro c s t here repeated
  have hs : s.tests[1]? = some c := rfl
  have ht : t.tests[1]? = some c := rfl
  obtain ⟨hsame, hrepeated, hunrepeated⟩ := warnings_local hs ht .standard
  refine ⟨hsame, ?_, ?_⟩
  · exact hrepeated.2 ⟨by decide +kernel, 0, Nat.zero_lt_one, _, rfl, rfl⟩
  · intro hmem
    obtain ⟨-, j, hj, d, hd, hname⟩ := hunrepeated.1 hmem
    obtain rfl : j = 0 := by omega
    obtain rfl := Option.some.inj hd
    exact absurd hname (by decide +kernel)

end Validation
end CaseIntake
