import CaseIntake.Proofs.Conversion.Collect

/-!
# CaseIntake.Proofs.Conversion.Identifiers

Where identifiers come from shows in the identifiers and nowhere else. Any two sources give the same
specifications without their identifiers, the same skipped cases and the same errors
(`ingest_anonymous`).
-/

namespace CaseIntake

/-- The specification without its identifier. -/
def Spec.anonymous (s : Spec) : Spec :=
  { s with id := "" }

namespace Conversion

def anonymous (c : Conversion) : Conversion :=
  { c with specs := c.specs.map Spec.anonymous }

theorem ofTest_anonymous (ctx : Context) (id id' : String) (c : TestCase) :
    (ofTest ctx id c).map Spec.anonymous = (ofTest ctx id' c).map Spec.anonymous := by
  rw [ofTest, ofTest]
  cases inputsOfTest c with
  | error e => rfl
  | ok inputs => rfl

theorem ofSimple_anonymous (ctx : Context) (id id' : String) (c : SimpleCase) :
    (ofSimple ctx id c).map Spec.anonymous = (ofSimple ctx id' c).map Spec.anonymous := by
  rw [ofSimple, ofSimple]
  cases inputsOfSimple c with
  | error e => rfl
  | ok inputs => rfl

theorem alike_of_map_anonymous_eq {x y : Except SkipReason Spec}
    (h : x.map Spec.anonymous = y.map Spec.anonymous) :
    Alike (fun spec spec' => spec'.anonymous = spec.anonymous) x y := by
  cases x with
  | error e =>
    cases y with
    | error e' =>
      obtain rfl : e = e' := Except.error.inj h
      exact .error
    | ok spec' => cases h
  | ok spec =>
    cases y with
    | error e' => cases h
    | ok spec' => exact .ok (Except.ok.inj h).symm

theorem add_anonymous (index : Nat) (name : String) (outcome : Except SkipReason Spec)
    (later : Conversion) :
    (add index name outcome later).anonymous =
      add index name (outcome.map Spec.anonymous) later.anonymous := by
  cases outcome with
  | error reason => rfl
  | ok spec => rfl

theorem collect_anonymous {α : Type} (nameOf : α → String)
    {convert : String → α → Except SkipReason Spec}
    (h : ∀ id id' c, (convert id c).map Spec.anonymous = (convert id' c).map Spec.anonymous)
    (ids ids' : Nat → String) (k : Nat) (cs : List α) :
    (collect nameOf convert ids k cs).anonymous = (collect nameOf convert ids' k cs).anonymous := by
  induction cs generalizing k with
  | nil => rfl
  | cons c cs ih => rw [collect, collect, add_anonymous, add_anonymous, h _ (ids' k), ih]

theorem accept_anonymous (c : Conversion) : c.accept.map anonymous = c.anonymous.accept := by
  rw [accept, accept]
  cases hspecs : c.specs with
  | nil => simp [anonymous, hspecs, Except.map]
  | cons spec specs => simp [anonymous, hspecs, Except.map]

end Conversion

section Sources

variable (ids ids' : Nat → String) (target : Target) (o : Options)

theorem Suite.convert_anonymous (s : Suite) :
    (s.convert ids target o).map Conversion.anonymous =
      (s.convert ids' target o).map Conversion.anonymous := by
  rw [Suite.convert, Suite.convert, Conversion.accept_anonymous, Conversion.accept_anonymous,
    Conversion.ofSuite, Conversion.ofSuite,
    Conversion.collect_anonymous _ (Conversion.ofTest_anonymous _) ids ids']

theorem SimpleCase.convertAll_anonymous (cases : List SimpleCase) :
    (SimpleCase.convertAll cases ids target o).map Conversion.anonymous =
      (SimpleCase.convertAll cases ids' target o).map Conversion.anonymous := by
  rw [SimpleCase.convertAll, SimpleCase.convertAll, Conversion.accept_anonymous,
    Conversion.accept_anonymous, Conversion.ofCases, Conversion.ofCases,
    Conversion.collect_anonymous _ (Conversion.ofSimple_anonymous _) ids ids']

def Ingested.anonymous (i : Ingested) : Ingested :=
  { i with conversion := i.conversion.anonymous }

/-- What is handed on with a conversion has no identifiers. -/
theorem map_ingested_anonymous {x y : Except IngestError Conversion}
    (h : x.map Conversion.anonymous = y.map Conversion.anonymous) (shape : DocumentShape)
    (warnings : List Finding) :
    (x.map fun c => Ingested.mk shape c warnings).map Ingested.anonymous =
      (y.map fun c => Ingested.mk shape c warnings).map Ingested.anonymous := by
  have hswap (z : Except IngestError Conversion) :
      (z.map fun c => Ingested.mk shape c warnings).map Ingested.anonymous =
        (z.map Conversion.anonymous).map fun c => Ingested.mk shape c warnings := by
    cases z <;> rfl
  rw [hswap, hswap, h]

theorem ingest_anonymous (text : String) :
    (ingest ids target o text).map Ingested.anonymous =
      (ingest ids' target o text).map Ingested.anonymous := by
  unfold ingest
  cases Document.resolve o text with
  | error r => rfl
  | ok resolved =>
    obtain ⟨shape, content⟩ := resolved
    cases content with
    | canonical s =>
      simp only [ingestSuite_eq_map]
      split
      · exact map_ingested_anonymous (Suite.convert_anonymous ids ids' target o _) _ _
      · rfl
    | simplified cases =>
      simp only [ingestCases_eq_map]
      exact map_ingested_anonymous (SimpleCase.convertAll_anonymous ids ids' target o cases) _ _

end Sources
end CaseIntake
