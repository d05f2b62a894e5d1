import CaseIntake.Proofs.Conversion.Consistency
import CaseIntake.Proofs.Json.Shape
import CaseIntake.Proofs.Validation.Fields

/-!
# CaseIntake.Proofs.Ingest

The check of a canonical document and its ingestion never disagree: `strict_check_agrees`.

The check sees a suite as it is written, and ingestion sees it under the name of the target if it
has none of its own. A suite by its marks has a name (`Suite.functionName_ne_of_decode`), so there
both see the same. One case alone never has one; the two reports then differ in what they say of
the name and in nothing else. What ingestion does with a suite follows from the report that it acts
on (`actsOn_ingestSuite`), since a valid suite is converted without loss.
-/

namespace CaseIntake

open Validation

/-- What becomes of a suite with so many tests: its report decides, and is handed on as it is. -/
structure ActsOn (report : Report) (shape : DocumentShape) (tests : Nat)
    (result : Except IngestError Ingested) : Prop where
  accepts : report.valid = true →
    ∃ specs, result = .ok ⟨shape, ⟨specs, []⟩, report.warnings⟩ ∧ specs.length = tests
  refuses : report.valid = false → result = .error (.invalid report) ∧
    (IngestError.invalid report).message =
      "validation failed: " ++ String.intercalate "; " (report.errors.map Finding.text)

theorem ActsOn.isOk_iff {report : Report} {shape : DocumentShape} {tests : Nat}
    {result : Except IngestError Ingested} (h : ActsOn report shape tests result) :
    (∃ out, result = .ok out) ↔ report.valid = true := by
  constructor
  · rintro ⟨out, hok⟩
    cases hvalid : report.valid with
    | true => rfl
    | false =>
      rw [(h.refuses hvalid).1] at hok
      cases hok
  · intro hvalid
    obtain ⟨specs, hok, -⟩ := h.accepts hvalid
    exact ⟨_, hok⟩

/-- No document loses all its cases once its report lets it through. -/
theorem ActsOn.ne_noCasesConverted {report : Report} {shape : DocumentShape} {tests : Nat}
    {result : Except IngestError Ingested} (h : ActsOn report shape tests result)
    (skipped : List Skip) : result ≠ .error (.noCasesConverted skipped) := by
  intro herror
  cases hvalid : report.valid with
  | true =>
    obtain ⟨specs, hok, -⟩ := h.accepts hvalid
    rw [hok] at herror
    cases herror
  | false =>
    rw [(h.refuses hvalid).1] at herror
    cases herror

section

variable (ids : Nat → String) (target : Target) (o : Options) (shape : DocumentShape)

theorem actsOn_ingestSuite (s : Suite) :
    ActsOn (s.validate o) shape s.tests.length (ingestSuite ids target o shape s) := by
  rw [ingestSuite_eq_map]
  constructor
  · intro hvalid
    obtain ⟨specs, hcollect, hne, hlength⟩ := collect_of_valid ids target hvalid
    refine ⟨specs, ?_, hlength⟩
    have haccept : Conversion.accept ⟨specs, []⟩ = .ok ⟨specs, []⟩ := Conversion.accept_eq_ok hne
    rw [if_pos hvalid, Suite.convert, hcollect, haccept]
    rfl
  · intro hinvalid
    rw [if_neg (by simp [hinvalid])]
    exact ⟨rfl, rfl⟩

theorem ingestCases_ne_invalid (cases : List SimpleCase) (report : Report) :
    ingestCases ids target o shape cases ≠ .error (.invalid report) := by
  rw [ingestCases_eq_map, SimpleCase.convertAll, Conversion.accept]
  split <;> intro h <;> cases h

end

/-! ## Names -/

theorem Suite.functionName_ne_of_decode {doc : Json} {s : Suite}
    (htext : doc.HasText "function_name") (h : Suite.decode doc = .ok s) : s.functionName ≠ "" := by
  obtain ⟨name, hmember, c, hc, -⟩ := htext
  cases doc with
  | null | bool _ | int _ | float _ | string _ | array _ => cases hmember
  | object members =>
    obtain ⟨_, _, hmore, -, rfl⟩ := Shape.exists_of_reads_seq (Shape.reads_of_decoder h)
    obtain ⟨_, _, hfirst, -, rfl⟩ := Shape.exists_of_reads_seq hmore
    obtain ⟨read, hname, rfl⟩ := Shape.exists_of_reads_map hfirst
    have hread : Decoder.string (.string name) = .ok read :=
      Shape.decode_of_reads_field hname hmember
    obtain rfl := Except.ok.inj hread
    rintro rfl
    cases hc

theorem Suite.named_of_ne {s : Suite} (h : s.functionName ≠ "") (target : Target) :
    s.named target = s :=
  if_neg h

theorem Suite.functionName_named {s : Suite} (h : s.functionName = "") (target : Target) :
    (s.named target).functionName = target.functionName := by
  rw [Suite.named, if_pos h]

/-- Under another name a suite has the same findings as before, but for those on the name. -/
theorem Suite.elsewhere_named (s : Suite) (target : Target) (o : Options) :
    elsewhere ((s.named target).validate o).errors = elsewhere (s.validate o).errors ∧
      elsewhere ((s.named target).validate o).warnings = elsewhere (s.validate o).warnings := by
  have hsame (severity : Severity) :
      elsewhere (Diagnostic.only severity (diagnostics o (s.named target))) =
        elsewhere (Diagnostic.only severity (diagnostics o s)) := by
    rw [elsewhere_diagnostics, elsewhere_diagnostics, s.tests_named target]
  exact ⟨hsame .error, hsame .warning⟩

theorem Suite.exists_error_of_unnamed {s : Suite} (h : s.functionName = "") (o : Options) :
    ∃ e ∈ (s.validate o).errors, e.field = "function_name" := by
  have herrors : (s.validate o).errors =
      ⟨"function_name", "function_name is required", none⟩ ::
        Diagnostic.only .error (onTests o s.tests) := by
    rw [Suite.validate, Report.ofDiagnostics, diagnostics_eq, h, Diagnostic.only_append]
    rfl
  rw [herrors]
  exact ⟨_, List.mem_cons_self, rfl⟩

/-- One case alone is good under a name iff the name is proper and only a name was missing. -/
theorem Suite.valid_named_iff {s : Suite} (h : s.functionName = "") (target : Target)
    (o : Options) :
    ((s.named target).validate o).valid = true ↔
      (target.functionName ≠ "" ∧ ∀ c ∈ target.functionName.toList, Text.isBlank c = false) ∧
        ∀ e ∈ (s.validate o).errors, e.field = "function_name" := by
  rw [valid_iff_named, functionName_named h, (s.elsewhere_named target o).1, elsewhere_eq_nil]

/-! ## Documents -/

section Document

variable {ids : Nat → String} {target : Target} {o : Options} {text : String}

theorem parseAndValidate_of_refused {r : Document.Refusal} (h : Document.resolve o text = .error r) :
    parseAndValidate o text = .error (.malformed r) := by
  unfold parseAndValidate
  rw [h]

theorem parseAndValidate_of_canonical {shape : DocumentShape} {s : Suite}
    (h : Document.resolve o text = .ok ⟨shape, .canonical s⟩) :
    parseAndValidate o text = .ok (s, s.validate o) := by
  unfold parseAndValidate
  rw [h]

theorem parseAndValidate_of_simplified {shape : DocumentShape} {cases : List SimpleCase}
    (h : Document.resolve o text = .ok ⟨shape, .simplified cases⟩) :
    parseAndValidate o text =
      .error (.malformed (Document.refusal o text (.notCanonical shape))) := by
  unfold parseAndValidate
  rw [h]

theorem actsOn_ingest (ids : Nat → String) (target : Target) {shape : DocumentShape} {s : Suite}
    (h : Document.resolve o text = .ok ⟨shape, .canonical s⟩) :
    ActsOn ((s.named target).validate o) shape s.tests.length (ingest ids target o text) := by
  rw [ingest_of_canonical h, ← s.tests_named target]
  exact actsOn_ingestSuite ids target o shape (s.named target)

theorem suite_of_resolve {content : Content}
    (h : Document.resolve o text = .ok ⟨.canonicalSuite, content⟩) :
    ∃ s : Suite, content = .canonical s ∧ s.functionName ≠ "" := by
  obtain ⟨doc, -, hresolution⟩ := Document.resolve_eq_ok_iff.1 h
  cases hresolution with
  | suite htext hs => exact ⟨_, rfl, Suite.functionName_ne_of_decode htext hs⟩
  | simplified _ _ hreading => cases hreading

theorem case_of_resolve {content : Content}
    (h : Document.resolve o text = .ok ⟨.canonicalCase, content⟩) :
    ∃ s : Suite, content = .canonical s ∧ s.functionName = "" := by
  obtain ⟨doc, -, hresolution⟩ := Document.resolve_eq_ok_iff.1 h
  cases hresolution with
  | testCase _ _ _ => exact ⟨_, rfl, rfl⟩
  | simplified _ _ hreading => cases hreading

theorem simplified_of_resolve {shape : DocumentShape} {content : Content}
    (h : Document.resolve o text = .ok ⟨shape, content⟩)
    (hshape : shape = .caseList ∨ shape = .singleCase ∨ shape = .wrappedCases) :
    ∃ cases, content = .simplified cases := by
  obtain ⟨doc, -, hresolution⟩ := Document.resolve_eq_ok_iff.1 h
  cases hresolution with
  | suite _ _ | testCase _ _ _ => simp at hshape
  | simplified _ _ _ => exact ⟨_, rfl⟩

/-- The check of canonical documents and the ingestion agree on every text. What is malformed for
one is malformed for the other. A suite is ingested iff the check finds it valid, and otherwise
refused with the very report of the check. One case alone lacks a name in the check, all other
findings are those that ingestion acts on, and it is ingested iff the target has a proper name and
the check finds nothing else wrong. Simplified cases are malformed for the check; ingestion never
validates them, and it is only there that no case may be converted. -/
theorem strict_check_agrees (ids : Nat → String) (target : Target) (o : Options) (text : String) :
    (∀ r, Document.resolve o text = .error r →
      parseAndValidate o text = .error (.malformed r) ∧
        ingest ids target o text = .error (.malformed r)) ∧
    (∀ content, Document.resolve o text = .ok ⟨.canonicalSuite, content⟩ →
      ∃ s, content = .canonical s ∧ parseAndValidate o text = .ok (s, s.validate o) ∧
        ActsOn (s.validate o) .canonicalSuite s.tests.length (ingest ids target o text)) ∧
    (∀ content, Document.resolve o text = .ok ⟨.canonicalCase, content⟩ →
      ∃ s, content = .canonical s ∧ parseAndValidate o text = .ok (s, s.validate o) ∧
        (∃ e ∈ (s.validate o).errors, e.field = "function_name") ∧
        elsewhere ((s.named target).validate o).errors = elsewhere (s.validate o).errors ∧
        elsewhere ((s.named target).validate o).warnings = elsewhere (s.validate o).warnings ∧
        ActsOn ((s.named target).validate o) .canonicalCase s.tests.length
          (ingest ids target o text) ∧
        ((∃ out, ingest ids target o text = .ok out) ↔
          (target.functionName ≠ "" ∧ ∀ c ∈ target.functionName.toList, Text.isBlank c = false) ∧
            ∀ e ∈ (s.validate o).errors, e.field = "function_name")) ∧
    (∀ shape content, Document.resolve o text = .ok ⟨shape, content⟩ →
      shape = .caseList ∨ shape = .singleCase ∨ shape = .wrappedCases →
      parseAndValidate o text =
          .error (.malformed (Document.refusal o text (.notCanonical shape))) ∧
        ∀ report, ingest ids target o text ≠ .error (.invalid report)) ∧
    (∀ skipped, ingest ids target o text = .error (.noCasesConverted skipped) →
      ∃ shape cases, Document.resolve o text = .ok ⟨shape, .simplified cases⟩ ∧
        (shape = .caseList ∨ shape = .singleCase ∨ shape = .wrappedCases)) := by
  refine ⟨fun r hr => ?_, fun content h => ?_, fun content h => ?_, fun shape content h hshape => ?_,
    fun skipped hskipped => ?_⟩
  · exact ⟨parseAndValidate_of_refused hr, ingest_of_refused hr⟩
  · obtain ⟨s, rfl, hname⟩ := suite_of_resolve h
    have hacts := actsOn_ingest ids target h
    rw [s.named_of_ne hname target] at hacts
    exact ⟨s, rfl, parseAndValidate_of_canonical h, hacts⟩
  · obtain ⟨s, rfl, hname⟩ := case_of_resolve h
    obtain ⟨herrors, hwarnings⟩ := s.elsewhere_named target o
    have hacts := actsOn_ingest ids target h
    exact ⟨s, rfl, parseAndValidate_of_canonical h, s.exists_error_of_unnamed hname o, herrors,
      hwarnings, hacts, hacts.isOk_iff.trans (s.valid_named_iff hname target o)⟩
  · obtain ⟨cases, rfl⟩ := simplified_of_resolve h hshape
    refine ⟨parseAndValidate_of_simplified h, fun report => ?_⟩
    rw [ingest_of_simplified h]
    exact ingestCases_ne_invalid ids target o shape cases report
  · cases hresolve : Document.resolve o text with
    | error r =>
      rw [ingest_of_refused hresolve] at hskipped
      cases hskipped
    | ok resolved =>
      obtain ⟨shape, content⟩ := resolved
      cases content with
      | canonical s =>
        exact absurd hskipped ((actsOn_ingest ids target hresolve).ne_noCasesConverted skipped)
      | simplified cases =>
        obtain ⟨doc, -, hresolution⟩ := Document.resolve_eq_ok_iff.1 hresolve
        exact ⟨shape, cases, rfl, hresolution.reading_of_simplified.2.shape_eq⟩

/-- A canonical case without a suite. -/
def loneCase : String :=
  "\x7b\"name\":\"adds\",\"when\":\x7b\"call\":\"Add()\"\x7d," ++
    "\"then\":[\x7b\"type\":\"not_nil\",\"actual\":\"result\"\x7d]\x7d"

/-- The check misses the name only. A target with a proper name provides it, and one with a blank in
its name does not. -/
theorem strict_check_agrees_loneCase :
    ∃ s, Document.resolve .standard loneCase = .ok ⟨.canonicalCase, .canonical s⟩ ∧
      parseAndValidate .standard loneCase = .ok (s, s.validate .standard) ∧
      (∃ out, ingest (fun _ => "id") (.function "Add") .standard loneCase = .ok out) ∧
      ¬∃ out, ingest (fun _ => "id") (.function "Add it") .standard loneCase = .ok out := by
  let s : Suite :=
    ⟨"", none, [⟨"adds", none, [], ⟨"Add()", []⟩, [⟨"not_nil", "result", none, none⟩], []⟩]⟩
  have hresolve : Document.resolve .standard loneCase =
      .ok ⟨.canonicalCase, .canonical s⟩ := by
    decide +kernel
  have honly : ∀ e ∈ (s.validate .standard).errors, e.field = "function_name" := by
    decide +kernel
  have hingested (name : String) :
      (∃ out, ingest (fun _ => "id") (.function name) .standard loneCase = .ok out) ↔
        name ≠ "" ∧ ∀ c ∈ name.toList, Text.isBlank c = false := by
    obtain ⟨-, -, hcase, -⟩ :=
      strict_check_agrees (fun _ => "id") (.function name) .standard loneCase
    obtain ⟨s', hs, -, -, -, -, -, hiff⟩ := hcase _ hresolve
    obtain rfl : s = s' := Content.canonical.inj hs
    exact hiff.trans (and_iff_left honly)
  refine ⟨s, hresolve, parseAndValidate_of_canonical hresolve, ?_, ?_⟩
  · have hall : "Add".toList.all (fun c => !Text.isBlank c) = true := by decide
    refine (hingested "Add").2 ⟨by decide, fun c hc => ?_⟩
    simpa using List.all_eq_true.1 hall c hc
  · intro hok
    exact absurd (((hingested "Add it").1 hok).2 ' ' (by decide)) (by decide)

end Document
end CaseIntake
