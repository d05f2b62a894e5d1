import CaseIntake.Proofs.Conversion.RoundTrip
import CaseIntake.Proofs.SimpleCase.Json
import CaseIntake.Session

/-!
# CaseIntake.Proofs.Session

What requests make of a session.

* `Changes`: all that one request can do (`changes_step`). One that fails does nothing
  (`step_of_error`).
* `run_granted`: of requests that are made one after the other, those that fail can be left out.
* `reads_back_run`: whatever a new session was asked, what it holds is read back as it is written.
-/

namespace CaseIntake
namespace Session

/-! ## One request -/

section Step

variable {s : Session} {r : Request}

theorem taken_of_error {result : Except Document.Refusal (DocumentShape × Session)} {e : IngestError}
    (h : (s.taken result).1 = .error e) : (s.taken result).2 = s := by
  cases result with
  | error _ => rfl
  | ok _ => cases h

/-- A request that fails leaves the session as it was. -/
theorem step_of_error {e : IngestError} (h : (s.step r).1 = .error e) : (s.step r).2 = s := by
  cases r with
  | load text | append text =>
    rw [step] at h ⊢
    exact taken_of_error h
  | options _ | target _ | rename _ | drop _ => simp [step] at h
  | validate | canonicalize _ | canonicalizeSimple _ | ingest _ _ => rfl

end Step

/-- What one request can make of a session: nothing, other settings or another name, the tests or
cases of a document in place of those there were or after them, or one test less. -/
inductive Changes (s : Session) : Session → Prop where
  | nothing : Changes s s
  | options (o : Options) : Changes s { s with options := o }
  | target (t : Target) : Changes s { s with target := t }
  | loadedSuite {text : String} {shape : DocumentShape} {suite : Suite} :
      Document.resolve s.options text = .ok ⟨shape, .canonical suite⟩ →
      Changes s { s with suite := suite }
  | loadedCases {text : String} {shape : DocumentShape} {cases : List SimpleCase} :
      Document.resolve s.options text = .ok ⟨shape, .simplified cases⟩ →
      Changes s { s with cases := cases }
  | appendedTests {text : String} {shape : DocumentShape} {suite : Suite} :
      Document.resolve s.options text = .ok ⟨shape, .canonical suite⟩ →
      Changes s { s with suite := { s.suite with tests := s.suite.tests ++ suite.tests } }
  | appendedCases {text : String} {shape : DocumentShape} {cases : List SimpleCase} :
      Document.resolve s.options text = .ok ⟨shape, .simplified cases⟩ →
      Changes s { s with cases := s.cases ++ cases }
  | renamed (name : String) : Changes s { s with suite := { s.suite with functionName := name } }
  | dropped (index : Nat) :
      Changes s { s with suite := { s.suite with tests := s.suite.tests.eraseIdx index } }

/-- A document that is refused changes nothing. -/
theorem changes_taken {s : Session} {result : Except Document.Refusal (DocumentShape × Session)}
    (h : ∀ shape next, result = .ok (shape, next) → Changes s next) :
    Changes s (s.taken result).2 := by
  cases result with
  | error _ => exact .nothing
  | ok taken => exact h taken.1 taken.2 rfl

theorem changes_load {s next : Session} {text : String} {shape : DocumentShape}
    (h : s.load text = .ok (shape, next)) : Changes s next := by
  unfold load at h
  split at h
  · cases h
  · rename_i hresolve
    obtain ⟨rfl, rfl⟩ := Prod.mk.inj (Except.ok.inj h)
    exact .loadedSuite hresolve
  · rename_i hresolve
    obtain ⟨rfl, rfl⟩ := Prod.mk.inj (Except.ok.inj h)
    exact .loadedCases hresolve

theorem changes_append {s next : Session} {text : String} {shape : DocumentShape}
    (h : s.append text = .ok (shape, next)) : Changes s next := by
  unfold append at h
  split at h
  · cases h
  · rename_i hresolve
    obtain ⟨rfl, rfl⟩ := Prod.mk.inj (Except.ok.inj h)
    exact .appendedTests hresolve
  · rename_i hresolve
    obtain ⟨rfl, rfl⟩ := Prod.mk.inj (Except.ok.inj h)
    exact .appendedCases hresolve

theorem changes_step (s : Session) (r : Request) : Changes s (s.step r).2 := by
  cases r with
  | options o => exact .options o
  | target t => exact .target t
  | load text =>
    rw [step]
    exact changes_taken fun _ _ => changes_load
  | append text =>
    rw [step]
    exact changes_taken fun _ _ => changes_append
  | rename name => exact .renamed name
  | drop index => exact .dropped index
  | validate | canonicalize _ | canonicalizeSimple _ | ingest _ _ => exact .nothing

/-! ## Requests one after the other -/

/-- The requests that do not fail when all are made one after the other. -/
def granted (s : Session) : List Request → List Request
  | [] => []
  | r :: rest =>
    if (s.step r).1.isOk then r :: granted (s.step r).2 rest else granted (s.step r).2 rest

/-- Without the requests that fail, the others are replied to as before, and the session is the same
in the end. -/
theorem run_granted (s : Session) (requests : List Request) :
    s.run (s.granted requests) = ((s.run requests).1.filter (·.isOk), (s.run requests).2) := by
  induction requests generalizing s with
  | nil => rfl
  | cons r rest ih =>
    rw [granted]
    cases hreply : (s.step r).1 with
    | error e =>
      have hsame := step_of_error hreply
      simp [run, hreply, hsame, Except.isOk, Except.toBool, ih]
    | ok reply =>
      simp [run, hreply, Except.isOk, Except.toBool, ih]

/-! ## What a session holds -/

/-- The tests and cases of the session come out of documents. -/
structure Decoded (s : Session) : Prop where
  tests : ∀ c ∈ s.suite.tests, c.Decoded
  cases : ∀ c ∈ s.cases, c.Decoded

theorem decoded_initial : initial.Decoded where
  tests := by simp [initial, Suite.empty]
  cases := by simp [initial]

theorem decoded_of_resolve_simplified {o : Options} {text : String} {shape : DocumentShape}
    {cases : List SimpleCase} (h : Document.resolve o text = .ok ⟨shape, .simplified cases⟩) :
    ∀ c ∈ cases, c.Decoded := by
  obtain ⟨doc, -, hresolution⟩ := Document.resolve_eq_ok_iff.1 h
  have hreading := hresolution.reading_of_simplified.2
  exact hreading.of_yields fun _ _ => SimpleCase.decoded_of_decode

theorem Changes.decoded {s next : Session} (h : Changes s next) (hs : s.Decoded) :
    next.Decoded := by
  cases h with
  | nothing => exact hs
  | options _ | target _ | renamed _ => exact ⟨hs.tests, hs.cases⟩
  | loadedSuite hresolve => exact ⟨Document.decoded_of_resolve hresolve, hs.cases⟩
  | loadedCases hresolve => exact ⟨hs.tests, decoded_of_resolve_simplified hresolve⟩
  | appendedTests hresolve =>
    refine ⟨fun c hc => ?_, hs.cases⟩
    rcases List.mem_append.1 hc with hold | hnew
    · exact hs.tests c hold
    · exact Document.decoded_of_resolve hresolve c hnew
  | appendedCases hresolve =>
    refine ⟨hs.tests, fun c hc => ?_⟩
    rcases List.mem_append.1 hc with hold | hnew
    · exact hs.cases c hold
    · exact decoded_of_resolve_simplified hresolve c hnew
  | dropped _ => exact ⟨fun c hc => hs.tests c (List.mem_of_mem_eraseIdx hc), hs.cases⟩

theorem Decoded.run {s : Session} (h : s.Decoded) (requests : List Request) :
    (s.run requests).2.Decoded := by
  induction requests generalizing s with
  | nil => exact h
  | cons r rest ih => exact ih ((changes_step s r).decoded h)

/-- Whatever a new session was asked, its suite and its simplified cases, written as JSON, are read
back as they are. -/
theorem reads_back_run (requests : List Request) :
    let s := (initial.run requests).2
    Suite.decode s.suite.toJson.sorted = .ok s.suite ∧
      ∀ c ∈ s.cases, SimpleCase.decode c.toJson.sorted = .ok c := by
  intro s
  have hdecoded : s.Decoded := decoded_initial.run requests
  exact ⟨Suite.decode_of_decoded hdecoded.tests, fun c hc => (hdecoded.cases c hc).decode_sorted_toJson⟩

end Session
end CaseIntake
