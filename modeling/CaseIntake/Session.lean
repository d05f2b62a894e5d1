import CaseIntake.Ingest

/-!
# Sessions

A session collects cases from several documents. It holds options, a target, one canonical suite and
a list of simplified cases. Requests are made one after the other; one that fails leaves the session
as it was.
-/

namespace CaseIntake

structure Session where
  options : Options
  target : Target
  suite : Suite
  cases : List SimpleCase
deriving DecidableEq

namespace Session

def initial : Session where
  options := .standard
  target := .function ""
  suite := .empty
  cases := []

/-- Takes the suite or the cases of a document in place of those there are. -/
def load (s : Session) (text : String) : Except Document.Refusal (DocumentShape × Session) :=
  match Document.resolve s.options text with
  | .error r => .error r
  | .ok ⟨shape, .canonical suite⟩ => .ok (shape, { s with suite := suite })
  | .ok ⟨shape, .simplified cases⟩ => .ok (shape, { s with cases := cases })

/-- Adds the tests or the cases of a document after those there are. -/
def append (s : Session) (text : String) : Except Document.Refusal (DocumentShape × Session) :=
  match Document.resolve s.options text with
  | .error r => .error r
  | .ok ⟨shape, .canonical suite⟩ =>
    .ok (shape, { s with suite := { s.suite with tests := s.suite.tests ++ suite.tests } })
  | .ok ⟨shape, .simplified cases⟩ => .ok (shape, { s with cases := s.cases ++ cases })

def rename (s : Session) (name : String) : Session :=
  { s with suite := { s.suite with functionName := name } }

/-- Removes the test at a position, if there is one. -/
def drop (s : Session) (index : Nat) : Bool × Session :=
  (decide (index < s.suite.tests.length),
    { s with suite := { s.suite with tests := s.suite.tests.eraseIdx index } })

def validate (s : Session) : Report :=
  s.suite.validate s.options

def canonicalize (s : Session) (ids : Nat → String) : Except IngestError Conversion :=
  s.suite.convert ids s.target s.options

def canonicalizeSimple (s : Session) (ids : Nat → String) : Except IngestError Conversion :=
  SimpleCase.convertAll s.cases ids s.target s.options

def ingest (s : Session) (ids : Nat → String) (text : String) : Except IngestError Ingested :=
  CaseIntake.ingest ids s.target s.options text

/-- What a session can be asked. -/
inductive Request where
  | options (options : Options)
  | target (target : Target)
  | load (text : String)
  | append (text : String)
  | rename (name : String)
  | drop (index : Nat)
  | validate
  | canonicalize (ids : Nat → String)
  | canonicalizeSimple (ids : Nat → String)
  | ingest (ids : Nat → String) (text : String)

/-- The reply to a request that does not fail. -/
inductive Reply where
  | done
  | shape (shape : DocumentShape)
  | dropped (found : Bool)
  | report (report : Report)
  | conversion (conversion : Conversion)
  | ingested (result : Ingested)
deriving DecidableEq

/-- The reply about a document, and the session that may have taken it. -/
def taken (s : Session) :
    Except Document.Refusal (DocumentShape × Session) → Except IngestError Reply × Session
  | .error r => (.error (.malformed r), s)
  | .ok (shape, next) => (.ok (.shape shape), next)

/-- The reply to a request, and the session after it. -/
def step (s : Session) : Request → Except IngestError Reply × Session
  | .options o => (.ok .done, { s with options := o })
  | .target t => (.ok .done, { s with target := t })
  | .load text => s.taken (s.load text)
  | .append text => s.taken (s.append text)
  | .rename name => (.ok .done, s.rename name)
  | .drop index => (.ok (.dropped (s.drop index).1), (s.drop index).2)
  | .validate => (.ok (.report s.validate), s)
  | .canonicalize ids => ((s.canonicalize ids).map .conversion, s)
  | .canonicalizeSimple ids => ((s.canonicalizeSimple ids).map .conversion, s)
  | .ingest ids text => ((s.ingest ids text).map .ingested, s)

/-- The replies to requests that are made one after the other, and the session in the end. -/
def run (s : Session) : List Request → List (Except IngestError Reply) × Session
  | [] => ([], s)
  | r :: rest =>
    let (reply, next) := s.step r
    let (replies, last) := next.run rest
    (reply :: replies, last)

end Session
end CaseIntake
