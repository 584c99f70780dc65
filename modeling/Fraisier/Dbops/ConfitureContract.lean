import Fraisier.Lib.JsonValue
import Fraisier.Lib.Text

/-!
# What confiture's exits mean

`dbops/confiture_contract.py`: the semantic class of an exit, and the three fields of the error
envelope that confiture writes to its standard output under `--format json`.
-/

namespace Fraisier.Dbops

open Fraisier.Lib Json Unicode

/-- A run of a child process, as `subprocess.run` returns it with `text=True`. -/
structure CompletedProcess where
  returncode : ℤ
  stdout : Str := []
  stderr : Str := []

/-- `json.loads` of an output. -/
def loadsOutput (maxDepth : ℕ) (output : Str) : Except LoadsError Json :=
  loadsStr maxDepth (output.map chr)

/-- `ConfitureFailureClass`. -/
inductive ConfitureFailureClass
  | ok | internalError | preconditionFailed | dbUnreachable | schemaError | invalidConfig
  | lockContention | gitError | irreversibleRollback
  deriving DecidableEq, Repr

/-- `_VENDORED_EXIT_CLASS`, which the installed confiture's own table is held to. -/
def exitClass : ℤ → Option ConfitureFailureClass
  | 0 => some .ok
  | 1 => some .internalError
  | 2 => some .preconditionFailed
  | 3 => some .dbUnreachable
  | 4 => some .schemaError
  | 5 => some .invalidConfig
  | 6 => some .lockContention
  | 7 => some .gitError
  | 8 => some .irreversibleRollback
  | _ => none

/-- `classify_confiture_failure` of a process that left an exit code. -/
def classifyConfitureFailure (exitCode : ℤ) : ConfitureFailureClass :=
  (exitClass exitCode).getD .internalError

/-- `envelope_error_code`, `envelope_error_message` and `envelope_error_actionable`: a field of the
envelope's `error`, when there is such an envelope and the field is a text. -/
def envelopeError (maxDepth : ℕ) (output : Str) (field : String) :
    Except UseError (Option Text) :=
  match loadsOutput maxDepth output with
  | .error .recursionError => .error .recursionError
  | .error _ => .ok none
  | .ok (.obj data) => match getD data "error" .null with
    | .obj error => match getD error field .null with
      | .str s => .ok (some s)
      | _ => .ok none
    | _ => .ok none
  | .ok _ => .ok none

/-- An output that can be read has its fields read. -/
theorem envelopeError_ok {maxDepth : ℕ} {output : Str}
    (h : loadsOutput maxDepth output ≠ .error .recursionError) (field : String) :
    ∃ value, envelopeError maxDepth output field = .ok value := by
  unfold envelopeError
  split <;> try exact ⟨_, rfl⟩
  · exact absurd ‹_› h
  · split <;> try exact ⟨_, rfl⟩
    split <;> exact ⟨_, rfl⟩

end Fraisier.Dbops
