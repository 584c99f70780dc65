import Mathlib.Data.List.Basic

/-!
# Exceptions of a deploy

The exceptions a deploy distinguishes (`errors.py`, `timeout.py`, `smoke_tests.py`,
`dbops/pgbackrest.py` and the standard library's), each with the classes it inherits from, which
is what an `except` clause asks about. `Exn` separates the one asynchronous exception, which the
deploy timer raises in whatever is running, from the ones the code and its callees raise.
-/

namespace Fraisier.Deploy

/-- The exception classes a handler of the deploy path tells apart. -/
inductive ErrorClass
  | frameworkError | configurationError | deploymentError | healthCheckError | databaseError
  | restoreFailedClosed | migrationError | migrationPreflightError
  | smokeTestError | serviceManagerError | helperUnavailableError | backupChoiceError
  | tviewError | psycopgError | httpxError | irreversibleMigrationError | lockAcquisitionError
  | validationError | calledProcessError
  | osError | fileNotFoundError | timeoutError | valueError | jsonDecodeError
  | unicodeDecodeError | assertionError | typeError | runtimeError
  deriving DecidableEq, Repr

namespace ErrorClass

/-- The class and the classes it inherits from, nearest first, up to `Exception`. -/
def mro : ErrorClass → List ErrorClass
  | .configurationError => [.configurationError, .frameworkError]
  | .deploymentError => [.deploymentError, .frameworkError]
  | .healthCheckError => [.healthCheckError, .deploymentError, .frameworkError]
  | .databaseError => [.databaseError, .frameworkError]
  | .restoreFailedClosed => [.restoreFailedClosed, .databaseError, .frameworkError]
  | .migrationError => [.migrationError, .databaseError, .frameworkError]
  | .migrationPreflightError => [.migrationPreflightError, .databaseError, .frameworkError]
  | .helperUnavailableError => [.helperUnavailableError, .runtimeError]
  | .backupChoiceError => [.backupChoiceError, .runtimeError]
  | .tviewError => [.tviewError, .runtimeError]
  | .fileNotFoundError => [.fileNotFoundError, .osError]
  | .timeoutError => [.timeoutError, .osError]
  | .jsonDecodeError => [.jsonDecodeError, .valueError]
  | .unicodeDecodeError => [.unicodeDecodeError, .valueError]
  | c => [c]

/-- `isinstance(exc, d)` for an exception of class `c`. -/
def isInstance (c d : ErrorClass) : Bool := c.mro.contains d

/-- `type(exc).__name__`. -/
def name : ErrorClass → String
  | .frameworkError => "FrameworkError"
  | .configurationError => "ConfigurationError"
  | .deploymentError => "DeploymentError"
  | .healthCheckError => "HealthCheckError"
  | .databaseError => "DatabaseError"
  | .restoreFailedClosed => "RestoreFailedClosed"
  | .migrationError => "MigrationError"
  | .migrationPreflightError => "MigrationPreflightError"
  | .smokeTestError => "SmokeTestError"
  | .serviceManagerError => "ServiceManagerError"
  | .helperUnavailableError => "HelperUnavailableError"
  | .backupChoiceError => "BackupChoiceError"
  | .tviewError => "TviewError"
  | .psycopgError => "Error"
  | .httpxError => "RequestError"
  | .irreversibleMigrationError => "IrreversibleMigrationError"
  | .lockAcquisitionError => "LockAcquisitionError"
  | .validationError => "ValidationError"
  | .calledProcessError => "CalledProcessError"
  | .osError => "OSError"
  | .fileNotFoundError => "FileNotFoundError"
  | .timeoutError => "TimeoutError"
  | .jsonDecodeError => "JSONDecodeError"
  | .unicodeDecodeError => "UnicodeDecodeError"
  | .valueError => "ValueError"
  | .assertionError => "AssertionError"
  | .typeError => "TypeError"
  | .runtimeError => "RuntimeError"

/-- The class-level `recovery_hint` of a `FrameworkError`, when it is not the generic one, which
`FrameworkError.__str__` leaves out. -/
def recoveryHint : ErrorClass → Option String
  | .deploymentError => some ("Check deploy logs and retry. If the issue persists, " ++
      "inspect the service status on the target server.")
  | .healthCheckError => some ("The service may still be starting. Check the health " ++
      "endpoint, service logs, and whether the port is listening.")
  | .databaseError => some ("Check the database connection and migration files. " ++
      "Run 'confiture migrate status' to inspect migration state.")
  | .restoreFailedClosed => some ("The staging cluster was stopped and the application service " ++
      "was not started. Read the error, fix its cause, then run the restore again — a " ++
      "--delta restore re-checks every file, so a partial one is safe to repeat.")
  | .migrationError => some ("A database migration failed. Check the migration file and " ++
      "database state. See error details for recovery suggestions.")
  | .migrationPreflightError => some ("Fix the failing migrations and redeploy. " ++
      "No database changes were made — the full restore was not started.")
  | _ => none

/-- The classes that code outside the modelled functions raises. Two are left to the functions
that raise them: `RestoreFailedClosed` is the pgBackRest source's own and `SmokeTestError` the
smoke test runner's. -/
def outside (c : ErrorClass) : Bool := c != .restoreFailedClosed && c != .smokeTestError

end ErrorClass

/-- An exception other than the timer's: its class, its message, and the attributes the deploy
reads off it. -/
structure Failure where
  /-- The exception's class. -/
  cls : ErrorClass
  /-- The message it was raised with. -/
  message : String := ""
  /-- `recovery_hint` given at the raise; `some ""` suppresses the class's. -/
  recoveryHint : Option String := none
  /-- `cause` given at the raise, as `FrameworkError.__init__` writes it into the message. -/
  cause : Option String := none
  /-- `DatabaseError.steps_applied`: how many migrations this run had applied when it failed. -/
  stepsApplied : Option ℕ := none
  /-- `SmokeTestError.rollback`. -/
  rollback : Bool := false
  /-- `CalledProcessError.cmd`, as `repr` shows it. -/
  cmd : String := ""
  /-- `CalledProcessError.returncode`. -/
  returncode : ℕ := 1
  /-- `CalledProcessError.stderr`. -/
  stderr : String := ""
  deriving DecidableEq, Repr

namespace Failure

/-- `getattr(e, "keep_service_stopped", False)`: an attribute of `RestoreFailedClosed` alone. -/
def keepServiceStopped (f : Failure) : Bool := f.cls == .restoreFailedClosed

/-- `str(e)`: the message with its cause, then the recovery hint unless it is suppressed. -/
def text (f : Failure) : String :=
  let base := match f.cause with
    | some c => f.message ++ " (caused by " ++ c ++ ")"
    | none => f.message
  match f.recoveryHint.orElse fun _ => f.cls.recoveryHint with
  | none => base
  | some "" => base
  | some hint => base ++ "\n\nRecover with: " ++ hint

end Failure

/-- An exception that reaches the deploy from outside the modelled functions. It carries a class
and a message; `steps_applied` is set only by the confiture adapter and the restore strategy. -/
structure Fault where
  /-- The exception's class. -/
  cls : ErrorClass
  /-- Its message. -/
  message : String := ""
  /-- The command, for a child process that failed. -/
  cmd : String := ""
  /-- The child's exit code. -/
  returncode : ℕ := 1
  /-- What the child wrote to its standard error. -/
  stderr : String := ""
  /-- It is not one of the classes that only a modelled function raises. -/
  isOutside : cls.outside = true := by decide
  deriving DecidableEq, Repr

/-- The exception object of a fault. -/
def Fault.failure (f : Fault) : Failure :=
  { cls := f.cls, message := f.message, cmd := f.cmd, returncode := f.returncode,
    stderr := f.stderr }

/-- A fault never carries `keep_service_stopped`. -/
theorem Fault.keepServiceStopped (f : Fault) : f.failure.keepServiceStopped = false := by
  obtain ⟨cls, -, -, -, -, h⟩ := f
  cases cls <;> first | rfl | exact absurd h (by decide)

/-- An exception: the deploy timer's, or any other. -/
inductive Exn
  /-- `DeploymentTimeoutExpired`, an `Exception` that the timer thread raises in the deploying
  thread. -/
  | deploymentTimeoutExpired
  /-- Any other exception. -/
  | raised (f : Failure)
  deriving DecidableEq, Repr

/-- `str(e)`; `deployment_timeout` re-raises the timer's exception with the text that
`timeoutText` gives, and inside the block it carries none. -/
def Exn.text : Exn → String
  | .deploymentTimeoutExpired => ""
  | .raised f => f.text

/-- `type(e).__name__`. -/
def Exn.name : Exn → String
  | .deploymentTimeoutExpired => "DeploymentTimeoutExpired"
  | .raised f => f.cls.name

/-- An element of a result's `errors`: a text, or an exception object. -/
inductive ErrorItem
  | text (s : String)
  | error (f : Failure)
  deriving DecidableEq, Repr

end Fraisier.Deploy
