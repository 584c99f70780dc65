import Fraisier.Deploy.Statement

/-!
# The record of a deploy

The result a deploy returns (`DeploymentResult`), and what it writes about itself: the status file
(`_write_status`), the row of the deployments table (`_start_db_record`, `_complete_db_record`),
the notifications (`_notify`) and the incident file (`_write_incident`). All but the notifications
catch the exceptions they can meet by class, so the timer's passes them; each notifier runs under
an `except Exception`.
-/

namespace Fraisier.Deploy

open Fraisier.Lib

/-- `DeploymentStatus`. -/
inductive DeploymentStatus
  | pending | inProgress | success | failed | rolledBack | rollbackFailed
  deriving DecidableEq, Repr

/-- `DeploymentStatus.value`. -/
def DeploymentStatus.value : DeploymentStatus → String
  | .pending => "pending"
  | .inProgress => "in_progress"
  | .success => "success"
  | .failed => "failed"
  | .rolledBack => "rolled_back"
  | .rollbackFailed => "rollback_failed"

/-- `DeploymentResult`, less its duration. `error` is the class and message of the structured
error, and `migrationsRolledBack` the one key that `details` is given. -/
structure DeploymentResult where
  success : Bool
  status : DeploymentStatus
  oldVersion : Option String := none
  newVersion : Option String := none
  errorMessage : Option String := none
  error : Option Failure := none
  migrationsRolledBack : Option ℕ := none
  deriving DecidableEq, Repr

/-- `sha[:8]`. -/
def short (sha : String) : String := String.ofList (sha.toList.take 8)

/-- A statement that does nothing the run can see, such as bookkeeping whose failures are caught:
the timer may go off there. -/
def quiet (env : Env) : Piece K Unit := assign env .none

/-- A read whose failures its own clause turns into an answer. -/
def query (env : Env) (answer : ℕ → α) : Piece K α := do
  let n ← Program.read Run.clock
  quiet env
  pure (answer n)

/-- A statement under a condition. -/
def whenever (c : Bool) (p : Piece K Unit) : Piece K Unit := if c then p else pure ()

variable (env : Env)

/-- `StatusRecordMixin._write_status`: an `OSError` of the write is logged. -/
def writeStatus (r : StatusRecord) : Piece [.record] Unit := do
  let _ ← attempt env env.statusFails (Effect.deed (.status r))
  pure ()

/-- Whether a call fails, for the clauses that catch every failure a call can have. -/
def Env.fails (n : ℕ) : Bool := (env.fault n).isSome

/-- `GitDeployMixin._start_db_record`: the row's key, or `None` when the database could not be
written. -/
def startDbRecord : Piece [] (Option ℕ) := do
  let ok ← attempt env env.fails (.none : Effect [])
  pure (if ok then some 0 else none)

/-- `GitDeployMixin._complete_db_record`. -/
def completeDbRecord (deploymentPk : Option ℕ) (result : DeploymentResult) : Piece [] Unit := do
  match deploymentPk with
  | none => pure ()
  | some _ =>
    let me ← self
    let databaseUrl := me.settings.databaseConfig.bind (·.databaseUrl)
    whenever (databaseUrl.isSome && result.success)
      (exceptException .databaseSize (call env fun _ => ()) fun _ => pure ())
    quiet env

/-- `NotificationDispatcher.notify`: a notifier that fails does not stop the others. -/
def notifyAll : ℕ → Piece [] Unit
  | 0 => pure ()
  | n + 1 => do
    exceptException .notifier (call env fun _ => ()) fun _ => pure ()
    notifyAll n

/-- `GitDeployMixin._notify`. -/
def notify (_result : DeploymentResult) : Piece [] Unit := notifyAll env env.fraise.notifiers

/-- The texts among a result's errors, or the index and the class name of the first error that is
no text. -/
def texts : List ErrorItem → ℕ → Except (ℕ × String) (List String)
  | [], _ => .ok []
  | .text s :: errors, i => (texts errors (i + 1)).map (s :: ·)
  | .error f :: _, i => .error (i, f.cls.name)

/-- `"; ".join(errors)`, which raises on an element that is no text. -/
def joinErrors (errors : List ErrorItem) : Piece [] String :=
  match texts errors 0 with
  | .ok ss => pure ("; ".intercalate ss)
  | .error (i, name) =>
    raise
      { cls := .typeError
        message := "sequence item " ++ toString i ++ ": expected str instance, " ++ name ++
          " found" }

/-- `GitDeployMixin._write_incident`: an `OSError` is logged; errors that `json.dumps` cannot write
raise. -/
def writeIncident (errorMessage : String) (dbErrors : List ErrorItem) : Piece [.incident] Unit := do
  let made ← attempt env env.fails
  if made then
    match texts dbErrors 0 with
    | .error (_, name) =>
      raise
        { cls := .typeError
          message := "Object of type " ++ name ++ " is not JSON serializable" }
    | .ok _ => do
      let _ ← attempt env env.fails (Effect.deed (.incident errorMessage))
      pure ()
  else pure ()

end Fraisier.Deploy
