import Fraisier.Deploy.Git

/-!
# Migrations

`dbops/confiture.py`: `migrate_up` applies the pending migrations, each committed as it goes, and
`migrate_down` reverses the newest ones. What the library's `Migrator` does is the world's
(`Env.up`, `Env.down`); what is here is how the adapter turns its results into results and
exceptions of its own.
-/

namespace Fraisier.Deploy

/-- `dbops.confiture.MigrationResult`. -/
structure MigrationResult where
  success : Bool
  stepsApplied : ℕ := 0
  errors : List ErrorItem := []
  deriving DecidableEq, Repr

/-- `StrategyResult`, as far as the deployer reads it. -/
structure StrategyResult where
  success : Bool
  migrationsApplied : ℕ := 0
  errors : List ErrorItem := []
  deriving DecidableEq, Repr

/-- `MAX_LOCK_RETRIES`. -/
def maxLockRetries : ℕ := 3

/-- `_REQUIRE_REVERSIBLE_ADVICE`. -/
def requireReversibleAdvice : String := "Use require_reversible=False, or give each one a down."

/-- `_ALLOW_IRREVERSIBLE_HINT`. -/
def allowIrreversibleHint : String :=
  "Set `allow_irreversible: true` on this environment to apply them anyway, " ++
    "or give each one a down."

variable (env : Env)

/-- One attempt of `migrate_up`: a refusal that fraisier knows is raised as its own error with
nothing applied, and a busy lock leads to `busy`. -/
def upAttempt (busy : Piece [.database] (ℕ × Option String)) :
    Piece [.database] (ℕ × Option String) := do
  let result ← call env env.up fun r => Effect.deed (.migrated r.committed)
  match result with
  | .returned applied incomplete => pure (applied, incomplete)
  | .refused message none => raise { cls := .validationError, message }
  | .refused message (some advice) =>
    raise { cls := .migrationError, message := message ++ ". " ++ advice, stepsApplied := some 0 }
  | .lockBusy => busy

/-- The attempts of `migrate_up`, `left` of them after this one: a busy lock is waited for. -/
def upAttempts : (left : ℕ) → Piece [.database] (ℕ × Option String)
  | 0 => upAttempt env (raise { cls := .lockAcquisitionError })
  | left + 1 => upAttempt env do
    call env fun _ => ()  -- time.sleep
    upAttempts left

/-- The body of a `with (_project_cwd(…), Migrator.from_config(…) as m)` block: both managers clean
up after it, the connection first. -/
def withMigrator (body : Piece K α) : Piece K α := do
  call env fun _ => ()  -- os.chdir(project_dir)
  ensuring
    (do
      call env fun _ => ()  -- Migrator.from_config
      ensuring body (call env fun _ => ()))
    (call env fun _ => ())

/-- `dry_run_execute`: the batch is tried in a transaction that is rolled back. -/
def verifyBatch : Piece [] Unit := do
  let verified ← call env env.flag
  if verified then pure () else do
    let errorMsg ← call env env.text
    raise { cls := .migrationError, message := "Pre-migration verification failed: " ++ errorMsg }

/-- `migrate_up`: how many migrations were applied. A batch that did not complete raises with the
count of those that were. -/
def migrateUp (preMigrateVerify : Bool) : Piece [.database] ℕ := do
  whenever preMigrateVerify (verifyBatch env)
  call env fun _ => ()  -- _load_env
  let (applied, incomplete) ← withMigrator env do
    call env fun _ => ()  -- view helpers and migration hooks
    upAttempts env (maxLockRetries - 1)
  match incomplete with
  | none => pure applied
  | some reason =>
    raise
      { cls := .migrationError
        message := "Migration failed: " ++
          reason.replace requireReversibleAdvice allowIrreversibleHint
        stepsApplied := some applied }

/-- `migrate_down`: a failed run's result carries the error object and no count. -/
def migrateDown (steps : ℕ) : Piece [.database] MigrationResult := do
  call env fun _ => ()  -- _resolve_config
  let result ← withMigrator env do
    call env fun _ => ()  -- migration hooks
    call env env.down fun r => Effect.deed (.reversed (r.reversed steps))
  match result with
  | .complete => pure { success := true, stepsApplied := steps }
  | .failed _ error =>
    pure
      { success := false
        stepsApplied := 0
        errors := [.error { cls := .migrationError, message := "Rollback failed: " ++ error }] }

/-- `preflight`: refuses a batch with a migration that cannot be undone, unless that is allowed. -/
def preflight (allowIrreversible : Bool) : Piece [] Unit := do
  if allowIrreversible then pure () else do
    call env fun _ => ()  -- _resolve_config, Migrator.from_config
    let reversible ← call env env.flag
    if reversible then pure () else do
      let irreversible ← call env env.text
      raise
        { cls := .irreversibleMigrationError
          message := "Irreversible migrations (no .down.sql, or a down() that does nothing): " ++
            irreversible ++ ". " ++ allowIrreversibleHint }

end Fraisier.Deploy
