import Fraisier.Deploy.Checks

/-!
# `APIDeployer`

`deployers/api.py`: a whole deploy (`execute`), with the two ways back. `rollback` is taken by a
failed health check, a failed smoke test and the timeout handler; `restorePreviousState` by the
handler of every other failure. Both undo the migrations first (`rollbackDatabase`), then the
checkout, and restart the service last.

The order of the definitions is the order of the calls: the rollback, the handlers, the steps of
the deploy, the run.
-/

namespace Fraisier.Deploy

open Fraisier.Lib

variable (env : Env)

/-! ## The service -/

/-- The service, when there is one, is acted on through its manager. -/
def actOnService (verb : Verb) : Piece [.service] Unit := do
  let me ← self
  match me.settings.systemdService with
  | none => pure ()
  | some _ => do
    call env fun _ => ()  -- get_service_manager
    service env verb

/-- `_stop_service`. -/
def stopService : Piece [.service] Unit := actOnService env .stop

/-- `_restart_service`. -/
def restartService : Piece [.service] Unit := actOnService env .restart

/-! ## Filing an outcome -/

/-- `_record_outcome`: files the result as the deploy's outcome and drops the kept
configuration. -/
def recordOutcome (result : DeploymentResult) (errorMessage : Option String := none) :
    Piece [.record, .config] DeploymentResult := do
  writeStatus env
    { state := result.status.value
      errorMessage := errorMessage.orElse fun _ => result.errorMessage }
  discardReplacedConfig env
  pure result

/-- A `None` or a text, as an f-string shows it. -/
def shown (message : Option String) : String := message.getD "None"

/-- The error of a failed health check. -/
def healthCheckError : Failure :=
  { cls := .healthCheckError, message := "Health check failed after deployment" }

/-- `_build_rollback_result`. -/
def buildRollbackResult (rollbackResult : DeploymentResult) (oldVersion : Option String) :
    Piece [.record, .config] DeploymentResult := do
  if rollbackResult.success then
    pure
      { success := false
        status := .rolledBack
        oldVersion
        newVersion := rollbackResult.newVersion
        errorMessage := some "Health check failed; rolled back successfully"
        error := some healthCheckError }
  else do
    let result : DeploymentResult :=
      { success := false
        status := .rollbackFailed
        oldVersion
        errorMessage := some ("Health check failed AND rollback failed: " ++
          shown rollbackResult.errorMessage)
        error := some (deploymentError "Deployment and rollback both failed") }
    let _ ← recordOutcome env result
    notify env result
    pure result

/-- `_build_timeout_rollback_result`. -/
def buildTimeoutRollbackResult (rollbackResult : DeploymentResult) (oldVersion : Option String)
    (timeoutMessage : String) : Piece [.record, .config] DeploymentResult := do
  if rollbackResult.success then
    pure
      { success := false
        status := .rolledBack
        oldVersion
        newVersion := rollbackResult.newVersion
        errorMessage := some ("Timed out; rolled back successfully. " ++ timeoutMessage)
        error := some (deploymentError timeoutMessage) }
  else do
    let result : DeploymentResult :=
      { success := false
        status := .rollbackFailed
        oldVersion
        errorMessage := some ("Timed out AND rollback failed: " ++
          shown rollbackResult.errorMessage)
        error := some (deploymentError "Timeout and rollback both failed") }
    let _ ← recordOutcome env result
      (some (timeoutMessage ++ " — " ++ shown rollbackResult.errorMessage))
    notify env result
    pure result

/-! ## The way back -/

/-- `_resolve_paths_against_app`: refuses an `app_path` that is not a directory. -/
def resolvePathsAgainstApp : Piece [] Unit := do
  match env.fraise.appPath with
  | none => pure ()
  | some appPath => do
    let isDir ← call env env.flag
    if isDir then pure () else raise (deploymentError ("app_path does not exist: " ++ appPath))

/-- The message of a failed database rollback, with the counts it was given. -/
def rollbackFailedMessage (errors : String) (rolledBack applied : ℕ) : String :=
  "Database rollback failed — manual intervention required. Errors: " ++ errors ++
    ". Rolled back " ++ toString rolledBack ++ " of " ++ toString applied ++ " migrations; " ++
    toString (applied - rolledBack) ++
    " still applied. Do NOT restart the service until resolved."

/-- `_rollback_database`, after the strategy has answered. -/
def reportRollbackDatabase (currentVersion : Option String) (applied : ℕ)
    (dbResult : StrategyResult) : Piece [.incident] DeploymentResult := do
  if dbResult.success then
    pure
      { success := true
        status := .rolledBack
        oldVersion := currentVersion
        migrationsRolledBack := some dbResult.migrationsApplied }
  else do
    let errors ← joinErrors dbResult.errors
    let errorMsg := rollbackFailedMessage errors dbResult.migrationsApplied applied
    writeIncident env errorMsg dbResult.errors
    pure
      { success := false
        status := .rollbackFailed
        oldVersion := currentVersion
        errorMessage := some errorMsg }

/-- The trace notes the strategy's answer. -/
def noteRolledBack (steps : ℕ) (success : Bool) : Piece [.rollback] Unit :=
  note (Effect.deed (.rolledBack steps success))

/-- `_rollback_database`: the strategy that ran the migrations undoes them. -/
def rollbackDatabase (currentVersion : Option String) :
    Piece [.database, .rollback, .incident] DeploymentResult := do
  let resolved ← resolveStrategy env
  resolvePathsAgainstApp env
  let me ← self
  let strategy := me.executedStrategy.getD resolved
  let dbResult ← strategy.rollback env me.migrationsApplied
  noteRolledBack me.migrationsApplied dbResult.success
  reportRollbackDatabase env currentVersion me.migrationsApplied dbResult

/-- `_finalize_rollback`: a rollback after which the service does not answer has failed. -/
def finalizeRollback (currentVersion : Option String) (target : String) :
    Piece [.record, .config, .service] DeploymentResult := do
  restartService env
  let healthy ← waitForHealth env
  if healthy then do
    writeStatus env { state := "rolled_back", commitSha := some target }
    pure
      { success := true
        status := .rolledBack
        oldVersion := currentVersion
        newVersion := some (short target) }
  else do
    let me ← self
    recordOutcome env
      { success := false
        status := .rollbackFailed
        oldVersion := currentVersion
        newVersion := some (short target)
        errorMessage := some ("Reverted to " ++ short target ++ ", but the health check at " ++
          shown me.settings.healthCheckUrl ++ " still fails after the restart. The previous " ++
          "version is not serving — do NOT assume the rollback recovered the service.") }

/-- What putting the tree back may touch. -/
abbrev revertAspects : List Aspect := [.record, .config, .worktree, .service]

/-- A way back is entered. -/
def goBack (way : Way) : Piece [.rollback] Unit := note (Effect.deed (.goingBack way))

/-- What a rollback may touch. -/
abbrev rollbackAspects : List Aspect :=
  [.record, .config, .worktree, .service, .database, .rollback, .incident, .interrupted]

/-- The last steps of `rollback`: the tree, the configuration that describes it, the service. -/
def revert (currentVersion : Option String) (target : String) (dbDetails : Option ℕ) :
    Piece revertAspects DeploymentResult := do
  gitRollback env target
  let _ ← restoreSyncedConfig env
  let result ← finalizeRollback env currentVersion target
  pure { result with migrationsRolledBack := dbDetails }

/-- `self._migrations_applied > 0 and self.database_config`. -/
def Attributes.owesRollback (x : Attributes) : Bool :=
  0 < x.migrationsApplied && x.settings.databaseConfig.isSome

/-- The body of `rollback`: the database first, so that old code never meets a newer schema. -/
def rollbackTo (currentVersion target : Option String) :
    Piece rollbackAspects DeploymentResult := do
  match target with
  | none => raise (valueError "No previous SHA available for rollback")
  | some target => do
    goBack .rollback
    restoreVersionJson env
    let me ← self
    if me.owesRollback then do
      let dbResult ← rollbackDatabase env currentVersion
      if dbResult.success then revert env currentVersion target dbResult.migrationsRolledBack
      else recordOutcome env dbResult
    else revert env currentVersion target none

/-- What `rollback` says of the exception that ended it. -/
def rollbackFailureDetail (f : Failure) : String :=
  if f.cls.isInstance .calledProcessError then
    "Rollback failed at command: " ++ f.cmd ++ ", exit code: " ++ toString f.returncode ++
      ", stderr: " ++ f.stderr
  else "Rollback failed: " ++ f.cls.name ++ ": " ++ f.text

/-- `rollback`: the timer's exception is noted and let out; every other one is a failed
rollback. -/
def rollback (toVersion : Option String := none) : Piece rollbackAspects DeploymentResult := do
  let currentVersion ← getCurrentVersion env
  let me ← self
  let target := toVersion.orElse fun _ => me.previousSha
  exceptFailure
    (noteTimeout (rollbackTo env currentVersion target)
      (Effect.set .interrupted fun x => { x with rollbackInterrupted := true }).widen)
    fun f =>
      recordOutcome env
        { success := false
          status := .rollbackFailed
          oldVersion := currentVersion
          errorMessage := some (rollbackFailureDetail f) }

/-- `RestoreOutcome`: what `restorePreviousState` did. -/
structure RestoreOutcome where
  dbRollbackAttempted : Bool := false
  dbRollbackSucceeded : Bool := false
  gitReverted : Bool := false
  serviceRestarted : Bool := false
  errorMessage : Option String := none
  deriving DecidableEq, Repr

/-- The last steps of `_restore_previous_state`. The service stays down after a failure that
closed. -/
def restoreTree (previousSha : String) (attempted keepServiceStopped : Bool) :
    Piece revertAspects RestoreOutcome := do
  gitRollback env previousSha
  let _ ← restoreSyncedConfig env
  let me ← self
  let restarted := me.settings.systemdService.isSome && !keepServiceStopped
  whenever restarted (restartService env)
  pure
    { dbRollbackAttempted := attempted
      dbRollbackSucceeded := attempted
      gitReverted := true
      serviceRestarted := restarted }

/-- The restore of the previous state has raised. -/
def noteRestoreRaised : Piece [.rollback] Unit := note (Effect.deed .restoreRaised)

/-- `_restore_previous_state`. -/
def restorePreviousState (keepServiceStopped : Bool) : Piece rollbackAspects RestoreOutcome := do
  let me ← self
  match me.previousSha with
  | none => pure {}
  | some previousSha => do
    goBack .restore
    exceptException .restorePreviousState
      (if me.owesRollback then do
        let dbResult ← rollbackDatabase env none
        if dbResult.success then restoreTree env previousSha true keepServiceStopped
        else pure { dbRollbackAttempted := true, errorMessage := dbResult.errorMessage }
      else restoreTree env previousSha false keepServiceStopped)
      fun e => do
        noteRestoreRaised
        pure
          { dbRollbackAttempted := me.owesRollback
            errorMessage := some ("Rollback after failure also failed: " ++ e.text) }

/-! ## The handlers of a run -/

/-- `str(exc)` of the timer's exception, as `deployment_timeout` raises it again. -/
def timeoutText : String :=
  "Deployment timed out after " ++ toString env.fraise.timeout ++ " seconds"

/-- `_timeout_message`: says so when a rollback was cut short. -/
def timeoutMessage (rollbackInterrupted : Bool) : String :=
  if rollbackInterrupted then
    timeoutText env ++ " — a rollback was already running and was interrupted by it, so the " ++
      "previous version may be only partly restored. Check the deployed commit and the schema " ++
      "before restarting."
  else timeoutText env

/-- What the two handlers may touch. -/
abbrev handlerAspects : List Aspect := .outcome :: rollbackAspects

/-- The timeout handler is entered. -/
def enterHandleTimeout : Piece [.outcome] Unit := note (Effect.deed .handleTimeout)

/-- The handler of every other failure is entered. -/
def enterHandleFailure : Piece [.outcome] Unit := note (Effect.deed .handleFailure)

/-- `_handle_timeout`: rolls back when there is a commit to go back to. -/
def handleTimeout : Piece handlerAspects DeploymentResult := do
  enterHandleTimeout
  let me ← self
  let message := timeoutMessage env me.rollbackInterrupted
  match me.previousSha with
  | some _ => do
    let rollbackResult ← rollback env
    buildTimeoutRollbackResult env rollbackResult me.oldVersion message
  | none => do
    restoreVersionJson env
    writeStatus env { state := "failed", errorMessage := some message }
    pure
      { success := false
        status := .failed
        oldVersion := me.oldVersion
        errorMessage := some message }

/-- `_wrap_error`. -/
def wrapError (f : Failure) : Failure :=
  if f.cls.isInstance .frameworkError then f
  else { cls := .deploymentError, message := f.text, cause := some (Exn.raised f).asCause }

/-- `_classify_failure`: the status, the state of the record and the message. -/
def classifyFailure (outcome : RestoreOutcome) (deployError : String) :
    DeploymentStatus × String × String :=
  if outcome.dbRollbackAttempted then
    if outcome.dbRollbackSucceeded then
      (.rolledBack, "rolled_back",
        deployError ++ " — database rolled back to the previous state")
    else
      (.rollbackFailed, "rollback_failed", match outcome.errorMessage with
        | none | some "" => deployError
        | some message => message)
  else if outcome.gitReverted then
    (.rolledBack, "rolled_back", deployError ++ " — reverted to the previous commit" ++
      if outcome.serviceRestarted then " and the service restarted on it" else "")
  else (.failed, "failed", deployError)

/-- The handler of every other failure. -/
def handleFailure (dbPk : Option ℕ) (f : Failure) : Piece handlerAspects DeploymentResult := do
  enterHandleFailure
  let outcome ← restorePreviousState env f.keepServiceStopped
  restoreVersionJson env
  let (status, state, message) := classifyFailure outcome f.text
  writeStatus env { state, errorMessage := some message }
  let me ← self
  let result : DeploymentResult :=
    { success := false
      status
      oldVersion := me.oldVersion
      errorMessage := some message
      error := some (wrapError f) }
  completeDbRecord env dbPk result
  notify env result
  pure result

/-! ## The steps of a deploy -/

/-- A step of the deploy begins. -/
def beginStep (d : DeployStep) : Piece [.step] Unit := note (Effect.deed (.step d))

/-- The configuration sync before the checkout, whose failure is not fatal. -/
def prePullSync : Piece [.config, .settings] Unit :=
  exceptException .prePullSync (syncConfigIfNeeded env) fun _ => pure ()

/-- The configuration sync after the checkout, whose failure aborts the deploy. -/
def postPullSync : Piece [.config, .settings] Unit :=
  exceptException .postPullSync (syncConfigIfNeeded env) fun e =>
    raise
      { cls := .deploymentError
        message := "Post-pull scaffold config sync/regeneration failed after checkout, so system " ++
          "units may not match the deployed fraises.yaml. The most common cause is a changed " ++
          "install.command whose install-helper allowlist could not be re-baked (#279). Deploy " ++
          "aborted before the install step to avoid a misleading 'command not allowed'.\n" ++
          "  Remediation: fix the underlying error below, then redeploy (or run `sudo fraisier " ++
          "scaffold-install`)."
        recoveryHint := some ""
        cause := some e.asCause }

/-- `self._migrations_applied = n`. -/
def setApplied (n : ℕ) : Piece [.applied] Unit :=
  assign env (.set .applied (fun x => { x with migrationsApplied := n }) [.counted n])

/-- `if exc.steps_applied: self._migrations_applied = exc.steps_applied`. -/
def setStepsApplied (stepsApplied : Option ℕ) : Piece [.applied] Unit :=
  match stepsApplied with
  | none | some 0 => pure ()
  | some n => setApplied env n

/-- `self._executed_strategy = strategy`, an object that has not decided about a template. -/
def setExecutedStrategy (strategy : Strategy) : Piece [.applied] Unit :=
  assign env <| .put .applied fun x =>
    { x with executedStrategy := some strategy, templateTaken := none }

/-- What running the migrations may touch. -/
abbrev strategyAspects : List Aspect := [.service, .cluster, .database, .applied]

/-- `strategy.execute(…)` with the clause of `_run_strategy` that keeps the count of a batch that
failed part-way. -/
def executeStrategy (strategy : Strategy) (allowIrreversible preVerify : Bool) :
    Piece strategyAspects StrategyResult :=
  exceptFailure (strategy.execute env allowIrreversible preVerify) fun f =>
    if f.cls.isInstance .databaseError then do
      setStepsApplied env f.stepsApplied
      raise f
    else raise f

/-- `os.chdir(app_dir)`, where there is such a directory. -/
def enterAppDir : Piece [] Unit := do
  call env fun _ => ()  -- Path.cwd()
  whenever env.fraise.appPath.isSome do
    let isDir ← call env env.flag
    whenever isDir (call env fun _ => ())

/-- `_run_strategy`. -/
def runStrategy : Piece strategyAspects Unit := do
  let strategy ← resolveStrategy env
  resolvePathsAgainstApp env
  refuseABindingGatesChild env
  let db ← database
  refuseHookUrls env
  enterAppDir env
  setExecutedStrategy env strategy
  let me ← self
  let result ← ensuring
    (executeStrategy env strategy me.settings.allowIrreversible db.preMigrateVerify)
    (call env fun _ => ())  -- os.chdir(old_cwd)
    (Effect.widen (K := [.cluster]) (Effect.deed .replaced))
  setApplied env result.migrationsApplied
  if result.success then pure () else do
    let errors ← joinErrors result.errors
    raise (deploymentError (if errors = "" then "Database migration failed" else errors))

/-- `_run_database_migrations`: a rebuild stops the service first. -/
def runDatabaseMigrations : Piece strategyAspects Unit := do
  let db ← database
  whenever (db.strategy = .rebuild) (stopService env)
  runStrategy env

/-- Step 3: the migrations and the gates after them, when there is a database. -/
def migrateStep : Piece (.step :: strategyAspects) Unit := do
  let me ← self
  whenever me.settings.databaseConfig.isSome do
    beginStep .migrate
    runDatabaseMigrations env
    runPostMigrateCheck env
    runEmptyTviewCheck env
    runPostMigrate env

/-- Step 4: the restart, unless the strategy starts the service itself. -/
def restartStep : Piece [.step, .service] Unit := do
  let me ← self
  let db ← database
  whenever (me.settings.systemdService.isSome && db.strategy ≠ .restoreMigrate) do
    beginStep .restart
    restartService env

/-- `_check_health_or_rollback`. -/
def checkHealthOrRollback (dbPk : Option ℕ) : Piece rollbackAspects (Option DeploymentResult) := do
  let healthy ← waitForHealth env
  if healthy then pure none else do
    let me ← self
    match me.previousSha with
    | none => raise healthCheckError
    | some _ => do
      let rollbackResult ← rollback env
      let result ← buildRollbackResult env rollbackResult me.oldVersion
      completeDbRecord env dbPk result
      pure (some result)

/-- Step 5: the health check, when there is one. -/
def healthStep (dbPk : Option ℕ) : Piece rollbackAspects (Option DeploymentResult) := do
  let me ← self
  if me.settings.healthCheckUrl.isSome then checkHealthOrRollback env dbPk else pure none

/-- The smoke tests halt the run. -/
def noteSmokeTestsHalted : Piece [.rollback] Unit := note (Effect.deed .smokeTestsHalted)

/-- A deploy that stops at its smoke tests, with nothing rolled back. -/
def haltAtSmokeTests (dbPk : Option ℕ) (message : String) (error : Option Failure) :
    Piece [.record, .rollback] (Option DeploymentResult) := do
  noteSmokeTestsHalted
  writeStatus env { state := "failed", errorMessage := some message }
  let me ← self
  let result : DeploymentResult :=
    { success := false
      status := .failed
      oldVersion := me.oldVersion
      errorMessage := some message
      error }
  completeDbRecord env dbPk result
  pure (some result)

/-- `_run_smoke_tests_or_halt`: a token provider that fails halts, and a test that fails rolls back
or halts, as its policy says. -/
def runSmokeTestsOrHalt (dbPk : Option ℕ) : Piece rollbackAspects (Option DeploymentResult) := do
  let me ← self
  if me.settings.smokeTestsConfig.isEmpty then pure none else do
    call env fun _ => ()  -- load_smoke_tests
    exceptFailure (do resolveAndRun env me.settings.smokeTestsConfig; pure none) fun f =>
      if f.cls.isInstance .deploymentError then haltAtSmokeTests env dbPk f.text (some f)
      else if f.cls = .smokeTestError then
        if f.rollback && me.previousSha.isSome then do
          let rollbackResult ← rollback env
          let result ← buildRollbackResult env rollbackResult me.oldVersion
          completeDbRecord env dbPk result
          pure (some result)
        else haltAtSmokeTests env dbPk f.text none
      else raise f

/-- The end of a deploy that went well. -/
def succeed (dbPk : Option ℕ) (newSha : String) : Piece [.record] DeploymentResult := do
  writeStatus env { state := "success", commitSha := some newSha }
  let me ← self
  let result : DeploymentResult :=
    { success := true
      status := .success
      oldVersion := me.oldVersion
      newVersion := if newSha = "" then none else some (short newSha) }
  completeDbRecord env dbPk result
  notify env result
  pure result

/-- What the steps up to the restart may touch. -/
abbrev advanceAspects : List Aspect :=
  [.step, .previous, .settings, .config, .worktree, .version, .service, .cluster, .database,
    .applied]

/-- The steps up to the restart. They give the commit that is deployed. -/
def advance : Piece advanceAspects String := do
  prePullSync env
  checkServiceFileStaleness env
  beginStep .gitPull
  let (oldSha, newSha) ← gitPull env
  setOldVersion env (oldSha.map short)
  postPullSync env
  beginStep .install
  installDependencies env
  snapshotVersionJson env
  generateVersionJson env
  migrateStep env
  restartStep env
  pure newSha

/-- The steps from the health check on: each either ends the deploy or lets it go on. -/
def conclude (dbPk : Option ℕ) (newSha : String) : Piece rollbackAspects DeploymentResult := do
  let early ← healthStep env dbPk
  match early with
  | some result => pure result
  | none => do
    let smoke ← runSmokeTestsOrHalt env dbPk
    match smoke with
    | some result => pure result
    | none => succeed env dbPk newSha

/-- What a deploy may touch. -/
abbrev deployAspects : List Aspect :=
  .step :: .previous :: .settings :: .version :: .cluster :: .applied :: rollbackAspects

/-- The body of the `with deployment_timeout(timeout)` block. -/
def deploy (dbPk : Option ℕ) : Piece deployAspects DeploymentResult := do
  let newSha ← advance env
  conclude env dbPk newSha

/-! ## A run -/

/-- A piece of a run that may do anything. -/
abbrev Whole (α : Type) := Program (Law.any : Law Run Exn) α

/-- `with deployment_timeout(timeout): body`. The timer runs from the first statement of the block
until it is cancelled after the last. -/
def deploymentTimeout (body : Piece K α) : Whole α where
  run s :=
    let r := (do let a ← body; quiet env; pure a : Piece K α).run (s.arm true)
    (r.1, r.2.arm false)
  lawful _ := trivial

/-- What is inside the `try` of `_execute`. -/
def guarded (dbPk : Option ℕ) : Whole DeploymentResult := do
  validateWrapperScripts env
  validateSandboxWrites env
  deploymentTimeout env (deploy env dbPk)

/-- The two `except` clauses of `_execute`. -/
def handle (dbPk : Option ℕ) : Exn → Piece handlerAspects DeploymentResult
  | .deploymentTimeoutExpired => do
    let result ← handleTimeout env
    completeDbRecord env dbPk result
    pure result
  | .raised f => handleFailure env dbPk f

/-- `_execute`. -/
def execute : Whole DeploymentResult := do
  writeStatus env { state := "deploying" }
  let dbPk ← startDbRecord env
  (guarded env dbPk).tryCatch fun e => monadLift (handle env dbPk e)

/-- The deployer as it is constructed. -/
def Env.start : Run := { self := { settings := env.fraise.settings } }

/-- A run: how it ended, and the state it left. -/
def Env.outcome : Result Run Exn DeploymentResult := (execute env).run env.start

/-- The state at the end of a run. -/
def Env.final : Run := env.outcome.2

end Fraisier.Deploy
