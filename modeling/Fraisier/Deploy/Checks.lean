import Fraisier.Deploy.Strategies

/-!
# The checks around a deploy

What a deploy asks before it is called a success: the health check with its retries
(`health_check.py`), the smoke tests (`smoke_tests.py`), the gates after a migration
(`_run_post_migrate_check`, `_run_empty_tview_check`, `_run_post_migrate`), and the checks before
anything is touched (`_validate_wrapper_scripts`, `_validate_sandbox_writes`).
-/

namespace Fraisier.Deploy

variable (env : Env)

/-! ## Before the deploy -/

/-- `_validate_wrapper_scripts`. -/
def validateWrapperScripts : Piece [] Unit := do
  let configured ← call env env.flag
  whenever configured do
    let wrapper ← call env env.text
    let present ← call env env.flag
    let executable ← call env env.flag
    if present && executable then pure () else
      raise (deploymentError ("Required wrapper scripts are missing or not executable:\n" ++
        "  - systemctl: " ++ (if present then "Not executable" else "File not found") ++ " at " ++
        wrapper))

/-- `_validate_sandbox_writes`: a file is created and removed in each tree. -/
def validateSandboxWrites : Piece [] Unit := do
  let writable ← attempt env env.fails
  if writable then pure () else do
    let blocked ← call env env.text
    let project ← deployedConfig env
    let name ← call env env.text
    let unit := if project then "fraisier-" ++ name ++ "-webhook.service" else "the webhook unit"
    raise (deploymentError ("Cannot write to " ++ blocked ++ " from inside this deploy's systemd " ++
      "sandbox. The unit running this deploy (" ++ unit ++ ", or the deploy socket's unit) is " ++
      "ProtectSystem=strict and does not list these paths in ReadWritePaths=, so every write " ++
      "below them fails read-only — git fetch would abort with exit 255 a few steps from here. " ++
      "Re-run `fraisier scaffold` and `sudo fraisier scaffold-install --yes` on this machine to " ++
      "install the unit rendered for it."))

/-- `_check_service_file_staleness`: the state directory's resolution is diagnostic only, the
comparison after it is not guarded. -/
def checkServiceFileStaleness : Piece [] Unit := do
  let me ← self
  match me.settings.systemdService with
  | none => pure ()
  | some _ => do
    let resolved ← exceptException .staleness (do call env fun _ => (); pure true)
      fun _ => pure false
    whenever resolved do
      let both ← call env env.flag
      whenever both (call env fun _ => ())

/-! ## Health -/

/-- `HTTPHealthChecker.check`: every exception is an unhealthy answer. -/
def check : Piece [] Bool :=
  exceptException .httpCheck (call env env.flag) fun _ => pure false

/-- The attempts of `HealthCheckManager.check_with_retries`, with a wait between two of them. -/
def checkWithRetries : (retries : ℕ) → Piece [] Bool
  | 0 => pure false
  | retries + 1 => do
    let healthy ← exceptException .checkWithRetries (check env) fun _ => pure false
    if healthy then pure true else do
      whenever (0 < retries) (call env fun _ => ())  -- time.sleep
      checkWithRetries retries

/-- `_wait_for_health`. -/
def waitForHealth : Piece [] Bool := do
  let me ← self
  match me.settings.healthCheckUrl with
  | none => pure true
  | some _ => do
    call env fun _ => ()  -- HTTPHealthChecker(url)
    checkWithRetries env me.settings.healthCheckRetries

/-! ## Smoke tests -/

/-- A `SmokeTestError` for a test, which carries whether its policy is to roll back. -/
def SmokeTest.error (test : SmokeTest) (problem : String) : Failure :=
  { cls := .smokeTestError
    message := "smoke test '" ++ test.name ++ "' " ++ problem
    rollback := test.onFailure = .rollback }

/-- The assertions of a test, in order. -/
def runAssertions (test : SmokeTest) : ℕ → Piece [] Unit
  | 0 => pure ()
  | n + 1 => do
    let holds ← call env env.flag
    if holds then runAssertions test n else do
      let found ← call env env.text
      raise (test.error ("assertion failed: " ++ found))

/-- `_run_one`. -/
def runOne (test : SmokeTest) : Piece [] Unit := do
  call env fun _ => ()  -- resolve_test_url
  exceptFailure (call env fun _ => ()) fun f =>
    if f.cls.isInstance .httpxError then raise (test.error ("request failed: " ++ f.text))
    else raise f
  let ok ← call env env.flag
  if ok then do
    exceptFailure (call env fun _ => ()) fun f =>
      if f.cls.isInstance .valueError then
        raise (test.error ("returned non-JSON body: " ++ f.text))
      else raise f
    runAssertions env test test.assertions
  else do
    let statusCode ← call env env.count
    raise (test.error ("returned HTTP " ++ toString statusCode))

/-- `run_smoke_tests`: a failure is absorbed when the test's policy is to warn. -/
def runSmokeTests : List SmokeTest → Piece [] Unit
  | [] => pure ()
  | test :: tests => do
    exceptFailure (runOne env test) fun f =>
      if f.cls = .smokeTestError && test.onFailure = .warn then pure () else raise f
    runSmokeTests tests

/-- `materialize_test_headers`: each provider is resolved. -/
def materializeTestHeaders : List SmokeTest → Piece [] Unit
  | [] => pure ()
  | test :: tests => do
    whenever test.tokenProvider (call env fun _ => ())
    materializeTestHeaders tests

/-- `resolve_and_run`. -/
def resolveAndRun (tests : List SmokeTest) : Piece [] Unit := do
  materializeTestHeaders env tests
  runSmokeTests env tests

/-! ## The gates after a migration -/

/-- The `database` block of the settings. -/
def database : Piece [] DatabaseConfig := do
  let me ← self
  pure (me.settings.databaseConfig.getD {})

/-- `_run_post_migrate_check`: drift fails the deploy under `on_critical: fail`, and a check that
could not run fails it only when the project declared the gate. -/
def runPostMigrateCheck : Piece [] Unit := do
  let db ← database
  let gate := loadPostMigrateCheck db.postMigrateCheck
  whenever gate.enabled do
    let passed ← call env env.flag  -- check_schema_drift
    if passed then pure () else do
      let ran ← call env env.flag
      let summary ← call env env.text
      if (!ran && !gate.declared) || gate.onCritical = .warn then pure ()
      else raise (deploymentError summary)

/-- `_refuse_a_binding_gates_child`. -/
def refuseABindingGatesChild : Piece [] Unit := do
  let db ← database
  let gate := loadPostMigrateCheck db.postMigrateCheck
  whenever (gate.enabled && gate.declared && gate.onCritical = .fail) <|
    exceptFailure (call env fun _ => ()) fun f =>
      if f.cls.isInstance .valueError then
        raise (deploymentError ("post_migrate_check could not run after the migration, so the " ++
          "deploy stops before it: " ++ f.text))
      else raise f

/-- `_refuse_hook_urls`. -/
def refuseHookUrls : Piece [] Unit :=
  exceptFailure (call env fun _ => ()) fun f =>
    if f.cls.isInstance .valueError then raise (deploymentError f.text) else raise f

/-- `_migrated_url`: whether the URL of the migrated database can be read. -/
def migratedUrl : Piece [] Bool :=
  exceptException .migratedUrl (do call env fun _ => (); pure true) fun _ => pure false

/-- What a gate does when its probe could not run. -/
def tviewProbeFailed (gate : PostMigrateCheck) (failure : String) : Piece [] Unit :=
  if !gate.declared || gate.onEmpty = .warn then pure () else raise (deploymentError failure)

/-- `_run_empty_tview_check`. -/
def runEmptyTviewCheck : Piece [] Unit := do
  let db ← database
  let gate := loadPostMigrateCheck db.postMigrateCheck
  whenever gate.enabled do
    let readable ← migratedUrl env
    if readable then
      exceptFailure
        (emptyTviews env gate.onEmpty
          (fun pairs => " pg_tviews TVIEW(s) are empty while their backing view has rows: " ++
            pairs ++ ". A restore, a crash-recovery start or a failover empties an UNLOGGED TVIEW " ++
            "and nothing else notices. Run `fraisier db tviews rebuild " ++ env.fraise.fraiseName ++
            " -e " ++ env.fraise.environment ++
            "` (add --all for a LOGGED one or one emptied by hand)")
          deploymentError)
        fun f =>
          if f.cls.isInstance .tviewError || f.cls.isInstance .psycopgError then
            tviewProbeFailed gate ("could not check TVIEWs for emptiness: " ++ f.text)
          else raise f
    else tviewProbeFailed gate ("could not check TVIEWs for emptiness: the migrated database's " ++
      "URL could not be read from the confiture config")

/-- The files of one step of `run_post_migrate_steps`. -/
def runSqlFiles (step : PostMigrateStep) : ℕ → Piece [] Unit
  | 0 => pure ()
  | n + 1 => do
    exceptFailure (call env fun _ => ()) fun f =>
      if f.cls.isInstance .calledProcessError then
        if step.halt then
          raise (deploymentError ("post_migrate step failed (halt): " ++ f.cmd ++ " (exit " ++
            toString f.returncode ++ "): " ++ f.stderr))
        else pure ()
      else raise f
    runSqlFiles step n

/-- `run_post_migrate_steps`. -/
def runPostMigrateSteps : List PostMigrateStep → Piece [] Unit
  | [] => pure ()
  | step :: steps => do
    let files ← if step.isDir then call env env.count else pure 1
    runSqlFiles env step files
    runPostMigrateSteps steps

/-- `_run_post_migrate`: skipped without a database URL. -/
def runPostMigrate : Piece [] Unit := do
  let db ← database
  whenever db.databaseUrl.isSome (runPostMigrateSteps env db.postMigrate)

end Fraisier.Deploy
