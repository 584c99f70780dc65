import Fraisier.Deploy.PgBackRest

/-!
# Database strategies

`strategies/_core.py` and `strategies/_restore.py`: `MigrateStrategy` (preflight, verified dump,
`migrate up`), `RebuildStrategy` (drop, build, re-baseline) and `RestoreMigrateStrategy` (restore,
template, `migrate up`, checks, service start), with the `rollback` of each.
-/

namespace Fraisier.Deploy

variable (env : Env)

/-! ## Building a strategy -/

/-- A `ValueError`. -/
def valueError (message : String) : Failure := { cls := .valueError, message }

/-- The name `_resolve_strategy` gives `get_strategy`. -/
def StrategyName.text : StrategyName → String
  | .apply => "apply"
  | .migrate => "migrate"
  | .rebuild => "rebuild"
  | .restoreMigrate => "restore_migrate"
  | .other name => name

/-- `_pgbackrest_socket`: the project's name, which the socket is named by, comes from the deployed
configuration. -/
def pgbackrestSocket : Piece [] Unit := do
  let loaded ← deployedConfig env
  if loaded then pure () else
    raise (deploymentError ("restore.source is pgbackrest, but the project name that names its " ++
      "helper socket comes from " ++ env.fraise.optConfigPath ++ ", which is absent or does not " ++
      "load. Fix or restore " ++ env.fraise.optConfigPath ++ " (or point FRAISIER_CONFIG at the " ++
      "deployed fraises.yaml), then deploy again."))

/-- `get_strategy`, with the checks that the constructors make. -/
def getStrategy (db : DatabaseConfig) (serviceName : Option String) : Piece [] Strategy := do
  match db.strategy with
  | .apply | .migrate => do
    let dump := db.preMigrateDump.getD {}
    if dump.enabled && dump.outputDir.getD "" == "" then
      raise (valueError "pre_migrate_dump.enabled requires pre_migrate_dump.output_dir")
    else if dump.enabled && db.name == "" then
      raise (valueError "pre_migrate_dump.enabled requires the database name")
    else pure (.migrate dump db.name)
  | .rebuild => do
    call env fun _ => ()  -- the identifiers and the version are validated
    pure (.rebuild db.requiredRoles db.createTemplate)
  | .restoreMigrate =>
    match db.restore with
    | none => raise (valueError "restore_migrate strategy requires restore_config dict")
    | some cfg =>
      if db.name == "" then raise (valueError "restore_migrate strategy requires db_name")
      else if db.adminUrl.getD "" == "" then
        raise (valueError "restore_migrate strategy requires admin_url")
      else do
        call env fun _ => ()  -- the identifiers and the admin URL are validated
        pure (.restoreMigrate { cfg with dbName := db.name } serviceName)
  | .other name =>
    raise (valueError ("Unknown strategy '" ++ name ++
      "'. Valid: migrate, rebuild, restore_migrate"))

/-- `_resolve_strategy`: the strategy that the settings name. -/
def resolveStrategy : Piece [] Strategy := do
  let me ← self
  let db := me.settings.databaseConfig.getD {}
  whenever (db.strategy = .restoreMigrate && (db.restore.bind (·.pgbackrest)).isSome)
    (pgbackrestSocket env)
  whenever (db.strategy = .restoreMigrate && me.settings.systemdService.isSome)
    (call env fun _ => ())  -- get_service_manager
  getStrategy env db me.settings.systemdService

/-! ## `MigrateStrategy` -/

/-- Whether the volume has the room that `min_free_gb` asks for. -/
def enoughSpace (dump : DumpConfig) : Piece [] Bool :=
  if dump.minFreeGb.isSome then call env env.flag else pure true

/-- `_run_dump_gate`: the error that aborts the deploy, or none. -/
def runDumpGate (dump : DumpConfig) : Piece [] (Option String) := do
  let pending ← call env env.flag
  if !pending then pure none else do
    let space ← enoughSpace env dump
    if !space then
      pure (some ("pre-migration dump gate: less than " ++ toString (dump.minFreeGb.getD 0) ++
        " GB free in " ++ dump.outputDir.getD "" ++ " — refusing to migrate without a fresh dump"))
    else do
      let problem ← exceptFailure (do call env fun _ => (); pure none) fun f =>
        if f.cls.isInstance .tviewError then pure (some f.text) else raise f
      match problem with
      | some text =>
        pure (some ("pre-migration dump gate failed — migrations NOT applied: " ++ text))
      | none => do
        let dumped ← call env env.flag  -- run_backup
        if dumped then do
          call env fun _ => ()  -- prune_pre_migrate_corpus
          pure none
        else do
          let error ← call env env.text
          pure (some ("pre-migration dump gate failed — migrations NOT applied: " ++ error))

/-- The dump gate, when it is enabled. -/
def dumpGate (dump : DumpConfig) : Piece [] (Option String) :=
  if dump.enabled then runDumpGate env dump else pure none

/-- `MigrateStrategy.execute`. -/
def executeMigrate (dump : DumpConfig) (allowIrreversible preMigrateVerify : Bool) :
    Piece [.database] StrategyResult := do
  call env fun _ => ()  -- resolve_db_url
  preflight env allowIrreversible
  let gateError ← dumpGate env dump
  match gateError with
  | some error => pure { success := false, errors := [.text error] }
  | none => do
    let applied ← migrateUp env preMigrateVerify
    pure { success := true, migrationsApplied := applied }

/-- What `MigrateStrategy.rollback`, and the restore strategy's without a template, make of
`migrate_down`. -/
def rollbackByMigrateDown (steps : ℕ) : Piece [.database] StrategyResult := do
  let result ← migrateDown env steps
  pure
    { success := result.success
      migrationsApplied := result.stepsApplied
      errors := result.errors }

/-- `MigrateStrategy.rollback`. -/
def rollbackMigrate (steps : ℕ) : Piece [.database] StrategyResult := do
  call env fun _ => ()  -- resolve_db_url
  rollbackByMigrateDown env steps

/-! ## `RebuildStrategy` -/

/-- A child whose failure is raised as `CalledProcessError`. -/
def calledProcess (cmd stderr : String) : Failure :=
  { cls := .calledProcessError, cmd, stderr
    message := "Command '" ++ cmd ++ "' returned non-zero exit status 1." }

/-- `_provision_roles`: each required role is created and granted. -/
def provisionRoles : List String → Piece [] Unit
  | [] => pure ()
  | _ :: roles => do
    checked env (calledProcess "psql")
    checked env (calledProcess "psql")
    provisionRoles roles

/-- The schema is built from its files, and the database is dropped, created and filled. -/
def rebuildDatabase (roles : List String) : Piece [] Unit :=
  ensuring
    (do
      call env fun _ => ()  -- build_split
      call env fun _ => ()  -- refuse_without_createdb, terminate_backends, drop_db
      checked env (calledProcess "createdb")
      provisionRoles env roles
      checked env (calledProcess "psql"))  -- _apply_sql
    (quiet env)  -- shutil.rmtree(ignore_errors=True)

/-- The rebuilt database is copied to its template. -/
def copyToTemplate : Piece [] Unit := do
  checked env (calledProcess "dropdb")
  checked env (calledProcess "createdb")

/-- `RebuildStrategy.execute`: it applies no migration. -/
def executeRebuild (roles : List String) (createTemplate : Bool) : Piece [] StrategyResult := do
  call env fun _ => ()  -- resolve_db_url, the environment, the connections
  rebuildDatabase env roles
  call env fun _ => ()  -- Migrator.reinit
  whenever createTemplate (copyToTemplate env)
  pure { success := true }

/-! ## `RestoreMigrateStrategy` -/

/-- `_refuse_connections`: a connection that the migration would refuse is refused before
anything is dropped. -/
def refuseConnections : Piece [] Unit :=
  exceptFailure (call env fun _ => ()) fun f =>
    if f.cls.isInstance .valueError then
      raise (databaseError ("Refusing to restore before anything is dropped: " ++ f.text))
    else raise f

/-- The source's `prepare`. -/
def prepareSource (cfg : RestoreConfig) : Piece [] Unit :=
  match cfg.pgbackrest with
  | some spec => preparePgBackRest env cfg spec
  | none => prepareDump env cfg

/-- The source's `restore`. -/
def restoreSource (cfg : RestoreConfig) (serviceName : Option String) :
    Piece [.service, .cluster] Unit :=
  match cfg.pgbackrest with
  | some spec => restorePgBackRest env cfg spec serviceName
  | none => monadLift (restoreDump env cfg serviceName)

/-- `_decide_template`: under `auto`, what the pending preflight says, and every doubt takes the
template. -/
def decideTemplate (mode : TemplateMode) : Piece [] Bool := do
  match mode with
  | .always => pure true
  | .never => pure false
  | .auto => call env env.flag

/-- Step 8: the rollback template is dropped and copied again. -/
def takeTemplate (cfg : RestoreConfig) : Piece [] Unit := do
  call env fun _ => ()  -- terminate_backends
  checked env fun stderr =>
    databaseError ("Failed to drop template " ++ cfg.resolvedTemplateName ++ ": " ++ stderr)
  call env fun _ => ()  -- terminate_backends
  checked env fun stderr =>
    databaseError ("Failed to create template " ++ cfg.resolvedTemplateName ++ ": " ++ stderr)

/-- `self._template_taken = taken`. -/
def setTemplateTaken (taken : Bool) : Piece [.applied] Unit :=
  assign env (.put .applied fun x => { x with templateTaken := some taken })

/-- `_check_tviews_not_empty` and the deployer's `_run_empty_tview_check` share this: the TVIEWs
found empty are a failure or a warning. -/
def emptyTviews (onEmpty : OnFinding) (message : String → String)
    (failure : String → Failure) : Piece [] Unit := do
  let empty ← call env env.count
  if empty = 0 then pure () else
    match onEmpty with
    | .warn => pure ()
    | .fail => do
      let pairs ← call env env.text
      raise (failure (toString empty ++ message pairs))

/-- `_check_tviews_not_empty`. -/
def checkTviewsNotEmpty (cfg : RestoreConfig) : Piece [] Unit :=
  exceptFailure
    (emptyTviews env cfg.onEmptyTview
      (fun pairs => " pg_tviews TVIEW(s) are empty while their backing view has rows: " ++ pairs ++
        ". Rebuild them with `fraisier db tviews rebuild --all` before starting the service")
      databaseError)
    fun f =>
      if f.cls.isInstance .tviewError || f.cls.isInstance .psycopgError then
        match cfg.onEmptyTview with
        | .warn => pure ()
        | .fail => raise (databaseError ("could not check TVIEWs for emptiness: " ++ f.text))
      else raise f

/-- The service is started at the end of a restore. -/
def startStrategyService (serviceName : Option String) : Piece [.service] Unit := do
  match serviceName with
  | none => pure ()
  | some name =>
    exceptException .startService (service env .start) fun e =>
      raise (databaseError ("Failed to start service " ++ name ++ ": " ++ e.text))

/-- `_check_and_start`: the checks after `migrate up`, the receipt, the service start. -/
def checkAndStart (cfg : RestoreConfig) (serviceName : Option String) : Piece [.service] Unit := do
  whenever (0 < cfg.minTables) do
    let ok ← call env env.flag
    if ok then pure () else do
      let count ← call env env.count
      raise (databaseError ("Table count validation failed: " ++ toString count ++ " < " ++
        toString cfg.minTables))
  checkTviewsNotEmpty env cfg
  call env fun _ => ()  -- _record_actuation_of
  startStrategyService env serviceName

/-- `_check_and_start`, with the clause that gives a `DatabaseError` the count of the migrations
applied before it. -/
def countedCheckAndStart (cfg : RestoreConfig) (serviceName : Option String) (applied : ℕ) :
    Piece [.service] Unit :=
  exceptFailure (checkAndStart env cfg serviceName) fun f =>
    if f.cls.isInstance .databaseError && f.stepsApplied.isNone then
      raise { f with stepsApplied := some applied }
    else raise f

/-- `RestoreMigrateStrategy.execute`. A failure after `migrate up` says how many migrations
applied. -/
def executeRestoreMigrate (cfg : RestoreConfig) (serviceName : Option String) :
    Piece [.service, .cluster, .database, .applied] StrategyResult := do
  call env fun _ => ()  -- resolve_db_url
  refuseConnections env
  prepareSource env cfg
  restoreSource env cfg serviceName
  let take ← decideTemplate env cfg.templateMode
  whenever take (monadLift (takeTemplate env cfg))
  setTemplateTaken env take
  let applied ← migrateUp env false
  countedCheckAndStart env cfg serviceName applied
  call env fun _ => ()  -- the metrics
  pure { success := true, migrationsApplied := applied }

/-- The database is dropped and created again from its template, through `reset_from_template` when
the template's name ends with the database's. -/
def resetFromTemplate (cfg : RestoreConfig) : Piece [.database] StrategyResult := do
  let byPrefix := cfg.resolvedTemplateName.endsWith cfg.dbName
  call env fun _ => ()  -- terminate_backends
  let dropped ← call env env.flag
  if dropped then do
    call env fun _ => ()  -- terminate_backends
    let created ← call env env.flag fun ok =>
      if ok then Effect.deed .templateRestored else .none
    if created then pure { success := true } else do
      let stderr ← call env env.text
      pure { success := false, errors := [.text ("Template rollback failed: " ++ stderr)] }
  else do
    let stderr ← call env env.text
    pure
      { success := false
        errors := [.text ((if byPrefix then "Template rollback failed: "
          else "Failed to drop database for rollback: ") ++ stderr)] }

/-- `RestoreMigrateStrategy.rollback`: onto the template when the run took one, else
`migrate down`. -/
def rollbackRestoreMigrate (cfg : RestoreConfig) (steps : ℕ) : Piece [.database] StrategyResult := do
  let me ← self
  if me.templateTaken.getD (cfg.templateMode = .always) then resetFromTemplate env cfg
  else rollbackByMigrateDown env steps

/-! ## The strategy interface -/

/-- `Strategy.execute`. -/
def Strategy.execute (allowIrreversible preMigrateVerify : Bool) :
    Strategy → Piece [.service, .cluster, .database, .applied] StrategyResult
  | .migrate dump _ => monadLift (executeMigrate env dump allowIrreversible preMigrateVerify)
  | .rebuild roles createTemplate => monadLift (executeRebuild env roles createTemplate)
  | .restoreMigrate cfg serviceName => executeRestoreMigrate env cfg serviceName

/-- `Strategy.rollback`. -/
def Strategy.rollback (steps : ℕ) : Strategy → Piece [.database] StrategyResult
  | .migrate _ _ => rollbackMigrate env steps
  | .rebuild roles createTemplate => monadLift (executeRebuild env roles createTemplate)
  | .restoreMigrate cfg _ => rollbackRestoreMigrate env cfg steps

end Fraisier.Deploy
