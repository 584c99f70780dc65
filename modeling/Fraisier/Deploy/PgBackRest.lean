import Fraisier.Deploy.Confiture

/-!
# Where a restore gets its data

`strategies/_restore_sources.py`: `DumpSource` rebuilds one database from an archive, and
`PgBackRestSource` refreshes a whole cluster through the root helper. Both stop the service first.
Once the helper has stopped the cluster, the physical restore runs under an
`except BaseException` that stops it again and raises `RestoreFailedClosed`, whose
`keep_service_stopped` keeps the service down (`_fail_closed`).
-/

namespace Fraisier.Deploy

/-- A `DatabaseError` with the class's own recovery hint. -/
def databaseError (message : String) : Failure := { cls := .databaseError, message }

variable (env : Env)

/-- The service manager is asked to act on the service, which it may have done even when it
reports a failure. -/
def service (verb : Verb) : Piece [.service] Unit :=
  call env (fun _ => ()) fun _ => Effect.deed (.service verb)

/-- `_stop_service` of a strategy: stops the service and waits until it has stopped. -/
def stopStrategyService (serviceName : Option String) : Piece [.service] Unit := do
  match serviceName with
  | none => pure ()
  | some name =>
    exceptException .stopService
      (do
        service env .stop
        call env fun _ => ())  -- wait_stopped
      fun e => raise (databaseError ("Failed to stop service " ++ name ++ ": " ++ e.text))

/-! ## A dump -/

/-- Steps 1 and 2 of `DumpSource.prepare`: the newest archive that matches, unless one is named,
and not an old one. -/
def findBackup (cfg : RestoreConfig) : Piece [] String := do
  match cfg.backupPath with
  | some path => pure path
  | none => do
    let found ← call env env.flag
    if found then do
      let backupFile ← call env env.text
      let young ← call env env.flag
      if young then pure backupFile else
        raise (databaseError ("Backup " ++ backupFile ++ " is older than " ++ cfg.maxAgeHours ++ "h"))
    else raise (databaseError ("No backup matching '" ++ cfg.backupPattern ++ "' in " ++
      cfg.backupDir))

/-- `DumpSource.prepare`: finds the archive, checks that it can be read, and rehearses the
migrations. -/
def prepareDump (cfg : RestoreConfig) : Piece [] Unit := do
  let backupFile ← findBackup env cfg
  let readable ← call env env.flag  -- verify_archive
  let detail ← call env env.text
  if readable then whenever cfg.preflight do
    let passed ← call env env.flag  -- run_migration_preflight
    if passed then pure () else do
      let failures ← call env env.text
      raise { cls := .migrationPreflightError, message := failures }
  else raise (databaseError ("Backup " ++ backupFile ++ " is not a readable archive: " ++ detail))

/-- A step whose exit code is checked: a non-zero one is raised as `failure`. -/
def checked (failure : String → Failure) : Piece [] Unit := do
  let succeeded ← call env env.flag
  if succeeded then pure () else do
    let stderr ← call env env.text
    raise (failure stderr)

/-- `DumpSource.restore`. -/
def restoreDump (cfg : RestoreConfig) (serviceName : Option String) : Piece [.service] Unit := do
  stopStrategyService env serviceName
  call env fun _ => ()  -- terminate_backends
  checked env fun stderr =>
    databaseError ("Failed to drop database " ++ cfg.dbName ++ ": " ++ stderr)
  checked env fun stderr =>
    databaseError ("Failed to create database " ++ cfg.dbName ++ ": " ++ stderr)
  checked env databaseError  -- restore_backup

/-! ## A physical restore -/

/-- `HelperClient.stop`: the request is sent, and the helper answers that the cluster is stopped. -/
def helperStop : Piece [.cluster] Unit :=
  call env (fun _ => ()) (fun _ => Effect.deed .stopAsked) fun _ => Effect.deed .stopAnswered

/-- `_require_the_helpers_cluster`: `admin_url` must reach the cluster the helper restores. -/
def requireTheHelpersCluster : Piece [] Unit := do
  let expected ← call env env.text
  if expected = "" then
    raise (databaseError ("the pgBackRest helper reported no data directory, so it cannot be " ++
      "proven that admin_url reaches the cluster being restored"))
  else do
    let actual ← exceptException .readDataDirectory (call env env.text) fun e =>
      raise (databaseError ("could not read the data directory behind admin_url: " ++ e.text))
    let same ← call env env.flag
    if same then pure () else
      raise (databaseError ("admin_url reaches a cluster whose data directory is " ++ actual ++
        ", but the helper restores " ++ expected ++ ": refusing to run checks, or a reset, " ++
        "against a cluster that is not the restored one"))

/-- `_require_the_tview_rebuild_grant`: a check that cannot run is skipped. -/
def requireTheTviewRebuildGrant : Piece [] Unit := do
  let problem ← exceptFailure (do let p ← call env env.text; pure (some p)) fun f =>
    if f.cls.isInstance .tviewError || f.cls.isInstance .psycopgError then pure none else raise f
  match problem with
  | none => pure ()
  | some problem =>
    if problem = "" then pure () else
      raise (databaseError (problem ++ ". Nothing was stopped or restored."))

/-- `PgBackRestSource.prepare`: chooses the backup while the cluster is still up. -/
def preparePgBackRest (cfg : RestoreConfig) (spec : PgBackRestSpec) : Piece [] Unit := do
  let online ← exceptFailure
    (do
      call env fun _ => ()  -- info, parse_info
      call env fun _ => ()  -- select_backup
      call env env.flag)  -- status
    fun f =>
      if f.cls.isInstance .helperUnavailableError || f.cls.isInstance .backupChoiceError then
        raise (databaseError ("Cannot choose a pgBackRest backup: " ++ f.text))
      else raise f
  whenever online do
    requireTheHelpersCluster env
    requireTheTviewRebuildGrant env
  let young ← call env env.flag
  if spec.isLatest && !young then do
    let label ← call env env.text
    let ageHours ← call env env.text
    raise (databaseError ("Backup " ++ label ++ " stopped " ++ ageHours ++ "h ago, which is older " ++
      "than " ++ cfg.maxAgeHours ++ "h"))
  else pure ()

/-- A check of the restored cluster. What it reads, when it is not what it must be, is in the
`DatabaseError` it raises. -/
def require (problem : String → String) : Piece [] Unit := do
  let ok ← call env env.flag
  if ok then pure () else do
    let found ← call env env.text
    raise (databaseError (problem found))

/-- The checks of `_refresh`, in order. -/
def verifyRestoredCluster (cfg : RestoreConfig) (spec : PgBackRestSpec) : Piece [] Unit := do
  requireTheHelpersCluster env
  require env fun mode => "archive_mode is " ++ mode ++ " on the restored cluster, not 'off': it " ++
    "would archive WAL into stanza '" ++ spec.stanza ++
    "', corrupting production's disaster-recovery timeline"
  require env fun leftovers =>
    "replication settings survived the reset on the restored cluster: " ++ leftovers
  require env fun signals => "the helper's status carried no usable 'signals' list (" ++ signals ++
    "), so the data directory cannot be shown to be clean"
  require env fun signals => signals ++ " still present in the restored cluster's data directory: " ++
    "it would re-enter recovery on its next start"
  require env fun _ => "the restored cluster has no database '" ++ cfg.dbName ++ "'. A physical " ++
    "restore carries production's databases under production's names, so database.name must be " ++
    "the name inside the backup"

/-- `_reassign_owner`, when a target owner is configured. -/
def reassignOwner (cfg : RestoreConfig) : Piece [] Unit := do
  match cfg.targetOwner with
  | none => pure ()
  | some owner => require env fun stderr =>
    "reassign_owner failed: ownership reassignment to " ++ owner ++ " did not run: " ++ stderr

/-- `_refresh`: restores, starts, waits for promotion and verifies. The last deed says that every
check has passed. -/
def refresh (cfg : RestoreConfig) (spec : PgBackRestSpec) : Piece [.cluster] Unit := do
  call env fun _ => ()  -- client.restore(label)
  call env fun _ => ()  -- client.start()
  call env fun _ => ()  -- wait_until_promoted
  call env fun _ => ()  -- client.status()
  verifyRestoredCluster env cfg spec
  reassignOwner env cfg
  let tviews ← call env env.flag  -- tviews_installed
  whenever tviews (call env fun _ => ())  -- rebuild_empty_tviews
  assign env (Effect.deed .restorePassed)

/-- The trace notes an exception that `_fail_closed` does not catch. -/
def noteStopRaised : Piece [.cluster] Unit := note (Effect.deed .stopRaised)

/-- The stop of `_fail_closed`: what is to be said of it, when the helper does not answer. -/
def stopAgain : Piece [.cluster] String :=
  exceptFailure (do helperStop env; pure "") fun f =>
    if f.cls.isInstance .helperUnavailableError then
      pure (" (and the cluster could not be stopped again: " ++ f.text ++ ")")
    else do
      noteStopRaised
      raise f

/-- The `RestoreFailedClosed` of `_fail_closed`. -/
def restoreFailedClosed (reason note : String) : Failure :=
  { cls := .restoreFailedClosed
    message := reason ++ note ++
      ". Failed closed: the cluster was stopped and the service was not started." }

/-- `raise self._fail_closed(reason, …)`: stops the cluster again, and raises the error that keeps
the service down. -/
def failClosed (reason : String) : Piece [.cluster] Unit := do
  let note ← stopAgain env
  raise (restoreFailedClosed reason note)

/-- The `except BaseException` around `_refresh`. -/
def onRefreshFailed (e : Exn) : Piece [.cluster] Unit :=
  match e with
  | .deploymentTimeoutExpired => failClosed env e.name
  | .raised f =>
    if f.cls = .restoreFailedClosed then raise f
    else failClosed env (if f.text = "" then e.name else f.text)

/-- `_refresh`, failing closed. -/
def refreshOrFailClosed (cfg : RestoreConfig) (spec : PgBackRestSpec) : Piece [.cluster] Unit :=
  exceptException .failClosed (refresh env cfg spec) (onRefreshFailed env)

/-- The helper's first stop. Nothing has been touched yet when it refuses. -/
def stopCluster (spec : PgBackRestSpec) : Piece [.cluster] Unit :=
  exceptFailure (helperStop env) fun f =>
    if f.cls.isInstance .helperUnavailableError then
      raise (databaseError ("Failed to stop cluster " ++ spec.cluster ++ ": " ++ f.text))
    else raise f

/-- `PgBackRestSource.restore`. Up to the answer to the first stop, a failure is an ordinary error;
from there on every failure fails closed. -/
def restorePgBackRest (cfg : RestoreConfig) (spec : PgBackRestSpec)
    (serviceName : Option String) : Piece [.service, .cluster] Unit := do
  stopStrategyService env serviceName
  stopCluster env spec
  refreshOrFailClosed env cfg spec

end Fraisier.Deploy
