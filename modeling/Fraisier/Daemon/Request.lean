import Fraisier.Deploy.Lifecycle
import Fraisier.Lib.JsonValue

/-!
# A request to the deploy daemon

`execute_deployment_request`: a request names a fraise and an environment, and the deployer of the
fraise's type says whether a deploy is needed (`is_deployment_needed`). Fraises that are deployed
from git compare the `HEAD` of their bare repository with its `origin/<branch>`, which is as old as
the last fetch; a scheduled one asks for its timer; a compose one compares image tags.
-/

namespace Fraisier.Daemon

open Fraisier.Lib Unicode Deploy

/-! ## The host -/

/-- `FRAISE_TYPES`, or another text, which no deployer handles. -/
inductive FraiseType
  | api | etl | scheduled | backup | dockerCompose
  | other (name : String)
  deriving DecidableEq, Repr

/-- A fraise in an environment: its type, and what the deployers read beyond what a deploy from git
does. -/
structure Fraise extends Deploy.Fraise where
  type : FraiseType
  branch : String := "main"
  /-- `script_path`, of an `etl` fraise. -/
  scriptPath : Option String := none
  /-- `systemd_timer`, of a `scheduled` or `backup` one. -/
  systemdTimer : Option String := none
  /-- `service_name`, of a `docker_compose` one. -/
  serviceName : Option String := none
  /-- `image_tag`. -/
  imageTag : Option String := none

/-- How the last run ended, and the commit that it put into the worktree. -/
structure LastRun where
  status : DeploymentStatus
  commit : Option String
  deriving DecidableEq, Repr

/-- What the deployers of a fraise find. -/
structure Host where
  /-- The commits that the branches name at the origin. -/
  heads : String → Option String
  /-- The bare repository exists. -/
  bareRepo : Bool
  /-- Its `HEAD`. -/
  head : Option String
  /-- Its `origin/<branch>`. -/
  tracked : String → Option String
  /-- The `HEAD` of a repository that the worktree itself is. -/
  worktreeHead : Option String
  /-- `systemctl is-active <timer>` exits 0. -/
  timerActive : Bool
  /-- The services that `docker compose ps` lists, with their images; none when it fails. -/
  services : Option (List (String × String))
  /-- The last run for the fraise in the environment. -/
  lastRun : Option LastRun

/-! ## Whether a deploy is needed -/

/-- `get_worktree_sha`. -/
def Host.getWorktreeSha (host : Host) : Option String :=
  (host.head.filter (· ≠ "")).orElse fun _ => host.worktreeHead.filter (· ≠ "")

/-- The tag of an image: `image.split(":")[-1]`. -/
def tagOf (image : String) : Option String :=
  if image.contains ':' then (image.splitOn ":").getLast? else none

/-- `get_current_version`, of `GitDeployMixin` and of `DockerComposeDeployer`. -/
def Fraise.getCurrentVersion (fraise : Fraise) (host : Host) : Option String :=
  match fraise.type with
  | .dockerCompose => do
    let serviceName ← fraise.serviceName
    let services ← host.services
    let image ← services.lookup serviceName
    tagOf image
  | _ => if fraise.appPath.isSome then host.getWorktreeSha.map short else none

/-- `get_latest_version`, of the two. -/
def Fraise.getLatestVersion (fraise : Fraise) (host : Host) : Option String :=
  match fraise.type with
  | .dockerCompose => fraise.imageTag
  | _ => if host.bareRepo then (host.tracked fraise.branch).map short else none

/-- `BaseDeployer.is_deployment_needed`. -/
def versionsDiffer (current latest : Option String) : Bool :=
  match current, latest with
  | some current, some latest => current ≠ latest
  | _, _ => true

/-- `is_deployment_needed`, which `ScheduledDeployer` overrides. -/
def Fraise.isDeploymentNeeded (fraise : Fraise) (host : Host) : Bool :=
  match fraise.type with
  | .scheduled | .backup => fraise.systemdTimer.isSome && !host.timerActive
  | _ => versionsDiffer (fraise.getCurrentVersion host) (fraise.getLatestVersion host)

/-! ## The request -/

/-- `DeploymentRequest`, as far as it is read. -/
structure DeploymentRequest where
  project : String
  environment : String
  branch : String
  options : List (Text × Json)

/-- `request.options.get(name)`, as a condition. -/
def DeploymentRequest.asks (request : DeploymentRequest) (name : String) : Bool :=
  (Json.getD request.options name (.bool false)).truthy

/-- `DeploymentResult` of `daemon.py`, less its duration. -/
structure DaemonResult where
  success : Bool
  status : String
  message : Option String := none
  deployedVersion : Option String := none
  errorMessage : Option String := none

/-- What else answers a request. -/
structure World where
  /-- `get_config().get_fraise_environment(…)`: the fraise, or none when the configuration has no
  such project and environment. -/
  config : Except Failure (Option Fraise)
  /-- `_format_project_not_found_error`, `_format_config_not_found_error`. -/
  diagnostic : String := ""
  currentUser : String := "fraisier"
  expectedUser : String := "fraisier"
  /-- The exception that the question whether a deploy is needed ends in, where git or systemctl
  cannot be run. -/
  asking : Option Failure := none
  /-- `execute()` under the deployment lock; none when another deploy holds it. -/
  execute : Except Failure (Option Deploy.DeploymentResult) := .ok none

/-- `{version}` in a text. -/
def versionText (version : Option String) : String := version.getD "None"

/-- `UnknownFraiseTypeError`. -/
def unknownFraiseTypeError (name : String) : Failure :=
  { cls := .valueError
    message := "Unknown fraise type '" ++ name ++ "' — known types: api, backup, docker_compose, " ++
      "etl, scheduled" }

/-- The dry run. -/
def dryRun (fraise : Fraise) (host : Host) (force : Bool) : DaemonResult :=
  let current := fraise.getCurrentVersion host
  if !force && !fraise.isDeploymentNeeded host then
    { success := true
      status := "dry_run_no_changes"
      message := some ("Dry-run: Already up to date (current: " ++ versionText current ++ ")")
      deployedVersion := current }
  else
    { success := true
      status := "dry_run_plan"
      message := some ("Dry-run: Would deploy " ++ versionText current ++ " -> " ++
        versionText (fraise.getLatestVersion host))
      deployedVersion := current }

/-- What the daemon says of a deploy. -/
def deployed : Option Deploy.DeploymentResult → DaemonResult
  | none =>
    { success := false
      status := "failed"
      message := some "Deploy already running" }
  | some result =>
    { success := result.success
      status := result.status.value
      message := if result.success then some "Deployment completed" else result.errorMessage
      deployedVersion := result.newVersion
      errorMessage := if result.success then none else result.errorMessage }

/-- `execute_deployment_request` from `_get_deployer` on. -/
def deployFraise (w : World) (host : Host) (fraise : Fraise) (request : DeploymentRequest) :
    Except Failure DaemonResult :=
  match fraise.type, w.asking with
  | .other name, _ => .error (unknownFraiseTypeError name)
  | _, some f =>
    if request.asks "force" && !request.asks "dry_run" then w.execute.map deployed else .error f
  | _, none =>
    if request.asks "dry_run" then .ok (dryRun fraise host (request.asks "force"))
    else if !request.asks "force" && !fraise.isDeploymentNeeded host then
      .ok
        { success := true
          status := "skipped"
          message := some "Already up to date"
          deployedVersion := fraise.getCurrentVersion host }
    else w.execute.map deployed

/-- `execute_deployment_request`. -/
def executeDeploymentRequest (w : World) (host : Host) (request : DeploymentRequest) :
    DaemonResult :=
  match w.config with
  | .ok none =>
    { success := false
      status := "failed"
      message := some "Project not found"
      errorMessage := some w.diagnostic }
  | .ok (some fraise) =>
    if w.currentUser ≠ w.expectedUser then
      { success := false
        status := "failed"
        message := some "Wrong user"
        errorMessage := some ("Deployment must run as '" ++ w.expectedUser ++
          "' but running as '" ++ w.currentUser ++ "'.\nRun with: sudo -u " ++ w.expectedUser ++
          " fraisier deploy-daemon ...") }
    else
      match deployFraise w host fraise request with
      | .ok result => result
      | .error f => failed f
  | .error f => failed f
where
  /-- The clauses of the `try`. -/
  failed (f : Failure) : DaemonResult :=
    if f.cls.isInstance .fileNotFoundError then
      { success := false
        status := "failed"
        message := some "Configuration file not found"
        errorMessage := some w.diagnostic }
    else
      { success := false
        status := "failed"
        message := some "Deployment failed"
        errorMessage := some f.text }

end Fraisier.Daemon
