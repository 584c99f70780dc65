import Fraisier.Lib.Text

/-!
# Names of units and sockets

`naming.py`: the names of the systemd units that fraisier writes for a fraise in an environment, for
an environment and for an entry of its retention policy, and the paths of the sockets that its
helpers listen on. The renderer, the installer and the pruner all take them from here.
-/

namespace Fraisier.Scaffold

open Fraisier.Lib Str

/-- What of an environment's configuration names its units: the texts of the fields, as far as they
are set. -/
structure EnvConfig where
  systemdDeploySocket : Option Str := none
  name : Option Str := none
  systemdService : Option Str := none
  /-- `service.service_name`. -/
  serviceName : Option Str := none

/-- `str.removesuffix`. -/
def removeSuffix (s stop : Str) : Str :=
  if endsWith s stop then s.take (s.length - stop.length) else s

/-- `f"{a}-{b}-…"`. -/
def dashed (words : List Str) : Str := ['-'].intercalate words

/-- `"fraisier"`, which the names start with. -/
def fraisier : Str := "fraisier".toList

def dotSocket : Str := ".socket".toList

def dotService : Str := ".service".toList

def dotTimer : Str := ".timer".toList

/-! ## Units -/

/-- `deploy_socket_name`. -/
def deploySocketName (envConfig : EnvConfig) (envKey fraiseName : Str) : Str :=
  match envConfig.systemdDeploySocket.filter (· ≠ []) with
  | some override => if endsWith override dotSocket then override else override ++ dotSocket
  | none => match envConfig.name.filter (· ≠ []) with
    | some name => dashed [fraisier, name] ++ dotSocket
    | none =>
      if fraiseName ≠ [] then dashed [fraisier, fraiseName, envKey] ++ dotSocket
      else dashed [fraisier, envKey] ++ dotSocket

/-- The stem of the deploy socket's unit. -/
def socketStem (envConfig : EnvConfig) (envKey fraiseName : Str) : Str :=
  removeSuffix (deploySocketName envConfig envKey fraiseName) dotSocket

/-- The units of a deploy socket: the socket and the template that it starts for each connection. -/
def deployUnitNames (envConfig : EnvConfig) (envKey fraiseName : Str) : List Str :=
  [deploySocketName envConfig envKey fraiseName,
    socketStem envConfig envKey fraiseName ++ ['@'] ++ dotService]

/-- `app_service_name`. -/
def appServiceName (projectName fraiseName envName : Str) (envConfig : EnvConfig) : Str :=
  match envConfig.systemdService.filter (· ≠ []) with
  | some service => removeSuffix service dotService ++ dotService
  | none => match envConfig.serviceName.filter (· ≠ []) with
    | some override => override ++ dotService
    | none => ['_'].intercalate [projectName, fraiseName, envName] ++ dotService

/-- `unit_installer_unit_names`. -/
def unitInstallerUnitNames (projectName envName : Str) : List Str :=
  let base := dashed [fraisier, projectName, envName, "unit-installer".toList]
  [base ++ dotSocket, base ++ dotService]

/-- `pgbackrest_helper_unit_names`. -/
def pgbackrestHelperUnitNames (projectName fraiseName envName : Str) : List Str :=
  let base := dashed [fraisier, projectName, fraiseName, envName, "pgbackrest-helper".toList]
  [base ++ dotSocket, base ++ dotService]

/-- `retention_unit_names`. -/
def retentionUnitNames (projectName envName entryName : Str) : List Str :=
  let base := dashed [fraisier, projectName, envName, "retain".toList, entryName]
  [base ++ dotService, base ++ dotTimer]

/-- `pre_migrate_prune_unit_names`. -/
def preMigratePruneUnitNames (projectName fraiseName envName : Str) : List Str :=
  let base := dashed [fraisier, projectName, fraiseName, envName, "pre-migrate-prune".toList]
  [base ++ dotService, base ++ dotTimer]

/-! ## Sockets -/

/-- The path of the deploy socket. -/
def deploySocketPath (envConfig : EnvConfig) (envKey fraiseName : Str) : PurePath :=
  ((PurePath.of "/run/fraisier".toList).join (socketStem envConfig envKey fraiseName)).join
    "deploy.sock".toList

/-- `unit_installer_socket_path`. -/
def unitInstallerSocketPath (projectName envName : Str) : PurePath :=
  .of ("/run/fraisier/".toList ++ envName ++ "/unit-installer-".toList ++ projectName ++
    ".sock".toList)

/-- `pgbackrest_helper_socket_path`. -/
def pgbackrestHelperSocketPath (projectName fraiseName envName : Str) : PurePath :=
  .of ("/run/fraisier/".toList ++ dashed ["pgbackrest".toList, projectName, fraiseName, envName] ++
    ".sock".toList)

/-! ## Names that are accepted -/

/-- `[a-zA-Z0-9]`. -/
def isAlnum (c : Char) : Bool := inRanges [(0x30, 0x39), (0x41, 0x5a), (0x61, 0x7a)] c

/-- `[a-zA-Z0-9_-]`. -/
def isNameChar (c : Char) : Bool := isAlnum c || c == '_' || c == '-'

/-- `_SAFE_NAME_RE.match`, of the renderer's check of fraise and environment names: `$` matches
before a newline at the end. -/
def isSafeName (s : Str) : Bool :=
  let word := if s.getLast? = some '\n' then s.dropLast else s
  !word.isEmpty && word.all isNameChar

/-- A name of a fraise or an environment that is accepted. -/
abbrev SafeName := { s : Str // isSafeName s = true }

/-- `_RETAIN_NAME_RE.match`, of a text that has no newline. -/
def isRetainName (s : Str) : Bool := s.head?.any isAlnum && s.all isNameChar

/-- A name of a retention entry that is accepted. -/
abbrev RetainName := { s : Str // isRetainName s = true }

end Fraisier.Scaffold
