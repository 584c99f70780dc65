import Fraisier.Install.Helper
import Fraisier.Install.Wire

/-!
# A request from its bytes to its response

`_handle_manifest` on the bytes that the helper received. The fields of a parsed manifest are JSON
values, and each is looked at only where it is used: as a path, which must be a text, in a `set`,
which must have a hash, in a message, which holds its `repr`. What one of these raises is not handled,
and no response is sent then. From there on the functions are those of a manifest of texts.
-/

namespace Fraisier.Install.Wire

open Fraisier.Lib Interaction Unicode Json Fraisier.Unit

/-! ## Responses -/

/-- How deep the interpreter's stack lets values be nested. -/
structure Stack extends Json.Limits where
  /-- In `json.dumps`, of a field of a marker. -/
  marker : ℕ
  /-- In `json.dumps`, of the unit in a post-action's result. -/
  response : ℕ

/-- Why a request is rejected. -/
inductive Reason
  /-- By `parse_manifest`. -/
  | unparsed (reason : Rejection)
  /-- `unsupported manifest version: {manifest.version}`. -/
  | version (version : Json)
  /-- `op {op_index}: mode {op.mode!r} not permitted (must be {REQUIRED_MODE!r})`. -/
  | mode (index : ℕ) (mode : Json)
  /-- `post_action {action_index}: enable_now {unit!r} refers to a unit not installed by this
  manifest`. -/
  | notInstalled (index : ℕ) (unit : Json)
  /-- With a message that shows texts only. -/
  | message (message : Message)

/-- The result of a post-action. -/
inductive ActionResult
  | of (result : PostResult)
  /-- Refused for want of a marker, where no destination could hold one. -/
  | rejected (kind : String) (unit : Json)

/-- A response. -/
inductive Reply
  | rejected (reason : Reason)
  | timedOut (reason : Message)
  | busy
  | ok (installed markersWritten : List Str) (postActions : List ActionResult)

/-- How a request is given up. -/
inductive RequestError
  | rejected (reason : Reason)
  | timedOut (reason : Message)
  /-- An exception that the helper does not handle. -/
  | raised

/-- The error of a request for an error of a part on texts. -/
def RequestError.of : InstallError → RequestError
  | .rejected reason => .rejected (.message reason)
  | .timedOut reason => .timedOut reason
  | .raised => .raised

/-- A program over the helper's calls. -/
abbrev RequestM := Interaction InstallCall.Answer RequestError

/-- A part that is the same on texts. -/
abbrev lift {α : Type} (p : InstallM α) : RequestM α := p.mapError .of

/-! ## Fields -/

/-- A text as a path or a name. A lone surrogate stands as U+FFFD: nothing looks for either. -/
def shown (t : Text) : Str := t.map fun c => (charOf? c).getD '\uFFFD'

/-- A field that is used as a path or a name: a `TypeError` where it is no text. -/
def asText : Json → RequestM Str
  | .str t => pure (shown t)
  | _ => raise .raised

/-- A field as a call of the helper tells of it: its text, or its JSON where it is none. -/
def told : Json → Str
  | .str t => shown t
  | v => shown (dumps v)

/-- A marker as a call tells of it. -/
def MarkerMeta.told (marker : MarkerMeta Json) : Install.MarkerMeta :=
  ⟨Wire.told marker.fraisesYamlPath, Wire.told marker.fraiseName, Wire.told marker.environment,
    Wire.told marker.jobName⟩

/-- The fields of a marker. -/
def MarkerMeta.fields {S : Type} (marker : MarkerMeta S) : List S :=
  [marker.fraisesYamlPath, marker.fraiseName, marker.environment, marker.jobName]

/-! ## Validation -/

variable (limits : Stack)

/-- The rejection of a value whose `repr` its message holds. -/
def rejectShowing (v : Json) (reason : Reason) : RequestM Unit :=
  if v.depth ≤ limits.repr then raise (.rejected reason) else raise .raised

/-- The version in `validate_manifest`: `1.0` and `true` are 1 as well. -/
def checkVersion (version : Json) : RequestM Unit :=
  if version.sameKey (.int manifestVersion) then pure ()
  else rejectShowing limits version (.version version)

/-- `_check_marker`. -/
def checkMarker (marker : MarkerMeta Json) (index : ℕ) : RequestM Unit := do
  let _ ← asText marker.fraisesYamlPath
  lift (Install.checkMarker marker.told index)

/-- `_validate_install_file_op`. -/
def validateInstallFileOp (op : InstallFileOp Json Json) (allowlist : List AllowlistEntry)
    (index : ℕ) : RequestM Unit :=
  if op.mode.isStr "0644" then do
    let destPath ← asText op.destPath
    lift (checkUnitBasename (unitName destPath) index)
    let sourcePath ← asText op.sourcePath
    lift (checkSource sourcePath allowlist index)
    lift (checkDestParent destPath allowlist index)
    match op.marker with
    | some marker => checkMarker marker index
    | none => pure ()
  else rejectShowing limits op.mode (.mode index op.mode)

/-- `_validate_write_marker_op`. -/
def validateWriteMarkerOp (op : WriteMarkerOp Json) (allowlist : List AllowlistEntry) (index : ℕ) :
    RequestM Unit := do
  let destPath ← asText op.destPath
  lift (checkUnitBasename (unitName destPath) index)
  lift (checkDestParent destPath allowlist index)
  checkMarker op.marker index

/-- One operation in `validate_manifest`. -/
def validateOperation (allowlist : List AllowlistEntry) (item : Operation Json Json × ℕ) :
    RequestM Unit :=
  match item.1 with
  | .installFile op => validateInstallFileOp limits op allowlist item.2
  | .writeMarker op => validateWriteMarkerOp op allowlist item.2

/-- The units that the operations install, of destinations that were checked. -/
def installedBasenames (operations : List (Operation Json Json)) : List Str :=
  operations.filterMap fun
    | .installFile op => some (unitName (told op.destPath))
    | .writeMarker _ => none

/-- `unit in installed_basenames`. -/
def isInstalled (installed : List Str) : Json → Bool
  | .str t => shown t ∈ installed
  | _ => false

/-- `_validate_post_action`. -/
def validatePostAction (installed : List Str) (item : PostAction Json × ℕ) : RequestM Unit :=
  match item.1 with
  | .enableNow unit =>
    match unit.key with
    | .error _ => raise .raised
    | .ok _ => if isInstalled installed unit then pure ()
      else raise (.rejected (.notInstalled item.2 unit))
  | .daemonReload | .disableNow _ | .stop _ => pure ()

/-- `validate_manifest`. -/
def validateManifest (manifest : ParsedManifest) (allowlist : List AllowlistEntry) :
    RequestM Unit := do
  checkVersion limits manifest.version
  manifest.operations.zipIdx.foldlM (fun _ item => validateOperation limits allowlist item) ()
  manifest.postActions.zipIdx.foldlM
    (fun _ item => validatePostAction (installedBasenames manifest.operations) item) ()

/-- One operation in `_judge_sources`. -/
def judgeSource (resolved : ResolvedAllowlist) (policy : RootPolicy) (acc : Judgement)
    (item : Operation Json Json × ℕ) : RequestM Judgement :=
  match item.1 with
  | .writeMarker _ => pure acc
  | .installFile op => do
    let destPath ← asText op.destPath
    let sourcePath ← asText op.sourcePath
    lift (Install.judgeSource resolved policy acc
      (.installFile { sourcePath, destPath, mode := requiredMode }, item.2))

/-- `_judge_sources`. -/
def judgeSources (manifest : ParsedManifest) (resolved : ResolvedAllowlist) (policy : RootPolicy) :
    RequestM (List (ℕ × ByteArray)) := do
  let (contents, reasons) ← manifest.operations.zipIdx.foldlM (judgeSource resolved policy) ([], [])
  if reasons ≠ [] then
    raise (.rejected (.message (.lit "refused by the root policy's unit allowlist:\n" ::
      List.intercalate [.lit "\n"] reasons)))
  else pure contents

/-! ## Execution -/

/-- `_write_marker_into_dir_fd`. -/
def writeMarkerIntoDirFd (dir : OpenDir) (unit : Str) (marker : MarkerMeta Json) : RequestM Unit :=
  if marker.fields.all (·.depth ≤ limits.marker) then
    lift (Install.writeMarkerIntoDirFd dir unit marker.told)
  else raise .raised

/-- `_execute_install_file_op`, and the name that it installed. -/
def executeInstallFileOp (op : InstallFileOp Json Json) (resolved : ResolvedAllowlist)
    (data : Option ByteArray) : RequestM Str := do
  let destPath ← asText op.destPath
  let dir ← lift (openDest destPath resolved)
  let data ← match data with
    | some data => pure data
    | none => do lift (readSource (← asText op.sourcePath) resolved)
  lift (writeIntoDirFd dir (unitName destPath) data)
  match op.marker with
  | some marker => writeMarkerIntoDirFd limits dir (unitName destPath) marker
  | none => pure ()
  pure (unitName destPath)

/-- `_execute_write_marker_op`, and the name that it marked. -/
def executeWriteMarkerOp (op : WriteMarkerOp Json) (resolved : ResolvedAllowlist) :
    RequestM Str := do
  let destPath ← asText op.destPath
  let dir ← lift (openDest destPath resolved)
  writeMarkerIntoDirFd limits dir (unitName destPath) op.marker
  pure (unitName destPath)

/-- One operation in `_execute_manifest`, after the names it has written. -/
def executeOperation (resolved : ResolvedAllowlist) (contents : List (ℕ × ByteArray))
    (acc : List Str × List Str) (item : Operation Json Json × ℕ) :
    RequestM (List Str × List Str) := do
  lift (checkManifestDeadline "op" item.2)
  match item.1 with
  | .installFile op => do
    let name ← executeInstallFileOp limits op resolved (contents.lookup item.2)
    pure (acc.1 ++ [name], acc.2)
  | .writeMarker op => do
    let name ← executeWriteMarkerOp limits op resolved
    pure (acc.1, acc.2 ++ [name])

/-- `_execute_post_action`, of an action that needs a marker: the marker's name is made of the unit's,
for each destination that could hold it. -/
def executeGuarded (kind : String) (action : Str → Install.PostAction) (unit : Json)
    (resolved : ResolvedAllowlist) : RequestM ActionResult :=
  match unit with
  | .str t => do return .of (← lift (Install.executePostAction (action (shown t)) resolved))
  | unit => if resolved.dests = [] then pure (.rejected kind unit) else raise .raised

/-- `_execute_post_action`. -/
def executePostAction (action : PostAction Json) (resolved : ResolvedAllowlist) :
    RequestM ActionResult :=
  match action with
  | .daemonReload => do return .of (← lift (Install.executePostAction .daemonReload resolved))
  | .enableNow unit => do
    return .of (← lift (Install.executePostAction (.enableNow (← asText unit)) resolved))
  | .disableNow unit => executeGuarded "disable" .disableNow unit resolved
  | .stop unit => executeGuarded "stop" .stop unit resolved

/-- One post-action in `_execute_manifest`. -/
def executeAction (resolved : ResolvedAllowlist) (results : List ActionResult)
    (item : PostAction Json × ℕ) : RequestM (List ActionResult) := do
  lift (checkManifestDeadline "post_action" item.2)
  let result ← executePostAction item.1 resolved
  pure (results ++ [result])

/-- The result can be written as JSON. -/
def ActionResult.isWritable : ActionResult → Bool
  | .of _ => true
  | .rejected _ unit => unit.depth ≤ limits.response

/-- `_execute_manifest`. -/
def executeManifest (manifest : ParsedManifest) (resolved : ResolvedAllowlist)
    (contents : List (ℕ × ByteArray)) : RequestM Reply := do
  let (written, markers) ← manifest.operations.zipIdx.foldlM
    (executeOperation limits resolved contents) ([], [])
  let results ← manifest.postActions.zipIdx.foldlM (executeAction resolved) []
  if results.all (·.isWritable limits) then pure (.ok written markers results)
  else raise .raised

/-! ## Requests -/

/-- The part of `_handle_manifest` before the lock: what the sources hold, if nothing is refused. -/
def accept (allowlist : List AllowlistEntry) (resolved : ResolvedAllowlist)
    (manifest : ParsedManifest) : RequestM (List (ℕ × ByteArray)) := do
  validateManifest limits manifest allowlist
  let policy ← lift loadPolicy
  judgeSources manifest resolved policy

/-- The part under the lock. -/
def execute (resolved : ResolvedAllowlist) (manifest : ParsedManifest)
    (contents : List (ℕ × ByteArray)) : RequestM Reply := do
  match ← ask InstallCall.lock with
  | .raised => raise .raised
  | .busy => pure .busy
  | .taken =>
    match ← attempt (executeManifest limits manifest resolved contents) with
    | .ok response => pure response
    | .error (.rejected reason) => pure (.rejected reason)
    | .error (.timedOut reason) => pure (.timedOut reason)
    | .error .raised => raise .raised

/-- `_handle_manifest`, of a manifest that was parsed. -/
def handleParsed (allowlist : List AllowlistEntry) (resolved : ResolvedAllowlist)
    (manifest : ParsedManifest) : RequestM Reply := do
  match ← attempt (accept limits allowlist resolved manifest) with
  | .error (.rejected reason) => pure (.rejected reason)
  | .error e => raise e
  | .ok contents => execute limits resolved manifest contents

/-- `_handle_manifest`, of the bytes that were read. -/
def handleManifest (allowlist : List AllowlistEntry) (resolved : ResolvedAllowlist)
    (raw : List ℕ) : RequestM Reply :=
  match parseManifest limits.toLimits raw with
  | .error (.rejected reason) => pure (.rejected (.unparsed reason))
  | .error _ => raise .raised
  | .ok manifest => handleParsed limits allowlist resolved manifest

end Fraisier.Install.Wire
