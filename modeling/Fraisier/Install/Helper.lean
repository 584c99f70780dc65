import Fraisier.Install.Protocol

/-!
# The unit-installer helper

`unit_installer_helper.py`: what the root helper does with one manifest. It validates the manifest,
reads each source once and judges what it read (`_judge_sources`), and then takes its lock and
carries out the operations and the post-actions (`_execute_manifest`).
-/

namespace Fraisier.Install

open Fraisier.Lib Interaction Str Fraisier.Unit

/-- `ResolvedAllowlist`: the prefixes as they were resolved when the helper started, each
destination with the identity of its directory. -/
structure ResolvedAllowlist where
  dests : List (PurePath × DirId)
  sources : List PurePath
  deriving DecidableEq, Repr

/-- The answer to a request, less that of a post-action's output. -/
inductive PostResult
  /-- Refused for want of a marker. -/
  | rejected (kind : String) (unit : Str)
  | timedOut (kind : Str)
  | ran (kind : Str) (returncode : ℤ) (stderr : Str)
  deriving DecidableEq, Repr

/-- What the helper replies. -/
inductive Response
  | rejected (reason : Message)
  | timedOut (reason : Message)
  | busy
  | ok (installed markersWritten : List Str) (postActions : List PostResult)
  deriving DecidableEq, Repr

/-! ## Judging -/

/-- `_MAX_UNIT_BYTES`. -/
def maxUnitBytes : ℕ := 1024 * 1024

/-- `_read_source`. -/
def readSource (sourcePath : Str) (resolved : ResolvedAllowlist) : InstallM ByteArray := do
  match ← resolve (.of sourcePath) with
  | .raised | .notFound => raise .raised
  | .path source =>
    if !resolved.sources.any (source.isRelativeTo ·) then
      raise (.rejected [.lit "TOCTOU detected: source ", .val source.text,
        .lit " is no longer under any snapshot source_prefix"])
    else do
      match ← ask (InstallCall.readFile source) with
      | .link => raise (.rejected [.lit "source ", .val source.text,
          .lit " became a symlink after resolve — refusing to follow"])
      | .raised => raise .raised
      | .bytes data =>
        if maxUnitBytes < data.size then
          raise (.rejected [.lit "source ", .val source.text,
            .lit " is larger than a unit file can be"])
        else pure data

/-- The refusals of a unit that was read: those of its name first. -/
def refusalsOf (policy : RootPolicy) (name text : Str) : Option (List Refusal) :=
  (validateUnit name text policy).map ((checkAppUnitName name policy).toList ++ ·)

/-- What the sources hold, by the index of their operation, and why some are refused. -/
abbrev Judgement := List (ℕ × ByteArray) × List Message

/-- One operation in `_judge_sources`. -/
def judgeSource (resolved : ResolvedAllowlist) (policy : RootPolicy) (acc : Judgement)
    (item : Operation × ℕ) : InstallM Judgement :=
  match item.1 with
  | .writeMarker _ => pure acc
  | .installFile op => do
    let name := unitName op.destPath
    let data ← readSource op.sourcePath resolved
    let where_ : Message := [.lit "op ", .num item.2, .lit " ", .val name, .lit ": "]
    match decodeUtf8 data with
    | none => pure (acc.1, acc.2 ++ [where_ ++ [.lit "[syntax] the file is not UTF-8"]])
    | some text => match refusalsOf policy name text with
      | none => raise .raised
      | some refusals =>
        pure (acc.1 ++ [(item.2, data)], acc.2 ++ refusals.map fun r => where_ ++ r.text)

/-- `_judge_sources`. -/
def judgeSources (manifest : Manifest) (resolved : ResolvedAllowlist) (policy : RootPolicy) :
    InstallM (List (ℕ × ByteArray)) := do
  let (contents, reasons) ← manifest.operations.zipIdx.foldlM (judgeSource resolved policy) ([], [])
  if reasons ≠ [] then
    raise (.rejected (.lit "refused by the root policy's unit allowlist:\n" ::
      List.intercalate [.lit "\n"] reasons))
  else pure contents

/-! ## Execution -/

/-- `_open_and_verify_dest_parent`. -/
def openAndVerifyDestParent (parent : PurePath) (resolved : ResolvedAllowlist) :
    InstallM OpenDir :=
  match resolved.dests.find? fun d => d.1 = parent with
  | none => raise (.rejected [.lit "TOCTOU detected: dest parent ", .val parent.text,
      .lit " no longer matches a snapshot dest_prefix (parent symlink flipped?)"])
  | some expected => do
    match ← ask (InstallCall.openDir parent) with
    | .raised => raise .raised
    | .opened id =>
      if id ≠ expected.2 then
        raise (.rejected [.lit "TOCTOU detected: dest parent ", .val parent.text,
          .lit " dev/inode (", .num id.1, .lit ", ", .num id.2, .lit ") differs from snapshot (",
          .num expected.2.1, .lit ", ", .num expected.2.2,
          .lit ") — directory was replaced between snapshot and execute"])
      else pure ⟨parent, id⟩

/-- The destination's directory, opened: the start of both operations. -/
def openDest (destPath : Str) (resolved : ResolvedAllowlist) : InstallM OpenDir := do
  match ← resolve (PurePath.of destPath).parent with
  | .raised | .notFound => raise .raised
  | .path parent => openAndVerifyDestParent parent resolved

/-- `_write_into_dir_fd`. -/
def writeIntoDirFd (dir : OpenDir) (name : Str) (data : ByteArray) : InstallM Unit := do
  match ← ask (InstallCall.writeFile dir name data) with
  | .done => pure ()
  | .link => raise (.rejected [.lit "dest basename ", .repr name,
      .lit " is a symlink — refusing to follow (O_NOFOLLOW)"])
  | .raised => raise .raised

/-- `_MARKER_SUFFIX`. -/
def markerSuffix : Str := ".fraisier-managed".toList

/-- `_write_marker_into_dir_fd`. -/
def writeMarkerIntoDirFd (dir : OpenDir) (unit : Str) (marker : MarkerMeta) : InstallM Unit := do
  match ← ask (InstallCall.writeMarker dir unit marker) with
  | .done => pure ()
  | .link => raise (.rejected [.lit "marker ", .repr (unit ++ markerSuffix),
      .lit " is a symlink — refusing to follow (O_NOFOLLOW)"])
  | .raised => raise .raised

/-- `_execute_install_file_op`. Without the judged bytes, it would read the source again. -/
def executeInstallFileOp (op : InstallFileOp) (resolved : ResolvedAllowlist)
    (data : Option ByteArray) : InstallM Unit := do
  let dir ← openDest op.destPath resolved
  let data ← match data with
    | some data => pure data
    | none => readSource op.sourcePath resolved
  writeIntoDirFd dir (unitName op.destPath) data
  match op.marker with
  | some marker => writeMarkerIntoDirFd dir (unitName op.destPath) marker
  | none => pure ()

/-- `_execute_write_marker_op`. -/
def executeWriteMarkerOp (op : WriteMarkerOp) (resolved : ResolvedAllowlist) : InstallM Unit := do
  let dir ← openDest op.destPath resolved
  writeMarkerIntoDirFd dir (unitName op.destPath) op.marker

/-- `_MANIFEST_TIMEOUT`. -/
def manifestTimeout : ℕ := 300

/-- `_check_manifest_deadline`. -/
def checkManifestDeadline (stage : String) (index : ℕ) : InstallM Unit := do
  if ← ask InstallCall.deadline then
    raise (.timedOut [.lit "manifest exceeded ", .num manifestTimeout, .lit "s cap at stage=",
      .lit stage, .lit " op_index=", .num index])
  else pure ()

/-- `_marker_present`. -/
def markerPresent (unit : Str) : List (PurePath × DirId) → InstallM Bool
  | [] => pure false
  | dest :: rest => do
    if ← ask (InstallCall.pathExists (dest.1.join (unit ++ markerSuffix))) then pure true
    else markerPresent unit rest

/-- `_post_action_cmd`, less the program and its timeout. -/
def postActionCmd : PostAction → List Str
  | .daemonReload => ["daemon-reload".toList]
  | .enableNow unit => ["enable".toList, "--now".toList, unit]
  | .disableNow unit => ["disable".toList, "--now".toList, unit]
  | .stop unit => ["stop".toList, unit]

/-- The unit whose marker a post-action needs, and its kind in a reply. -/
def PostAction.guarded : PostAction → Option (String × Str)
  | .disableNow unit => some ("disable", unit)
  | .stop unit => some ("stop", unit)
  | .daemonReload | .enableNow _ => none

/-- The end of `_execute_post_action`: `systemctl`. -/
def runPostAction (action : PostAction) : InstallM PostResult := do
  match ← ask (InstallCall.systemctl (postActionCmd action)) with
  | .exited returncode stderr => pure (.ran ((postActionCmd action).headD []) returncode stderr)
  | .timedOut => pure (.timedOut ((postActionCmd action).headD []))
  | .raised => raise .raised

/-- `_execute_post_action`. -/
def executePostAction (action : PostAction) (resolved : ResolvedAllowlist) : InstallM PostResult :=
  match action.guarded with
  | none => runPostAction action
  | some (kind, unit) => do
    if ← markerPresent unit resolved.dests then runPostAction action
    else pure (.rejected kind unit)

/-- One operation in `_execute_manifest`, after the names it has written. -/
def executeOperation (resolved : ResolvedAllowlist) (contents : List (ℕ × ByteArray))
    (acc : List Str × List Str) (item : Operation × ℕ) : InstallM (List Str × List Str) := do
  checkManifestDeadline "op" item.2
  match item.1 with
  | .installFile op => do
    executeInstallFileOp op resolved (contents.lookup item.2)
    pure (acc.1 ++ [unitName op.destPath], acc.2)
  | .writeMarker op => do
    executeWriteMarkerOp op resolved
    pure (acc.1, acc.2 ++ [unitName op.destPath])

/-- One post-action in `_execute_manifest`. -/
def executeAction (resolved : ResolvedAllowlist) (results : List PostResult)
    (item : PostAction × ℕ) : InstallM (List PostResult) := do
  checkManifestDeadline "post_action" item.2
  let result ← executePostAction item.1 resolved
  pure (results ++ [result])

/-- `_execute_manifest`. -/
def executeManifest (manifest : Manifest) (resolved : ResolvedAllowlist)
    (contents : List (ℕ × ByteArray)) : InstallM Response := do
  let (written, markers) ← manifest.operations.zipIdx.foldlM (executeOperation resolved contents)
    ([], [])
  let results ← manifest.postActions.zipIdx.foldlM (executeAction resolved) []
  pure (.ok written markers results)

/-! ## Requests -/

/-- The policy of a request. -/
def loadPolicy : InstallM RootPolicy := do
  match ← ask InstallCall.loadPolicy with
  | .policy policy => pure policy
  | .refused text => raise (.rejected [.val text])
  | .raised => raise .raised

/-- The part of `_handle_manifest` before the lock: what the sources hold, if nothing is refused. -/
def accept (allowlist : List AllowlistEntry) (resolved : ResolvedAllowlist) (manifest : Manifest) :
    InstallM (List (ℕ × ByteArray)) := do
  validateManifest manifest allowlist
  let policy ← loadPolicy
  judgeSources manifest resolved policy

/-- The part under the lock. -/
def execute (resolved : ResolvedAllowlist) (manifest : Manifest)
    (contents : List (ℕ × ByteArray)) : InstallM Response := do
  match ← ask InstallCall.lock with
  | .raised => raise .raised
  | .busy => pure .busy
  | .taken =>
    match ← attempt (executeManifest manifest resolved contents) with
    | .ok response => pure response
    | .error (.rejected reason) => pure (.rejected reason)
    | .error (.timedOut reason) => pure (.timedOut reason)
    | .error .raised => raise .raised

/-- `_handle_manifest`, from the parsed manifest on. -/
def handleManifest (allowlist : List AllowlistEntry) (resolved : ResolvedAllowlist)
    (manifest : Manifest) : InstallM Response := do
  match ← attempt (accept allowlist resolved manifest) with
  | .error (.rejected reason) => pure (.rejected reason)
  | .error e => raise e
  | .ok contents => execute resolved manifest contents

end Fraisier.Install
