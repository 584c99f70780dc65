import Fraisier.Lib.Interaction
import Fraisier.Unit.Validator

/-!
# What the unit-installer is asked for

`unit_installer_protocol.py`, from the parsed manifest on: the manifest, and the checks that
`validate_manifest` makes of it. Resolving a path is a call, since the file system may have changed
since the last one; here are also the helper's other calls. Nothing is assumed of their answers.
-/

namespace Fraisier.Install

open Fraisier.Lib Interaction Str Fraisier.Unit

/-! ## Manifests -/

/-- `MarkerMeta`. -/
structure MarkerMeta where
  fraisesYamlPath : Str
  fraiseName : Str
  environment : Str
  jobName : Str
  deriving DecidableEq, Repr

/-- `InstallFileOp`. -/
structure InstallFileOp where
  sourcePath : Str
  destPath : Str
  mode : Str
  marker : Option MarkerMeta := none
  deriving DecidableEq, Repr

/-- `WriteMarkerOp`. -/
structure WriteMarkerOp where
  destPath : Str
  marker : MarkerMeta
  deriving DecidableEq, Repr

/-- `Operation`. -/
inductive Operation
  | installFile (op : InstallFileOp)
  | writeMarker (op : WriteMarkerOp)
  deriving DecidableEq, Repr

/-- `PostAction`. -/
inductive PostAction
  | daemonReload
  | enableNow (unit : Str)
  | disableNow (unit : Str)
  | stop (unit : Str)
  deriving DecidableEq, Repr

/-- `Manifest`. -/
structure Manifest where
  version : ℤ
  operations : List Operation := []
  postActions : List PostAction := []
  deriving DecidableEq, Repr

/-- `AllowlistEntry`. -/
structure AllowlistEntry where
  sourcePrefix : PurePath
  destPrefix : PurePath
  deriving DecidableEq, Repr

/-! ## Calls -/

/-- The device and inode of a directory. -/
abbrev DirId := ℕ × ℕ

/-- An open directory: the path it was opened at, and what `fstat` says of it. -/
structure OpenDir where
  path : PurePath
  id : DirId
  deriving DecidableEq, Repr

/-- What the helper calls. -/
inductive InstallCall
  /-- `Path.resolve(strict=True)`. -/
  | resolve (path : PurePath)
  /-- The policy loader. -/
  | loadPolicy
  /-- A regular file is opened without following a link, and read. -/
  | readFile (path : PurePath)
  /-- The lock of the helper is taken. -/
  | lock
  /-- The manifest's time is compared with its cap. -/
  | deadline
  /-- A directory is opened. -/
  | openDir (path : PurePath)
  /-- A unit file is written in an open directory, without following a link. -/
  | writeFile (dir : OpenDir) (name : Str) (data : ByteArray)
  /-- A unit's marker is written in an open directory, without following a link. -/
  | writeMarker (dir : OpenDir) (unit : Str) (marker : MarkerMeta)
  /-- `Path.exists`. -/
  | pathExists (path : PurePath)
  | systemctl (args : List Str)
  deriving DecidableEq

/-- How a path resolves. -/
inductive Resolved
  | path (p : PurePath) | notFound | raised
  deriving DecidableEq

/-- How the policy loader ends: `RootPolicyError` is an answer. -/
inductive PolicyRead
  | policy (p : RootPolicy) | refused (text : Str) | raised

/-- How a source file is read. -/
inductive SourceRead
  | bytes (data : ByteArray)
  /-- It became a link. -/
  | link
  | raised
  deriving DecidableEq

/-- How the lock is taken. -/
inductive LockEnd
  | taken | busy | raised
  deriving DecidableEq

/-- How a directory is opened. -/
inductive DirOpen
  | opened (id : DirId) | raised
  deriving DecidableEq

/-- How a file is written. One that raises may have been cut short. -/
inductive FileEnd
  | done
  /-- There is a link of that name. -/
  | link
  | raised
  deriving DecidableEq

/-- How `systemctl` ends. -/
inductive Ran
  | exited (returncode : ℤ) (stderr : Str) | timedOut | raised
  deriving DecidableEq

/-- What a call is answered with. -/
@[reducible] def InstallCall.Answer : InstallCall → Type
  | .resolve _ => Resolved
  | .loadPolicy => PolicyRead
  | .readFile _ => SourceRead
  | .lock => LockEnd
  | .deadline => Bool
  | .openDir _ => DirOpen
  | .writeFile _ _ _ => FileEnd
  | .writeMarker _ _ _ => FileEnd
  | .pathExists _ => Bool
  | .systemctl _ => Ran

/-- How a request is given up. -/
inductive InstallError
  /-- `ManifestRejected`, or `RootPolicyError`. -/
  | rejected (reason : Message)
  /-- `_ManifestTimedOut`. -/
  | timedOut (reason : Message)
  /-- An exception that the helper does not handle. -/
  | raised
  deriving DecidableEq, Repr

/-- A program over these calls. -/
abbrev InstallM := Interaction InstallCall.Answer InstallError

/-- `Path.resolve(strict=True)`. -/
abbrev resolve (path : PurePath) : InstallM Resolved := ask (InstallCall.resolve path)

/-! ## Validation -/

/-- `MANIFEST_VERSION`. -/
def manifestVersion : ℤ := 1

/-- `REQUIRED_MODE`. -/
def requiredMode : Str := "0644".toList

/-- `_safe_resolve`. -/
def safeResolve (path : PurePath) : InstallM (Option PurePath) := do
  match ← resolve path with
  | .path p => pure (some p)
  | .notFound => pure none
  | .raised => raise .raised

/-- A search of the allowlist: the first entry whose prefix, resolved, is a match. -/
def matchPrefix (prefix_ : AllowlistEntry → PurePath) (isMatch : PurePath → Bool) :
    List AllowlistEntry → InstallM (Option AllowlistEntry)
  | [] => pure none
  | entry :: rest => do
    let root ← safeResolve (prefix_ entry)
    if root.any isMatch then pure (some entry) else matchPrefix prefix_ isMatch rest

/-- `Allowlist.match_source_prefix`. -/
def matchSourcePrefix (allowlist : List AllowlistEntry) (source : PurePath) :
    InstallM (Option AllowlistEntry) :=
  matchPrefix AllowlistEntry.sourcePrefix (source.isRelativeTo ·) allowlist

/-- `Allowlist.match_dest_prefix`. -/
def matchDestPrefix (allowlist : List AllowlistEntry) (parent : PurePath) :
    InstallM (Option AllowlistEntry) :=
  matchPrefix AllowlistEntry.destPrefix (parent = ·) allowlist

/-- A rejection of one operation. -/
def rejectOp (index : ℕ) (message : Message) : InstallError :=
  .rejected ([.lit "op ", .num index, .lit ": "] ++ message)

/-- A character of `_SERVICE_RE`. -/
def isServiceChar (c : Char) : Bool := c.isAlphanum || "_@.-".toList.contains c

/-- `validate_service_name`, of a text without newlines at its end. -/
def isServiceName (name : Str) : Bool := !name.isEmpty && name.all isServiceChar

/-- `_check_unit_basename`. -/
def checkUnitBasename (basename : Str) (index : ℕ) : InstallM Unit :=
  if (suffixOf basename).isNone then
    raise (rejectOp index [.lit "basename ", .repr basename, .lit " is not a .service or .timer unit"])
  else if hasSub "..".toList basename then
    raise (rejectOp index [.lit "basename ", .repr basename, .lit " contains '..'"])
  else if basename.startsWith ['.'] then
    raise (rejectOp index [.lit "basename ", .repr basename, .lit " has a leading dot"])
  else if !isServiceName basename then
    raise (rejectOp index [.lit "basename ", .repr basename,
      .lit " invalid: Invalid service name: ", .repr basename])
  else pure ()

/-- `_check_source`. -/
def checkSource (sourcePath : Str) (allowlist : List AllowlistEntry) (index : ℕ) :
    InstallM Unit := do
  match ← resolve (.of sourcePath) with
  | .raised => raise .raised
  | .notFound => raise (rejectOp index [.lit "source path does not exist: ", .val sourcePath])
  | .path resolved =>
    if (← matchSourcePrefix allowlist resolved).isNone then
      raise (rejectOp index [.lit "source ", .val sourcePath, .lit " (resolves to ",
        .val resolved.text, .lit ") is outside every allowlisted source_prefix"])
    else pure ()

/-- `_check_dest_parent`. -/
def checkDestParent (destPath : Str) (allowlist : List AllowlistEntry) (index : ℕ) :
    InstallM Unit := do
  match ← resolve (PurePath.of destPath).parent with
  | .raised => raise .raised
  | .notFound => raise (rejectOp index [.lit "dest parent does not exist: ",
      .val (PurePath.of destPath).parent.text])
  | .path parent =>
    if (← matchDestPrefix allowlist parent).isNone then
      raise (rejectOp index [.lit "dest parent ", .val parent.text,
        .lit " is outside every allowlisted dest_prefix"])
    else pure ()

/-- `_check_marker`. -/
def checkMarker (marker : MarkerMeta) (index : ℕ) : InstallM Unit :=
  if (PurePath.of marker.fraisesYamlPath).isAbsolute then pure ()
  else raise (rejectOp index [.lit "marker fraises_yaml_path ", .repr marker.fraisesYamlPath,
    .lit " is not absolute (caller must Path.resolve() before sending)"])

/-- The unit's name: `Path(op.dest_path).name`. -/
def unitName (destPath : Str) : Str := (PurePath.of destPath).name

/-- `_validate_install_file_op`. -/
def validateInstallFileOp (op : InstallFileOp) (allowlist : List AllowlistEntry) (index : ℕ) :
    InstallM Unit := do
  if op.mode ≠ requiredMode then
    raise (rejectOp index [.lit "mode ", .repr op.mode, .lit " not permitted (must be ",
      .repr requiredMode, .lit ")"])
  else do
    checkUnitBasename (unitName op.destPath) index
    checkSource op.sourcePath allowlist index
    checkDestParent op.destPath allowlist index
    match op.marker with
    | some marker => checkMarker marker index
    | none => pure ()

/-- `_validate_write_marker_op`. -/
def validateWriteMarkerOp (op : WriteMarkerOp) (allowlist : List AllowlistEntry) (index : ℕ) :
    InstallM Unit := do
  checkUnitBasename (unitName op.destPath) index
  checkDestParent op.destPath allowlist index
  checkMarker op.marker index

/-- One operation in `validate_manifest`. -/
def validateOperation (allowlist : List AllowlistEntry) (item : Operation × ℕ) : InstallM Unit :=
  match item.1 with
  | .installFile op => validateInstallFileOp op allowlist item.2
  | .writeMarker op => validateWriteMarkerOp op allowlist item.2

/-- The units that the operations install. -/
def installedBasenames (operations : List Operation) : List Str :=
  operations.filterMap fun
    | .installFile op => some (unitName op.destPath)
    | .writeMarker _ => none

/-- `_validate_post_action`. -/
def validatePostAction (installed : List Str) (item : PostAction × ℕ) : InstallM Unit :=
  match item.1 with
  | .enableNow unit =>
    if unit ∈ installed then pure ()
    else raise (.rejected [.lit "post_action ", .num item.2, .lit ": enable_now ", .repr unit,
      .lit " refers to a unit not installed by this manifest"])
  | .daemonReload | .disableNow _ | .stop _ => pure ()

/-- `validate_manifest`. -/
def validateManifest (manifest : Manifest) (allowlist : List AllowlistEntry) : InstallM Unit := do
  if manifest.version ≠ manifestVersion then
    raise (.rejected [.lit "unsupported manifest version: ", .num manifest.version])
  else do
    manifest.operations.zipIdx.foldlM (fun _ item => validateOperation allowlist item) ()
    manifest.postActions.zipIdx.foldlM
      (fun _ item => validatePostAction (installedBasenames manifest.operations) item) ()

end Fraisier.Install
