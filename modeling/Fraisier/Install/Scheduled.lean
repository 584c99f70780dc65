import Fraisier.Install.Helper

/-!
# Installing scheduled units

`scheduled_install.py`: the two ways in which unit diffs are applied. `apply_unit_diffs` copies the
units itself; `apply_unit_diffs_via_helper` makes a manifest of them, sends it to the helper, and makes
a report of what that replies. A `Path` is known by its text. The exchange with the helper is one call:
the socket carries the manifest as it is (`parse_serialize`), and the answer holds the helper's calls.
-/

namespace Fraisier.Install

open Fraisier.Lib Interaction Str Fraisier.Unit

/-! ## Units -/

/-- `ScheduledUnitInstall`. -/
structure ScheduledUnitInstall where
  fraiseName : Str
  environment : Str
  jobName : Str
  unitName : Str
  isTimer : Bool
  sourcePath : Str
  destPath : Str
  appPath : Str
  deriving Repr

/-- `UnitState`. -/
inductive UnitState
  | absent | identical | drifted | missingSource
  deriving DecidableEq, Repr

/-- `UnitDiff`, less its summary. -/
structure UnitDiff where
  install : ScheduledUnitInstall
  state : UnitState
  deriving Repr

/-- `ApplyReport`. -/
structure ApplyReport where
  written : List ScheduledUnitInstall
  skippedIdentical : List ScheduledUnitInstall
  enabledTimers : List ScheduledUnitInstall
  reloaded : Bool
  rejectedReason : Option Message := none
  busy : Bool := false
  timedOut : Bool := false
  deriving Repr

/-- `SYSTEMD_DEST_DIR`. -/
def systemdDestDir : PurePath := .of "/etc/systemd/system".toList

/-- `APP_PATH_UNITS_SUBDIR`. -/
def appPathUnitsSubdir : Str := "scripts/systemd".toList

/-! ## Calls -/

/-- How the exchange with the helper ends. -/
inductive Exchange
  /-- The helper made the calls, and replied. -/
  | replied (calls : History InstallCall.Answer) (response : Response)
  /-- There was no connection, or no reply. -/
  | raised

/-- What applying unit diffs calls. -/
inductive ApplyCall
  /-- `Path.resolve()`. -/
  | resolve (path : PurePath)
  /-- `Path.resolve(strict=True)`. -/
  | resolveStrict (path : PurePath)
  /-- `Path.exists`. -/
  | pathExists (path : PurePath)
  /-- `shutil.copy2`. -/
  | copy (source dest : PurePath)
  /-- `Path.chmod`. -/
  | chmod (path : PurePath)
  /-- `runner.run` of `systemctl`. -/
  | systemctl (args : List Str)
  /-- The manifest is sent to the helper. -/
  | exchange (manifest : Manifest)

/-- How a copy ends. One that raises may have been cut short. -/
inductive Copied
  /-- The destination holds these bytes of the source. -/
  | copied (data : ByteArray)
  | raised

/-- What a call is answered with: `none` where it raises. -/
@[reducible] def ApplyCall.Answer : ApplyCall → Type
  | .resolve _ => Option PurePath
  | .resolveStrict _ => Resolved
  | .pathExists _ => Bool
  | .copy _ _ => Copied
  | .chmod _ => Option Unit
  | .systemctl _ => Ran
  | .exchange _ => Exchange

/-- How applying fails. -/
inductive ApplyError
  /-- `ScheduledInstallError`. -/
  | refused (message : Message)
  | raised
  deriving Repr

/-- A program over these calls. -/
abbrev ApplyM := Interaction ApplyCall.Answer ApplyError

/-- `Path.resolve()`. -/
def resolvePath (path : PurePath) : ApplyM PurePath := do
  match ← ask (ApplyCall.resolve path) with
  | some p => pure p
  | none => raise .raised

/-! ## What both refuse -/

/-- `_validate_unit_path_safety`. -/
def validateUnitPathSafety (destDir : PurePath) (install : ScheduledUnitInstall) : ApplyM Unit := do
  if hasSub ['/'] install.unitName || hasSub ['.', '.'] install.unitName then
    raise (.refused [.lit "unsafe unit name ", .repr install.unitName, .lit ": contains '/' or '..'"])
  else do
    let expectedDestParent ← resolvePath destDir
    let actualDestParent ← resolvePath (PurePath.of install.destPath).parent
    if actualDestParent ≠ expectedDestParent then
      raise (.refused [.lit "dest path ", .val install.destPath, .lit " escapes systemd dir ",
        .val destDir.text])
    else do
      let sourceRoot ← resolvePath ((PurePath.of install.appPath).join appPathUnitsSubdir)
      -- without a source there is no link to resolve
      if ← ask (ApplyCall.pathExists (.of install.sourcePath)) then
        let actualSource ← resolvePath (.of install.sourcePath)
        if !actualSource.isRelativeTo sourceRoot then
          raise (.refused [.lit "source path ", .val install.sourcePath, .lit " (resolves to ",
            .val actualSource.text, .lit ") escapes ", .val sourceRoot.text])
        else pure ()
      else pure ()

/-- The names of the units in a state, with commas. -/
def namesIn (state : UnitState) (diffs : List UnitDiff) : Message :=
  List.intercalate [.lit ", "]
    ((diffs.filter (·.state = state)).map fun diff => [.val diff.install.unitName])

/-- The diffs that are refused before anything is written, with a text for units without a source and
one for those that have drifted. -/
def checkDiffs (destDir : PurePath) (missingText driftedText : Message → Message) (force : Bool)
    (diffs : List UnitDiff) : ApplyM Unit := do
  diffs.foldlM (fun _ diff => validateUnitPathSafety destDir diff.install) ()
  if diffs.any (·.state = .missingSource) then
    raise (.refused (missingText (namesIn .missingSource diffs)))
  else if !force && diffs.any (·.state = .drifted) then
    raise (.refused (driftedText (namesIn .drifted diffs)))
  else pure ()

/-- The unit is written. -/
def UnitDiff.writes (force : Bool) (diff : UnitDiff) : Bool :=
  diff.state = .absent || (diff.state = .drifted && force)

/-! ## Without the helper -/

/-- `runner.run`, which raises unless the command exits with zero. -/
def runSystemctl (args : List Str) : ApplyM Unit := do
  match ← ask (ApplyCall.systemctl args) with
  | .exited 0 _ => pure ()
  | _ => raise .raised

/-- One diff in `apply_unit_diffs`: the units that were written, and those that are identical. -/
def copyUnit (force : Bool) (acc : List ScheduledUnitInstall × List ScheduledUnitInstall)
    (diff : UnitDiff) : ApplyM (List ScheduledUnitInstall × List ScheduledUnitInstall) :=
  if diff.writes force then do
    match ← ask (ApplyCall.copy (.of diff.install.sourcePath) (.of diff.install.destPath)) with
    | .raised => raise .raised
    | .copied _ =>
      match ← ask (ApplyCall.chmod (.of diff.install.destPath)) with
      | none => raise .raised
      | some () => pure (acc.1 ++ [diff.install], acc.2)
  else if diff.state = .identical then pure (acc.1, acc.2 ++ [diff.install])
  else pure acc

/-- One written unit in `apply_unit_diffs`: the timers that were enabled. -/
def enableUnit (enabled : List ScheduledUnitInstall) (install : ScheduledUnitInstall) :
    ApplyM (List ScheduledUnitInstall) :=
  if install.isTimer then do
    runSystemctl ["enable".toList, "--now".toList, install.unitName]
    pure (enabled ++ [install])
  else pure enabled

/-- `apply_unit_diffs`. -/
def applyUnitDiffs (destDir : PurePath) (force : Bool) (diffs : List UnitDiff) :
    ApplyM ApplyReport := do
  checkDiffs destDir
    (fun names => .lit "source not found for: " :: names ++
      [.lit ". Did the deploy land in app_path/scripts/systemd/?"])
    (fun names => .lit "drifted units (pass --force to overwrite): " :: names ++
      [.lit ". These dest files differ from source; an operator likely hand-edited them."])
    force diffs
  let (written, skippedIdentical) ← diffs.foldlM (copyUnit force) ([], [])
  if written ≠ [] then runSystemctl ["daemon-reload".toList] else pure ()
  let enabledTimers ← written.foldlM enableUnit []
  pure { written, skippedIdentical, enabledTimers, reloaded := written ≠ [] }

/-! ## By the helper -/

/-- `marker_path_for`, which raises of a path without a name. -/
def markerPathFor (unitDest : PurePath) : ApplyM PurePath :=
  if unitDest.name = [] then raise .raised
  else pure { unitDest with parts := unitDest.parts.dropLast ++ [unitDest.name ++ markerSuffix] }

/-- The marker of a unit, if the path of the configuration is known. -/
def markerFor (configPath : Option PurePath) (install : ScheduledUnitInstall) : Option MarkerMeta :=
  configPath.map fun path =>
    { fraisesYamlPath := path.text
      fraiseName := install.fraiseName
      environment := install.environment
      jobName := install.jobName }

/-- The operations and the actions that enable timers, in `_build_helper_manifest`. -/
structure Draft where
  operations : List Operation := []
  enableActions : List PostAction := []
  installFileCount : ℕ := 0

/-- One diff in `_build_helper_manifest`. -/
def draftDiff (force : Bool) (configPath : Option PurePath) (draft : Draft) (diff : UnitDiff) :
    ApplyM Draft :=
  if diff.state = .missingSource then pure draft
  else if diff.state = .drifted && !force then pure draft
  else
    let marker := markerFor configPath diff.install
    if diff.state = .identical then
      match marker with
      | none => pure draft
      | some marker => do
        let path ← markerPathFor (.of diff.install.destPath)
        if ← ask (ApplyCall.pathExists path) then pure draft
        else pure { draft with
          operations := draft.operations ++
            [.writeMarker { destPath := diff.install.destPath, marker }] }
    else pure {
      operations := draft.operations ++ [.installFile
        { sourcePath := diff.install.sourcePath, destPath := diff.install.destPath,
          mode := "0644".toList, marker }]
      enableActions := draft.enableActions ++
        if diff.install.isTimer then [.enableNow diff.install.unitName] else []
      installFileCount := draft.installFileCount + 1 }

/-- `_build_helper_manifest`. -/
def buildHelperManifest (force : Bool) (configPath : Option PurePath) (diffs : List UnitDiff) :
    ApplyM Manifest := do
  let draft ← diffs.foldlM (draftDiff force configPath) {}
  pure { version := 1
         operations := draft.operations
         postActions := (if 0 < draft.installFileCount then [.daemonReload] else []) ++
          draft.enableActions }

/-- `kind` of a post-action's result. -/
def PostResult.kind : PostResult → Str
  | .rejected kind _ => kind.toList
  | .timedOut kind => kind
  | .ran kind _ _ => kind

/-- The units that are identical. -/
def identicals (diffs : List UnitDiff) : List ScheduledUnitInstall :=
  (diffs.filter (·.state = .identical)).map UnitDiff.install

/-- `_build_apply_report`, of the statuses that the helper replies with. -/
def buildApplyReport (response : Response) (diffs : List UnitDiff) : ApplyReport :=
  let skippedIdentical := identicals diffs
  match response with
  | .ok installed _ postActions =>
    let written := (diffs.filter (·.install.unitName ∈ installed)).map UnitDiff.install
    { written, skippedIdentical
      enabledTimers := written.filter (·.isTimer)
      reloaded := postActions.any (·.kind = "daemon-reload".toList) }
  | .rejected reason =>
    { written := [], skippedIdentical, enabledTimers := [], reloaded := false,
      rejectedReason := some reason }
  | .busy =>
    { written := [], skippedIdentical, enabledTimers := [], reloaded := false, busy := true,
      rejectedReason := some [.lit "concurrent manifest in flight"] }
  | .timedOut reason =>
    { written := [], skippedIdentical, enabledTimers := [], reloaded := false, timedOut := true,
      rejectedReason := some reason }

/-- Whether markers are written, and for which configuration. -/
inductive Markers
  | off
  /-- `write_markers=True`. -/
  | on (configPath : Option PurePath)

/-- The configuration's path, resolved. -/
def resolveConfig : Markers → ApplyM (Option PurePath)
  | .off => pure none
  | .on none => raise (.refused [.lit "write_markers=True requires config_path"])
  | .on (some path) => do
    match ← ask (ApplyCall.resolveStrict path) with
    | .path p => pure (some p)
    | .notFound | .raised => raise .raised

/-- `apply_unit_diffs_via_helper`. -/
def applyUnitDiffsViaHelper (force : Bool) (markers : Markers) (diffs : List UnitDiff) :
    ApplyM ApplyReport := do
  checkDiffs systemdDestDir
    (fun names => .lit "source not found for: " :: names)
    (fun names => .lit "drifted units (pass force=True to overwrite): " :: names ++
      [.lit ". Helper would have rejected the manifest at validate."])
    force diffs
  let configPath ← resolveConfig markers
  let manifest ← buildHelperManifest force configPath diffs
  -- with nothing to do, no socket is opened
  if manifest.operations = [] then
    pure { written := [], skippedIdentical := identicals diffs, enabledTimers := [],
           reloaded := false }
  else do
    match ← ask (ApplyCall.exchange manifest) with
    | .raised => raise .raised
    | .replied _ response => pure (buildApplyReport response diffs)

end Fraisier.Install
