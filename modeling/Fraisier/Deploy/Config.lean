import Fraisier.Deploy.Record

/-!
# The server-side configuration

`deployers/base.py`: a deploy copies the checkout's `fraises.yaml` onto the server
(`_sync_fraises_yaml`), keeps the file it replaces beside it as `fraises.yaml.prev`
(`_keep_replaced_config`), and at the end either moves the kept copy back
(`_restore_synced_config`) or drops it (`_discard_replaced_config`). `_sync_config_if_needed` runs
the sync, regenerates and installs the scaffold when the configuration changed, and re-reads the
deploy's own settings from the file it installed.
-/

namespace Fraisier.Deploy

/-- A `DeploymentError` with the class's own recovery hint. -/
def deploymentError (message : String) : Failure := { cls := .deploymentError, message }

/-- `f"{type(e).__name__}: {e!s}"`, the form `FrameworkError` gives its cause. -/
def Exn.asCause (e : Exn) : String := e.name ++ ": " ++ e.text

variable (env : Env)

/-- `self._config_replaced = replaced`. -/
def setConfigReplaced (replaced : Option ConfigReplacement) : Piece [.config] Unit :=
  assign env (.set .config (fun x => { x with configReplaced := replaced })
    [.configNoted replaced.isSome])

/-- `self._bind_deploy_settings(fresh)`. -/
def setSettings (fresh : Settings) : Piece [.settings] Unit :=
  assign env (.set .settings fun x => { x with settings := fresh })

/-- `_deployed_config`: whether the project's configuration could be loaded. -/
def deployedConfig : Piece [] Bool := do
  let present ← call env env.flag
  if present then
    exceptException .deployedConfig (do call env fun _ => (); pure true) fun _ => pure false
  else pure false

/-! ## Keeping, restoring and discarding the replaced file -/

/-- `_keep_replaced_config`: only the first replacement of a deploy is kept, and a destination that
does not exist yet is not one. -/
def keepReplacedConfig (destPath : String) : Piece [.config] Unit := do
  let me ← self
  if me.configReplaced.isSome then pure () else do
    let present ← call env env.flag
    if present then do
      let previous := destPath ++ ".prev"
      call env (fun _ => ()) fun _ => Effect.deed .configKept
      setConfigReplaced env (some { live := destPath, previous })
    else pure ()

/-- `_restore_synced_config`: whether the kept copy was moved back. -/
def restoreSyncedConfig : Piece [.config] Bool := do
  let me ← self
  match me.configReplaced with
  | none => pure false
  | some _ => do
    setConfigReplaced env none
    exceptException .restoreSyncedConfig
      (do call env (fun _ => ()) fun _ => Effect.deed .configRestored; pure true)
      fun _ => pure false

/-- `_discard_replaced_config`: an `OSError` of the removal is logged. -/
def discardReplacedConfig : Piece [.config] Unit := do
  let me ← self
  match me.configReplaced with
  | none => pure ()
  | some _ => do
    setConfigReplaced env none
    let _ ← attempt env env.fails (Effect.deed .configDiscarded)
    pure ()

/-! ## The sync -/

/-- `configured_template_dir`: whether the file names a template directory. -/
def configuredTemplateDir : Piece [] Bool :=
  exceptException .templateDir (call env env.flag) fun _ => pure false

/-- `_sync_template_dir`: replaces the templates beside the configuration, best-effort. An
absolute path, and a directory the checkout lacks, are left alone. -/
def syncTemplateDir : Piece [] Unit := do
  let templateDir ← configuredTemplateDir env
  if templateDir then do
    let isDir ← call env env.flag
    whenever isDir <| exceptException .syncTemplateDir
      (do
        call env fun _ => ()  -- mkdir -p
        call env fun _ => ()  -- rm -rf
        call env fun _ => ())  -- cp -a
      fun _ => pure ()
  else pure ()

/-- `_sync_fraises_yaml`: copies to a temporary name beside the live file, keeps the live file,
and renames onto it. -/
def syncFraisesYaml (sourcePath destPath : String) : Piece [.config] Unit := do
  let present ← call env env.flag
  if present then do
    call env fun _ => ()  -- mkdir -p
    call env fun _ => ()  -- cp to the temporary name
    keepReplacedConfig env destPath
    call env (fun _ => ()) fun _ => Effect.deed .configInstalled
    syncTemplateDir env
  else
    raise { cls := .fileNotFoundError, message := "fraises.yaml not found at " ++ sourcePath ++
      ". Ensure it's committed to git and checked out." }

/-- `_validate_before_sync`: a configuration that cannot be loaded is not installed. -/
def validateBeforeSync (appConfig : String) : Piece [] Unit :=
  exceptFailure
    (do
      call env fun _ => ()  -- FraisierConfig(app_config)
      call env fun _ => ())  -- get_fraise_environment
    fun f =>
      if f.cls.isInstance .frameworkError then
        raise
          { cls := .deploymentError
            message := appConfig ++ " is not a usable configuration, so it was not installed to " ++
              env.fraise.optConfigPath ++ ": " ++ f.text ++
              "\n  Remediation: fix it in the repository and push again. The server-side " ++
              "configuration is untouched, so the previous deploy's routes keep working."
            recoveryHint := some ""
            cause := some (Exn.raised f).asCause }
      else raise f

/-- `_detect_config_changes`: a change is assumed when none can be detected. -/
def detectConfigChanges : Piece [] Bool :=
  exceptException .detectConfigChanges (call env env.flag) fun _ => pure true

/-- `_regenerate_scaffold`: the child's failure is raised with its output. -/
def regenerateScaffold : Piece [] Unit := do
  call env fun _ => ()  -- _scaffold_state_dir
  call env fun _ => ()  -- _get_fraisier_executable
  let succeeded ← call env env.flag
  if succeeded then pure () else do
    let output ← call env env.text
    raise (deploymentError ("Failed to regenerate scaffold files: " ++ output))

/-- `OPERATOR_STEP`. -/
def operatorStep : String :=
  "run `sudo fraisier scaffold-install` once as an operator: it installs the " ++
    "root-owned helper code and writes the root policy (#433)"

/-- `_try_scaffold_install_via_socket`: whether the helper installed everything. A helper that
cannot be asked is an error, and the next deploy must ask again. -/
def tryScaffoldInstallViaSocket : Piece [] Bool := do
  exceptException .projectName (call env fun _ => ()) fun e => do
    call env fun _ => ()  -- forget_hash
    raise
      { cls := .deploymentError
        message := "Cannot locate the scaffold-install helper: reading " ++
          env.fraise.optConfigPath ++ " failed (" ++ e.text ++ "). To install the scaffold, " ++
          operatorStep }
  let socketPath ← call env env.text
  let socketPresent ← call env env.flag
  exceptFailure (call env env.flag) fun f =>
    if f.cls.isInstance .timeoutError then
      raise (deploymentError ("The scaffold-install helper at " ++ socketPath ++ " did not answer" ++
        " within its time. It accepted the connection and may still be running.\n" ++
        "  Look at the helper's own journal: " ++
        "journalctl -u 'fraisier-*-scaffold-install-helper.service'"))
    else if f.cls.isInstance .osError || f.cls.isInstance .jsonDecodeError ||
        f.cls.isInstance .unicodeDecodeError then do
      let cause :=
        if socketPresent then
          "The scaffold-install helper socket " ++ socketPath ++ " is present but did not answer (" ++
            f.text ++ "); the helper likely failed to start. Look at its journal: journalctl -u " ++
            "'fraisier-*-scaffold-install-helper.service'. To repair it, "
        else
          "The scaffold-install helper socket " ++ socketPath ++ " does not exist, so this host " ++
            "has no helper to install the scaffold. To install it, "
      call env fun _ => ()  -- forget_hash
      raise (deploymentError (cause ++ operatorStep))
    else raise f

/-- `_install_scaffold`: a refused install fails the deploy, and the next one asks again. Files
pending an operator are named in the remedy. -/
def installScaffold : Piece [] Unit := do
  let installed ← tryScaffoldInstallViaSocket env
  call env fun _ => ()  -- _record_deferred_restarts
  if installed then pure () else do
    call env fun _ => ()  -- forget_hash
    let output ← call env env.text
    let pending ← call env env.flag
    let remedy :=
      if pending then
        "These files are installed by an operator: run `sudo fraisier " ++
          "scaffold-install` on this host (it shows the diff and asks), then deploy again."
      else ""
    raise
      { cls := .deploymentError
        message := "Failed to install scaffold files via socket helper: " ++ output ++
          (if pending then "\n  " ++ remedy else "")
        recoveryHint := if pending then some "" else none }

/-- `_refresh_config_from_synced_file`: re-reads the deploy's settings, and keeps those it holds
when it finds none. -/
def refreshConfigFromSyncedFile : Piece [.settings] Unit := do
  let fresh ← exceptException .refreshConfig
    (do
      let present ← call env env.flag
      if present then call env env.fresh else pure none)
    fun _ => pure none
  match fresh with
  | none => call env fun _ => ()  -- opt_config.exists(), for the warning
  | some settings => setSettings env settings

/-- `_sync_config_if_needed`. -/
def syncConfigIfNeeded : Piece [.config, .settings] Unit := do
  match env.fraise.appPath with
  | none => pure ()
  | some appPath => do
    let appConfig := appPath ++ "/fraises.yaml"
    let present ← call env env.flag
    if present then do
      validateBeforeSync env appConfig
      syncFraisesYaml env appConfig env.fraise.optConfigPath
      let changed ← detectConfigChanges env
      if changed then do
        regenerateScaffold env
        call env fun _ => ()  -- watcher.save_hash()
        call env fun _ => ()  -- watcher.save_rendered_by()
        installScaffold env
        refreshConfigFromSyncedFile env
      else do
        let rendered ← call env env.flag
        if rendered then refreshConfigFromSyncedFile env else do
          let regenerated ← exceptException .reRender (do regenerateScaffold env; pure true)
            fun _ => pure false
          whenever regenerated (call env fun _ => ())  -- watcher.save_rendered_by()
          refreshConfigFromSyncedFile env
    else pure ()

end Fraisier.Deploy
