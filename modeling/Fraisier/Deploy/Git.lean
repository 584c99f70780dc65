import Fraisier.Deploy.Config

/-!
# The worktree

`git/operations.py` and `GitDeployMixin`: reading the deployed commit (`get_worktree_sha`), the
deploy's own checkout with its verification and one self-heal (`fetch_and_checkout`), the way back
(`_git_rollback`), and `version.json`, which describes the tree (`_snapshot_version_json`,
`_generate_version_json`, `_restore_version_json`). The install step, which runs in the tree, is
here too.
-/

namespace Fraisier.Deploy

variable (env : Env)

/-- `self._previous_sha = sha`. -/
def setPreviousSha (sha : Option String) : Piece [.previous] Unit :=
  assign env (.set .previous fun x => { x with previousSha := sha })

/-- `old_version = …`, in `_execute`. -/
def setOldVersion (oldVersion : Option String) : Piece [.previous] Unit :=
  assign env (.set .previous fun x => { x with oldVersion })

/-! ## Reading and moving the worktree -/

/-- `get_worktree_sha`: the bare repository's `HEAD`, else the worktree's own; a read that fails
is no commit. -/
def getWorktreeSha : Piece [] (Option String) := do
  let sha ← query env fun n => (env.sha n).filter (· ≠ "")
  match sha with
  | some sha => pure (some sha)
  | none => query env fun n => (env.sha n).filter (· ≠ "")

/-- `GitDeployMixin.get_current_version`. -/
def getCurrentVersion : Piece [] (Option String) := do
  match env.fraise.appPath with
  | none => pure none
  | some _ => do
    let sha ← getWorktreeSha env
    pure (sha.map short)

/-- `clone_bare_repo`. -/
def cloneBareRepo : Piece [] Unit := do
  let present ← call env env.flag
  whenever (!present) (call env fun _ => ())

/-- `verify_worktree_at_sha`. -/
def verifyWorktreeAtSha (worktree sha : String) : Piece [] Unit := do
  let same ← call env env.flag
  if same then pure () else do
    let staleFiles ← call env env.count
    raise
      { cls := .deploymentError
        message := "Worktree at " ++ worktree ++ " does not match deployed commit " ++ short sha ++
          " after checkout (" ++ toString staleFiles ++ " file(s) differ). The working tree is " ++
          "frozen or only partially updated; refusing to record a new version over stale code."
        recoveryHint := some ("Inspect the worktree on the target host with `git status`, then " ++
          "re-run the deploy. Recreate the worktree if its git state is corrupt.") }

/-- `_SELFHEAL_ESCALATE_WITHIN_DEPLOYS`. -/
def selfhealEscalateWithinDeploys : ℕ := 3

/-- `_should_escalate`: the worktree was healed within the last `within` deploys. -/
def shouldEscalate (deployNo : ℕ) (lastHealDeploy : Option ℕ) (within : ℕ) : Bool :=
  match lastHealDeploy with
  | none => false
  | some last => deployNo - last ≤ within

/-- `_verify_or_self_heal`: a mismatch is repopulated once, and refused when it recurs soon after a
heal. The state file is read and written best-effort. -/
def verifyOrSelfHeal (worktree newSha : String) : Piece [] Unit := do
  let deploys ← query env env.count
  let healed ← query env env.flag
  let lastHeal ← query env env.count
  let deployNo := deploys + 1
  let lastHealDeploy := if healed then some lastHeal else none
  exceptFailure (do verifyWorktreeAtSha env worktree newSha; quiet env) fun mismatch =>
    if !mismatch.cls.isInstance .deploymentError then raise mismatch
    else if shouldEscalate deployNo lastHealDeploy selfhealEscalateWithinDeploys then do
      quiet env  -- _write_selfheal_state
      raise
        { cls := .deploymentError
          message := "Worktree at " ++ worktree ++ " mismatched commit " ++ short newSha ++
            " again only " ++ toString (deployNo - lastHeal) ++ " deploy(s) after a self-heal. " ++
            "A forced repopulate recovered it once but the mismatch recurred — this points to a " ++
            "persistent environmental cause (read-only filesystem, bad permissions, a flapping " ++
            "mount), not a one-off bad checkout. Failing hard rather than silently self-healing " ++
            "every deploy."
          recoveryHint := some ("Investigate the worktree host: check filesystem mount options " ++
            "(read-only?), ownership/permissions on " ++ worktree ++ ", and disk health. " ++
            "Recreate the worktree once the underlying cause is fixed.") }
    else do
      call env fun _ => ()  -- git read-tree --reset -u
      call env fun _ => ()  -- git update-ref --no-deref HEAD
      verifyWorktreeAtSha env worktree newSha
      quiet env  -- _write_selfheal_state

/-- `fetch_and_checkout`: the commit that was deployed and the one that is now. -/
def fetchAndCheckout (worktree : String) : Piece [.worktree] (Option String × String) := do
  let oldSha ← getWorktreeSha env
  call env fun _ => ()  -- git fetch origin
  let newSha ← call env env.text  -- git rev-parse
  call env (fun _ => ()) fun _ => Effect.deed (.pulled newSha)
  call env fun _ => ()  -- git reset --soft
  verifyOrSelfHeal env worktree newSha
  pure (oldSha, newSha)

/-- `GitDeployMixin._git_pull`. -/
def gitPull : Piece [.worktree, .previous] (Option String × String) := do
  whenever env.fraise.cloneUrl.isSome (monadLift (cloneBareRepo env))
  match env.fraise.appPath with
  | none =>
    raise { cls := .assertionError, message := "app_path must be set before calling _git_pull" }
  | some appPath => do
    let (oldSha, newSha) ← fetchAndCheckout env appPath
    setPreviousSha env oldSha
    pure (oldSha, newSha)

/-- `GitDeployMixin._git_rollback`. -/
def gitRollback (target : String) : Piece [.worktree] Unit := do
  match env.fraise.appPath with
  | none =>
    raise { cls := .assertionError, message := "app_path must be set before calling _git_rollback" }
  | some _ => do
    call env (fun _ => ()) fun _ => Effect.deed (.checkout target)
    call env (fun _ => ()) (fun _ => .none) fun _ => Effect.deed (.reverted target)

/-! ## `version.json` -/

/-- The attributes that `_snapshot_version_json` fills. -/
def setVersionJson (existed : Bool) (snapshot : Option String) : Piece [.version] Unit :=
  assign env <| .set .version fun x =>
    { x with
      versionJsonSnapshotted := true
      versionJsonExisted := existed
      versionJsonSnapshot := snapshot }

/-- `_snapshot_version_json`: an `OSError` of the read is logged. -/
def snapshotVersionJson : Piece [.version] Unit := do
  setVersionJson env false none
  match env.fraise.appPath with
  | none => pure ()
  | some _ => do
    let present ← query env env.flag
    let readable ← attempt env env.fails
    let content ← query env env.text
    whenever (present && readable) (setVersionJson env true (some content))

/-- `_restore_version_json`: nothing unless this run took a snapshot; an `OSError` is logged. -/
def restoreVersionJson : Piece [] Unit := do
  let me ← self
  if me.versionJsonSnapshotted && env.fraise.appPath.isSome then do
    let _ ← attempt env env.fails (.none : Effect [])  -- write_bytes or unlink
    pure ()
  else pure ()

/-- `_generate_version_json`: a failure is logged. -/
def generateVersionJson : Piece [] Unit :=
  match env.fraise.appPath with
  | none => pure ()
  | some _ => exceptException .versionJson
      (do
        call env fun _ => ()  -- the migrations directory
        call env fun _ => ()  -- generate_version_json
        call env fun _ => ())  -- write_version
      fun _ => pure ()

/-! ## Installing dependencies -/

/-- `shlex.quote`. -/
def shlexQuote (s : String) : String :=
  if s = "" then "''"
  else if s.toList.all fun c => c.isAlphanum || "@%+=:,./-_".toList.contains c then s
  else "'" ++ s.replace "'" "'\"'\"'" ++ "'"

/-- `shlex.join`. -/
def shlexJoin (cmd : List String) : String := " ".intercalate (cmd.map shlexQuote)

/-- `sub in s`. -/
def isIn (sub s : String) : Bool := (s.splitOn sub).length > 1

/-- `_install_failure_advice`: what an operator can do about a known failure of the install
command, read off its error output. -/
def installFailureAdvice (stderr appPath : String) (viaSocket : Bool) : Option String :=
  if isIn "__pycache__" stderr && isIn "Permission denied" stderr then
    some ("Foreign-owned __pycache__ directories are blocking uv sync. Fix: sudo find " ++ appPath ++
      "/.venv -name __pycache__ ! -user \"$(stat -c %U " ++ appPath ++ "/.venv)\"" ++
      " -type d -exec rm -rf \x7b\x7d + then retry the deployment. The venv may be corrupted — run " ++
      "uv sync --frozen manually after cleanup. " ++
      "See: https://github.com/fraiseql/fraisier/issues/196")
  else if isIn ".cache" stderr && isIn "Permission denied" stderr then
    if viaSocket then
      some ("A tool (uv/pip/cargo) could not write its cache directory. The install user's cache " ++
        "path (e.g. ~/.cache) is not writable — check ownership and that the filesystem is not " ++
        "full or mounted read-only.")
    else
      some ("The install user's HOME may be unset or unwritable, so a tool (uv/pip/cargo) could " ++
        "not create its cache. Ensure the fallback uses `sudo -H` or run via the install-helper " ++
        "socket. See: https://github.com/fraiseql/fraisier/issues/276")
  else none

/-- The last line of an install failure, when there is advice. -/
def adviceLine : Option String → String
  | none => ""
  | some advice => "\n  Advice: " ++ advice

/-- `_install_via_socket`. -/
def installViaSocket (socketPath cwd : String) (command : List String) : Piece [] Unit := do
  exceptFailure (call env fun _ => ()) fun f =>
    if f.cls.isInstance .timeoutError then
      raise (deploymentError ("The install helper at " ++ socketPath ++ " did not answer in its " ++
        "time. The deploy is not retrying it: the helper accepted the connection, so it may " ++
        "still be running the install, and a second attempt would run it twice.\n" ++
        "  Look at the helper's own journal: journalctl -u 'fraisier-*-install-helper.service'"))
    else if f.cls.isInstance .osError then
      raise (deploymentError ("Failed to connect to install helper socket " ++ socketPath ++ ": " ++
        f.text))
    else raise f
  exceptFailure (call env fun _ => ()) fun f =>
    if f.cls.isInstance .jsonDecodeError || f.cls.isInstance .unicodeDecodeError then
      raise (deploymentError ("Invalid response from install helper: " ++ f.text))
    else raise f
  let ok ← call env env.flag
  if ok then pure () else do
    let error ← call env env.text
    let stderr ← call env env.text
    let returncode ← call env env.count
    raise (deploymentError ("Install command failed (exit code " ++ toString returncode ++ "): " ++
      shlexJoin command ++ "\n  Directory: " ++ cwd ++ "\n  Error: " ++ error ++
      "\n  To debug: cd " ++ cwd ++ " && " ++ shlexJoin command ++
      adviceLine (installFailureAdvice stderr cwd true)))

/-- `_install_dependencies`: through the helper's socket for another user, else by the runner. -/
def installDependencies : Piece [] Unit := do
  let me ← self
  match me.settings.installCommand, env.fraise.appPath with
  | some command, some appPath => do
    let asInstallUser := me.settings.installUser.isSome &&
      me.settings.installUser != env.fraise.deployUser
    let socket ← if asInstallUser then call env env.flag else pure false
    if socket then do
      let socketPath ← call env env.text
      installViaSocket env socketPath appPath command
    else do
      let cmd :=
        if asInstallUser then ["sudo", "-H", "-u", me.settings.installUser.getD ""] ++ command
        else command
      whenever asInstallUser do
        let loaded ← deployedConfig env
        whenever loaded (call env fun _ => ())  -- _verify_manifest_ownership
        call env fun _ => ()  -- shutil.which
      exceptFailure (call env fun _ => ()) fun f =>
        if f.cls.isInstance .calledProcessError then
          raise (deploymentError ("Install command failed (exit code " ++ toString f.returncode ++
            "): " ++ shlexJoin cmd ++ "\n  Directory: " ++ appPath ++ "\n  To debug: cd " ++ appPath ++
            " && " ++ shlexJoin cmd ++
            (if f.stderr.trimAscii.isEmpty then "" else "\n  stderr: " ++ f.stderr.trimAscii.toString) ++
            adviceLine (installFailureAdvice f.stderr appPath false)))
        else raise f
  | _, _ => pure ()

end Fraisier.Deploy
