import Fraisier.Deploy.PutBack

/-!
# The other deployers

`ETLDeployer` and `ScheduledDeployer` run their steps through `_execute_with_lifecycle`, on the same
worktree as an `APIDeployer`, and neither goes back when a step fails. Of a run of any of the three
that ended in success, the worktree is at the commit that it pulled (`execute_moved`,
`executeWithLifecycle_moved`).
-/

namespace Fraisier.Deploy

open Fraisier.Lib

variable (env : Env)

/-! ## `_execute_with_lifecycle` -/

/-- What the steps of a lifecycle may touch. -/
abbrev lifecycleSteps : List Aspect := [.worktree, .previous]

/-- What a lifecycle may touch. -/
abbrev lifecycleAspects : List Aspect := .record :: lifecycleSteps

/-- The end of a lifecycle that failed. -/
def failLifecycle (dbPk : Option ℕ) (message : String) (error : Failure) :
    Piece [.record] DeploymentResult := do
  writeStatus env { state := "failed", errorMessage := some message }
  let result : DeploymentResult :=
    { success := false
      status := .failed
      errorMessage := some message
      error := some error }
  completeDbRecord env dbPk result
  quiet env  -- _run_hooks("on_failure"), where a step failed
  notify env result
  pure result

/-- The end of one that went well. -/
def succeedLifecycle (dbPk : Option ℕ) (oldVersion newVersion : Option String) :
    Piece [.record] DeploymentResult := do
  writeStatus env { state := "success", commitSha := newVersion }
  let result : DeploymentResult := { success := true, status := .success, oldVersion, newVersion }
  completeDbRecord env dbPk result
  quiet env  -- _run_hooks("after_deploy")
  notify env result
  pure result

/-- `_execute_with_lifecycle`: a hook of `before_deploy` that fails aborts the deploy, the others
are logged. -/
def executeWithLifecycle (steps : Piece lifecycleSteps (Option String × Option String)) :
    Piece lifecycleAspects DeploymentResult := do
  writeStatus env { state := "deploying" }
  let dbPk ← startDbRecord env
  let prepared ← attempt env env.fails  -- _run_hooks("before_deploy")
  if !prepared then do
    let message ← query env env.text
    failLifecycle env dbPk message
      { cls := .deploymentError, message, cause := some ("HookAbortError: " ++ message) }
  else
    exceptFailure (do
      let (oldVersion, newVersion) ← steps
      succeedLifecycle env dbPk oldVersion newVersion) fun f =>
        failLifecycle env dbPk f.text (wrapError f)

/-! ## The steps -/

/-- `sha[:8] if sha else None`. -/
def shortIfAny (sha : Option String) : Option String := (sha.filter (· ≠ "")).map short

/-- The pull and the install, where there is an `app_path`: the commit that was deployed and the one
that is now. -/
def pullAndInstall : Piece lifecycleSteps (Option String × Option String) := do
  if env.fraise.appPath.isSome then do
    let (oldSha, newSha) ← gitPull env
    installDependencies env
    pure (oldSha, some newSha)
  else pure (none, none)

/-- `ETLDeployer.execute`, its steps. -/
def etlSteps (scriptPath : Option String) :
    Piece lifecycleSteps (Option String × Option String) := do
  let (oldSha, newSha) ← pullAndInstall env
  whenever (scriptPath.isSome && env.fraise.appPath.isSome) (call env fun _ => ())
  pure (shortIfAny oldSha, shortIfAny newSha)

/-- `ETLDeployer.execute`. -/
def etlExecute (scriptPath : Option String) : Piece lifecycleAspects DeploymentResult :=
  executeWithLifecycle env (etlSteps env scriptPath)

/-- `_helper_refusal_is_actionable`. -/
def helperRefusalIsActionable (body : Piece [] Unit) : Piece [] Unit :=
  exceptFailure body fun f =>
    if f.cls.isInstance .calledProcessError && isIn "not allowed" f.stderr.toLower then
      raise
        { cls := .deploymentError
          message := "systemctl helper rejected the request: " ++ f.stderr.trimAscii.toString ++
            ". This host's helper predates the timer actions this deploy needs. Upgrade fraisier " ++
            "on the host, then run `sudo fraisier scaffold-install` to refresh the helper's " ++
            "allowlist and restart it."
          cause := some (Exn.raised f).asCause }
    else raise f

/-- `_get_timer_state`. -/
def getTimerState (systemdTimer : Option String) : Piece [] (Option String) :=
  match systemdTimer with
  | none => pure none
  | some _ => exceptFailure (do
      let state ← call env env.text
      pure (some ("timer:" ++ state))) fun f =>
        if f.cls.isInstance .calledProcessError then pure none else raise f

/-- `ScheduledDeployer.execute`, its steps. -/
def scheduledSteps (systemdTimer : Option String) :
    Piece lifecycleSteps (Option String × Option String) := do
  let (oldSha, newSha) ← pullAndInstall env
  call env fun _ => ()  -- _auto_install_scheduled_units_if_applicable
  whenever systemdTimer.isSome do
    call env fun _ => ()  -- _timer_manager
    helperRefusalIsActionable do
      call env fun _ => ()  -- daemon_reload
      call env fun _ => ()  -- enable
      call env fun _ => ()  -- start
  match shortIfAny newSha with
  | some version => pure (shortIfAny oldSha, some version)
  | none => do
    let state ← getTimerState env systemdTimer
    pure (shortIfAny oldSha, state)

/-- `ScheduledDeployer.execute`. -/
def scheduledExecute (systemdTimer : Option String) : Piece lifecycleAspects DeploymentResult :=
  executeWithLifecycle env (scheduledSteps env systemdTimer)

/-- `DockerComposeDeployer.execute`, of the tag that is configured. -/
def composeExecute (imageTag : Option String) : Piece [.record] DeploymentResult := do
  let oldVersion ← call env env.sha  -- get_current_version
  writeStatus env { state := "deploying" }
  exceptFailure (do
    call env fun _ => ()  -- docker compose pull
    call env fun _ => ()  -- docker compose up -d
    let current ← call env env.sha
    let newVersion := (current.filter (· ≠ "")).orElse fun _ => imageTag
    writeStatus env { state := "success", commitSha := newVersion }
    pure { success := true, status := .success, oldVersion, newVersion }) fun f => do
      writeStatus env { state := "failed", errorMessage := some f.text }
      pure { success := false, status := .failed, oldVersion, errorMessage := some f.text }

variable {env}

/-! ## Where a successful run leaves the worktree -/

/-- What was last done to the worktree. -/
def Watch.moved : Watch Unit (Option Deed) where
  attrs _ := ()
  init := none
  step last d := if d.aspect = .worktree then some d else last
  reads := [.worktree]
  attrs_eq _ _ _ := rfl
  step_eq m d hd := if_neg (by simpa using hd)

/-- The pull leaves the worktree at the new commit; there is none without an `app_path`. -/
theorem gitPull_moved : Spec Watch.moved (fun _ _ => True) (gitPull env)
    (fun r _ m => env.fraise.appPath.isSome = true ∧ m = some (.pulled r.2)) fun _ _ _ => True := by
  -- The checkout is the last call that moves the worktree.
  have hfetch : ∀ worktree, Spec Watch.moved (fun _ _ => True) (fetchAndCheckout env worktree)
      (fun r _ m => m = some (.pulled r.2)) fun _ _ _ => True := by
    intro worktree
    refine .after fun oldSha => .after fun _ => .after fun newSha => ?_
    refine .bind (R := fun _ _ m => m = some (.pulled newSha))
      (.call (fun _ _ _ _ => rfl) fun _ _ _ _ _ _ => ⟨trivial, trivial⟩) fun _ => ?_
    refine .bind (.post .ask (fun _ _ _ => id) fun _ _ _ _ => trivial) fun _ => ?_
    exact .frame_bind (by simp) (fun _ _ _ _ => trivial) fun _ => .pure fun _ _ h => h
  refine .after fun _ => ?_
  cases env.fraise.appPath with
  | none => exact .raise fun _ _ _ => trivial
  | some worktree =>
    refine .lift_bind (hfetch worktree) fun r => ?_
    exact .frame_bind (by decide) (fun _ _ _ _ => trivial) fun _ => .pure fun _ _ h => ⟨rfl, h⟩

/-- Where there is an `app_path` the worktree is at the commit that was pulled; where there is none
it is left alone. -/
def Pulled (env : Env) (move : Option Deed) : Prop :=
  if env.fraise.appPath.isSome then ∃ sha, move = some (.pulled sha) else move = none

/-- A pull ends at the commit that was pulled. -/
theorem pullAndInstall_moved : Spec Watch.moved (fun _ m => m = none) (pullAndInstall env)
    (fun _ _ => Pulled env) fun _ _ _ => True := by
  refine .ite (fun hpath => ?_) fun hpath => .pure fun _ m h => ?_
  · refine .lift_bind (gitPull_moved.pre fun _ _ _ => trivial) fun r => ?_
    refine .frame_bind (by simp) (fun _ _ _ _ => trivial) fun _ => .pure fun _ m h => ?_
    rw [Pulled, if_pos hpath]
    exact ⟨r.2, h.2⟩
  · rw [Pulled, if_neg hpath]
    exact h

/-- A lifecycle ends in success only after its steps. -/
theorem executeWithLifecycle_moved {Q : Option Deed → Prop}
    {steps : Piece lifecycleSteps (Option String × Option String)}
    (hsteps : Spec Watch.moved (fun _ m => m = none) steps (fun _ _ => Q) fun _ _ _ => True) :
    Spec Watch.moved (fun _ m => m = none) (executeWithLifecycle env steps)
      (fun r _ m => r.status = .success → Q m) fun _ _ _ => True := by
  have hfail : ∀ P dbPk message error, Spec Watch.moved P (failLifecycle env dbPk message error)
      (fun r _ m => r.status = .success → Q m) fun _ _ _ => True := by
    intro P dbPk message error
    refine .after fun _ => .after fun _ => .after fun _ => .after fun _ => .pure fun _ _ _ h => ?_
    cases h
  refine .frame_bind (by decide) (fun _ _ _ _ => trivial) fun _ => ?_
  refine .frame_bind (by decide) (fun _ _ _ _ => trivial) fun dbPk => ?_
  refine .bind (R := fun _ _ m => m = none) (.attempt (fun _ _ h => h) (fun _ _ _ h => ⟨h, h⟩)
    fun _ _ _ => ⟨trivial, trivial⟩) fun prepared => ?_
  refine .ite (fun _ => .after fun message => .lift (hfail _ _ _ _)) fun _ => ?_
  refine .exceptFailure_after ?_ fun f => .lift (hfail _ _ _ _)
  refine .lift_bind hsteps fun r => .lift ?_
  -- the bookkeeping of a success leaves the worktree alone
  exact (Spec.frame (by decide)).post (fun _ _ _ h _ => h) fun _ _ _ _ => trivial

/-- The steps of an ETL job end at the commit that was pulled. -/
theorem etlSteps_moved (scriptPath : Option String) :
    Spec Watch.moved (fun _ m => m = none) (etlSteps env scriptPath) (fun _ _ => Pulled env)
      fun _ _ _ => True := by
  refine .bind pullAndInstall_moved fun r => ?_
  refine .bind (R := fun _ _ => Pulled env) (.whenever (fun _ => ?_) fun _ _ _ h => h) fun _ =>
    .pure fun _ _ h => h
  exact Spec.ask.post (fun _ _ _ => id) fun _ _ _ _ => trivial

/-- The steps of a scheduled job end at the commit that was pulled. -/
theorem scheduledSteps_moved (systemdTimer : Option String) :
    Spec Watch.moved (fun _ m => m = none) (scheduledSteps env systemdTimer)
      (fun _ _ => Pulled env) fun _ _ _ => True := by
  refine .bind pullAndInstall_moved fun r => ?_
  refine .ask_bind (fun _ _ _ _ => trivial) fun _ => ?_
  refine .bind (R := fun _ _ => Pulled env) (.whenever (fun _ => ?_) fun _ _ _ h => h) fun _ => ?_
  · refine .ask_bind (fun _ _ _ _ => trivial) fun _ => ?_
    exact .lift ((Spec.frame (by simp)).post (fun _ _ _ => id) fun _ _ _ _ => trivial)
  · split
    · exact .pure fun _ _ h => h
    · exact .frame_bind (by simp) (fun _ _ _ _ => trivial) fun _ => .pure fun _ _ h => h

/-- A compose fraise has no worktree. -/
theorem composeExecute_moved (imageTag : Option String) :
    Spec Watch.moved (fun _ m => m = none) (composeExecute env imageTag) (fun _ _ m => m = none)
      fun _ _ _ => True :=
  (Spec.frame (by decide)).post (fun _ _ _ => id) fun _ _ _ _ => trivial

/-- A piece that begins a run, and where it leaves the worktree. -/
theorem moved_of_start {β : Type} {K : List Aspect} {p : Piece K β} {Q : β → Option Deed → Prop}
    (h : Spec Watch.moved (fun _ m => m = none) p (fun b _ => Q b) fun _ _ _ => True) {b : β}
    (hok : (p.run env.start).1 = .ok b) : Q b (lastMove (p.run env.start).2.deeds) := by
  have hends := h env.start rfl
  unfold Program.Ends at hends
  rcases hrun : p.run env.start with ⟨e | c, t⟩
  · rw [hrun] at hok
    cases hok
  · rw [hrun] at hends hok
    obtain rfl : c = b := Except.ok.inj hok
    exact hends

/-! ### `APIDeployer` -/

/-- The worktree is at the commit that was pulled. -/
def Deployed (env : Env) (move : Option Deed) : Prop :=
  env.fraise.appPath.isSome = true ∧ ∃ sha, move = some (.pulled sha)

/-- After the pull, no step up to the restart moves the worktree. -/
theorem advance_moved : Spec Watch.moved (fun _ _ => True) (advance env)
    (fun _ _ => Deployed env) fun _ _ _ => True := by
  refine .after fun _ => .after fun _ => .after fun _ => .lift_bind gitPull_moved fun r => ?_
  refine .frame_bind (by decide) (fun _ _ _ _ => trivial) fun _ => ?_  -- old_version
  refine .frame_bind (by decide) (fun _ _ _ _ => trivial) fun _ => ?_  -- the sync
  refine .frame_bind (by decide) (fun _ _ _ _ => trivial) fun _ => ?_
  refine .frame_bind (by decide) (fun _ _ _ _ => trivial) fun _ => ?_  -- the install
  refine .frame_bind (by decide) (fun _ _ _ _ => trivial) fun _ => ?_
  refine .frame_bind (by decide) (fun _ _ _ _ => trivial) fun _ => ?_
  refine .frame_bind (by decide) (fun _ _ _ _ => trivial) fun _ => ?_  -- the migrations
  refine .frame_bind (by decide) (fun _ _ _ _ => trivial) fun _ => ?_  -- the restart
  exact .pure fun _ _ h => ⟨h.1, r.2, h.2⟩

/-- A way back never ends in success. -/
theorem statusAfter_ne_success (r : DeploymentResult) : statusAfter r ≠ .success := by
  unfold statusAfter
  split <;> decide

/-- A failure is never classified as a success. -/
theorem classifyFailure_ne_success (o : RestoreOutcome) (text : String) :
    (classifyFailure o text).1 ≠ .success := by
  unfold classifyFailure
  split
  · split <;> simp
  · split <;> simp

/-- The account of a successful deploy. -/
def Deployed.account (env : Env) : Account env Watch.moved where
  start _ _ := True
  advanced _ := Deployed env
  left _ _ _ := True
  expired _ _ := True
  rolled _ _ _ := True
  restored _ _ _ := True
  ended r _ m := r.status = .success → Deployed env m
  blind := by decide
  start_init := trivial
  start_left _ _ _ _ := trivial
  advance_spec := advance_moved
  advanced_left _ _ _ _ := trivial
  rollback_spec := .any
  rollback_expired := .any
  build_spec r old := (buildRollbackResult_spec (P := fun _ _ => True) (by decide) r old).post
    (fun _ _ _ h hs => absurd (h.1.symm.trans hs) (statusAfter_ne_success r)) fun _ _ _ _ => trivial
  buildTimeout_spec r old message :=
    (buildTimeoutRollbackResult_spec (P := fun _ _ => True) (by decide) r old message).post
      (fun _ _ _ h hs => absurd (h.1.symm.trans hs) (statusAfter_ne_success r))
      fun _ _ _ _ => trivial
  ended_left _ _ _ _ := trivial
  halted r _ _ hr _ _ hs := by rw [hr] at hs; cases hs
  succeeded _ _ _ _ h _ := h
  unreverted r _ _ _ hr _ hs := by rw [hr] at hs; cases hs
  restore_spec f := ((Spec.any (p := restorePreviousState env f.keepServiceStopped)).calm).mono
    (fun _ _ _ => trivial) (fun _ _ _ _ => trivial) fun _ _ _ _ => trivial
  classified o text r _ _ hr _ hs := absurd (hr.symm.trans hs) (classifyFailure_ne_success o text)

/-- A deploy that ended in success leaves the worktree at the commit that it pulled. -/
theorem execute_moved {r : DeploymentResult} (hr : env.outcome.1 = .ok r)
    (hs : r.status = .success) : Deployed env (lastMove env.final.deeds) := by
  obtain ⟨r', hr', hended⟩ := (Deployed.account env).ends fun _ _ _ _ => trivial
  rw [hr'] at hr
  obtain rfl := Except.ok.inj hr
  exact hended hs

end Fraisier.Deploy
