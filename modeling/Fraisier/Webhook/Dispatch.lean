import Fraisier.Webhook.Providers

/-!
# Dispatching an event

`process_webhook_event` and `_dispatch_deployment`: which fraises a task is added for, on a host
with a configuration, the locks of running deploys, and the flag of a self-upgrade.
-/

namespace Fraisier.Webhook

open Fraisier.Lib Unicode Json

/-- An entry of `branch_mapping`. -/
structure MappingEntry where
  fraise : Text := []
  fraiseName : Text := []
  environment : Text := []

/-- What routes an event: `branch_mapping`, by the branch as a key, and the fraises and environments
that the configuration has. -/
structure Routing where
  branchMapping : Key → List MappingEntry
  getFraiseEnvironment : Text → Text → Bool

/-- `FraisierConfig.get_fraises_for_branch`. -/
def Routing.getFraisesForBranch (routing : Routing) (branch : Key) : List (Text × Text) :=
  (routing.branchMapping branch).filterMap fun mapping =>
    let fraise := if mapping.fraise ≠ [] then mapping.fraise else mapping.fraiseName
    if fraise = [] ∨ mapping.environment = [] then none
    else if routing.getFraiseEnvironment fraise mapping.environment then
      some (fraise, mapping.environment)
    else none

/-- The host that is deployed on. -/
structure WebhookHost where
  /-- `get_config`, none when there is no file. -/
  config : Option Routing
  /-- `is_draining`. -/
  draining : Bool
  /-- `is_deployment_locked`. -/
  locked : Text → Bool

/-- What a response says about a target. -/
inductive Disposition
  | triggered | skipped | draining
  deriving DecidableEq, Repr

/-- What `process_webhook_event` returns. -/
inductive Response
  | pong | noConfiguration | ignored
  | noFraise
  | deployments (branch : Json) (targets : List ((Text × Text) × Disposition))

/-- A call of `execute_deployment` in the background. -/
structure DeployTask where
  target : Text × Text
  gitBranch : Json
  gitCommit : Json

/-- `_dispatch_deployment`. -/
def dispatchDeployment (host : WebhookHost) (config : Routing) (event : WebhookEvent) :
    Except Raised (Response × List DeployTask) :=
  match event.branch.key with
  | .error _ => .error .typeError
  | .ok branch =>
    let fraiseConfigs := config.getFraisesForBranch branch
    if fraiseConfigs.isEmpty then .ok (.noFraise, [])
    else if host.draining then
      .ok (.deployments event.branch (fraiseConfigs.map (·, .draining)), [])
    else
      .ok (.deployments event.branch (fraiseConfigs.map fun target =>
          (target, if host.locked target.1 then .skipped else .triggered)),
        (fraiseConfigs.filter fun target => !host.locked target.1).map fun target =>
          ⟨target, event.branch, event.commitSha⟩)

/-- `process_webhook_event`. -/
def processWebhookEvent (host : WebhookHost) (event : WebhookEvent) :
    Except Raised (Response × List DeployTask) :=
  if event.isPing then .ok (.pong, [])
  else if event.isPush && event.branch.truthy then
    match host.config with
    | none => .ok (.noConfiguration, [])
    | some config => dispatchDeployment host config event
  else .ok (.ignored, [])

/-- A deploy of the branch is dispatched: each of its targets is triggered, runs already, or is
refused for the self-upgrade. -/
def Dispatches (host : WebhookHost) (event : WebhookEvent) (b : Text) : Prop :=
  ∃ targets tasks, processWebhookEvent host event = .ok (.deployments (.str b) targets, tasks)

/-- The branch is mapped to a fraise. -/
def WebhookHost.Mapped (host : WebhookHost) (b : Text) : Prop :=
  ∃ config, host.config = some config ∧ config.getFraisesForBranch (.str b) ≠ []

variable {host : WebhookHost} {event : WebhookEvent} {b : Text}

/-- What `_dispatch_deployment` dispatches of a branch. -/
theorem dispatchDeployment_deployments_iff {config : Routing} {name : Text}
    (hbranch : event.branch = .str name) :
    (∃ targets tasks,
      dispatchDeployment host config event = .ok (.deployments (.str b) targets, tasks)) ↔
        name = b ∧ config.getFraisesForBranch (.str name) ≠ [] := by
  have hkey : event.branch.key = .ok (.str name) := by rw [hbranch]; rfl
  unfold dispatchDeployment
  rw [hkey, hbranch]
  dsimp only
  by_cases hconfigs : config.getFraisesForBranch (.str name) = []
  · simp [hconfigs]
  · rw [if_neg (by simpa using hconfigs)]
    split <;> simp [hconfigs]

/-- What an event that names a branch dispatches. -/
theorem dispatches_iff_of_str {name : Text} (hbranch : event.branch = .str name)
    (hping : event.isPing = false) :
    Dispatches host event b ↔ event.isPush = true ∧ name ≠ [] ∧ name = b ∧ host.Mapped b := by
  have htruthy : event.branch.truthy = !name.isEmpty := by rw [hbranch]; rfl
  unfold Dispatches WebhookHost.Mapped processWebhookEvent
  rw [hping, htruthy, if_neg Bool.false_ne_true]
  -- Only a push that names a branch comes to the configuration.
  by_cases hpush : event.isPush = true ∧ name ≠ []
  · rw [if_pos (by simpa using hpush)]
    cases host.config with
    | none => simp
    | some config =>
      dsimp only
      rw [dispatchDeployment_deployments_iff hbranch]
      constructor
      · rintro ⟨rfl, hconfigs⟩
        exact ⟨hpush.1, hpush.2, rfl, config, rfl, hconfigs⟩
      · rintro ⟨-, -, rfl, config', hconfig, hconfigs⟩
        obtain rfl := Option.some.inj hconfig
        exact ⟨rfl, hconfigs⟩
  · rw [if_neg (by simpa using hpush)]
    constructor
    · rintro ⟨targets, tasks, h⟩
      cases h
    · exact fun h => absurd ⟨h.1, h.2.1⟩ hpush

/-- An event that is no push, or has no branch, dispatches nothing. -/
theorem not_dispatches (h : event.isPush = false ∨ event.branch = .null) :
    ¬Dispatches host event b := by
  rintro ⟨targets, tasks, hdispatch⟩
  have hfalse : (event.isPush && event.branch.truthy) = false := by
    obtain hpush | hbranch := h
    · rw [hpush, Bool.false_and]
    · rw [hbranch, Json.truthy, Bool.and_false]
  unfold processWebhookEvent at hdispatch
  rw [hfalse] at hdispatch
  split at hdispatch <;> cases hdispatch

end Fraisier.Webhook
