import Mathlib.Logic.Relation
import Fraisier.Daemon.Request

/-!
# What the daemon skips

The history of a fraise on its host: the branches at the origin move, timers and containers start and
stop, and runs of the deployer and rollbacks by hand come one after another. After a run that ended
in success the bare repository's `HEAD` and its `origin/<branch>` are the commit it deployed
(`Reached.settled`), and nothing fetches until the next run, so every request is skipped then;
`skips_only_deployed_iff` says when what is skipped was deployed.
-/

namespace Fraisier.Daemon

open Fraisier.Lib Unicode Deploy

/-! ## Histories -/

/-- `execute` of the fraise's deployer. -/
def Fraise.execute (fraise : Fraise) (env : Env) : Result Run Exn Deploy.DeploymentResult :=
  match fraise.type with
  | .api => env.outcome
  | .etl => (etlExecute env fraise.scriptPath).run env.start
  | .scheduled | .backup => (scheduledExecute env fraise.systemdTimer).run env.start
  | .dockerCompose => (composeExecute env fraise.imageTag).run env.start
  | .other name => (.error (.raised (unknownFraiseTypeError name)), env.start)

/-- The commit of the checkout that was the last to move the worktree, when the deploy made it. -/
def pulledCommit (ds : List Deed) : Option String :=
  match lastMove ds with
  | some (.pulled sha) => some sha
  | _ => none

/-- How a run ended. -/
def endedAs : Result Run Exn Deploy.DeploymentResult → LastRun
  | (.ok r, t) => ⟨r.status, pulledCommit t.deeds⟩
  | (.error _, _) => ⟨.failed, none⟩

/-- What a run's deeds make of the repository: the checkouts move its `HEAD`, and what is pulled is
what the fetch before it has found the branch to name. -/
structure Leaves (fraise : Fraise) (host : Host) (ds : List Deed) (host' : Host) : Prop where
  heads : host'.heads = host.heads
  head : match lastMove ds with
    | some (.pulled sha) | some (.checkout sha) | some (.reverted sha) => host'.head = some sha
    | _ => host.bareRepo = true → host'.head = host.head
  bareRepo : host.bareRepo = true → host'.bareRepo = true
  tracked : ∀ b, host'.tracked b = host.tracked b ∨ host'.tracked b = host.heads b
  pulled : ∀ sha, .pulled sha ∈ ds → host'.bareRepo = true ∧ sha ≠ "" ∧
    host'.tracked fraise.branch = some sha ∧ host.heads fraise.branch = some sha

/-- What happens on the host. -/
inductive Happens (fraise : Fraise) : Host → Host → Prop
  /-- The branches are pushed to. -/
  | pushed {host : Host} (heads : String → Option String) :
    Happens fraise host { host with heads }
  /-- The timer starts or stops. -/
  | timer {host : Host} (timerActive : Bool) : Happens fraise host { host with timerActive }
  /-- The containers change. -/
  | containers {host : Host} (services : Option (List (String × String))) :
    Happens fraise host { host with services }
  /-- The deployer runs. -/
  | ran {host host' : Host} {env : Env} (of : env.fraise = fraise.toFraise)
    (leaves : Leaves fraise host (fraise.execute env).2.deeds host')
    (last : host'.lastRun = some (endedAs (fraise.execute env))) : Happens fraise host host'
  /-- The process that runs it is killed. -/
  | killed {host host' : Host} {env : Env} {ds : List Deed} (of : env.fraise = fraise.toFraise)
    (before : ds <+: (fraise.execute env).2.deeds) (leaves : Leaves fraise host ds host')
    (last : host'.lastRun = some ⟨.inProgress, none⟩) : Happens fraise host host'
  /-- A rollback is made by hand. -/
  | rolledBack {host : Host} {status : DeploymentStatus} (head : Option String)
    (unsuccessful : status ≠ .success) :
    Happens fraise host { host with head, lastRun := some ⟨status, none⟩ }

/-- A host, after any history that begins before the first run. -/
inductive Reached (fraise : Fraise) : Host → Prop
  | start {host : Host} (fresh : host.lastRun = none) : Reached fraise host
  | happens {host host' : Host} (reached : Reached fraise host)
    (step : Happens fraise host host') : Reached fraise host'

/-! ## What is skipped -/

/-- The last run ended in success and deployed the commit that the branch names now. -/
def Deployed (host : Host) (branch : String) : Prop :=
  ∃ sha, host.lastRun = some ⟨.success, some sha⟩ ∧ host.heads branch = some sha

/-- What is skipped was deployed. -/
def SkipsOnlyDeployed (w : World) (host : Host) (request : DeploymentRequest) : Prop :=
  (executeDeploymentRequest w host request).status = "skipped" → Deployed host request.branch

/-- The daemon asks whether a deploy of the fraise is needed. -/
structure Asks (w : World) (fraise : Fraise) (request : DeploymentRequest) : Prop where
  config : w.config = .ok (some fraise)
  user : w.currentUser = w.expectedUser
  known : ∀ name, fraise.type ≠ .other name
  asking : w.asking = none
  dryRun : request.asks "dry_run" = false
  force : request.asks "force" = false

/-- Both versions can be read, and are the same. -/
def SameVersion (fraise : Fraise) (host : Host) : Prop :=
  ∃ version, fraise.getCurrentVersion host = some version ∧
    fraise.getLatestVersion host = some version

/-- A fraise deployed from git: after a success the branch has not moved since; any other run has
left the `HEAD` on another commit than the branch's. -/
def GitSettled (fraise : Fraise) (host : Host) (branch : String) : Prop :=
  match host.lastRun with
  | some ⟨.success, some sha⟩ => host.heads branch = some sha
  | _ => ¬SameVersion fraise host

/-- When what is skipped was deployed: one from git is settled, the timer of a scheduled one is not
active or the commit is deployed, and a compose one runs another tag than the configured. -/
def Settled (fraise : Fraise) (host : Host) (branch : String) : Prop :=
  match fraise.type with
  | .api | .etl => GitSettled fraise host branch
  | .scheduled | .backup =>
    (fraise.systemdTimer.isSome = true ∧ host.timerActive = false) ∨ Deployed host branch
  | .dockerCompose => ¬SameVersion fraise host
  | .other _ => True

variable {fraise : Fraise} {host host' : Host} {w : World} {request : DeploymentRequest}

/-! ## After a run that ended in success -/

/-- What a run that ended in success did to the worktree. -/
theorem execute_success {env : Env} {r : Deploy.DeploymentResult}
    (hr : (fraise.execute env).1 = .ok r) (hs : r.status = .success) :
    (fraise.type ≠ .dockerCompose ∧ Deploy.Deployed env (lastMove (fraise.execute env).2.deeds)) ∨
      ((fraise.type = .dockerCompose ∨ env.fraise.appPath = none) ∧
        lastMove (fraise.execute env).2.deeds = none) := by
  -- A job that is not a container's ends where it pulled to.
  have hlifecycle : ∀ {move : Option Deed}, fraise.type ≠ .dockerCompose → Pulled env move →
      (fraise.type ≠ .dockerCompose ∧ Deploy.Deployed env move) ∨
        ((fraise.type = .dockerCompose ∨ env.fraise.appPath = none) ∧ move = none) := by
    intro move htype hpulled
    unfold Pulled at hpulled
    split at hpulled
    · next hpath => exact .inl ⟨htype, hpath, hpulled⟩
    · next hpath => exact .inr ⟨.inr (Option.not_isSome_iff_eq_none.mp hpath), hpulled⟩
  unfold Fraise.execute at hr ⊢
  -- The cases are the types of fraise.
  cases htype : fraise.type with
  | api =>
    rw [htype] at hr
    exact .inl ⟨by decide, execute_moved hr hs⟩
  | etl =>
    rw [htype] at hr
    rw [htype] at hlifecycle
    exact hlifecycle (by decide)
      (moved_of_start (executeWithLifecycle_moved (etlSteps_moved _)) hr hs)
  | scheduled =>
    rw [htype] at hr
    rw [htype] at hlifecycle
    exact hlifecycle (by decide)
      (moved_of_start (executeWithLifecycle_moved (scheduledSteps_moved _)) hr hs)
  | backup =>
    rw [htype] at hr
    rw [htype] at hlifecycle
    exact hlifecycle (by decide)
      (moved_of_start (executeWithLifecycle_moved (scheduledSteps_moved _)) hr hs)
  | dockerCompose =>
    rw [htype] at hr
    exact .inr ⟨.inl rfl, moved_of_start (composeExecute_moved _) hr⟩
  | other name =>
    rw [htype] at hr
    cases hr

/-- What the repository is when the last run ended in success. -/
structure Consistent (fraise : Fraise) (host : Host) : Prop where
  deployed : ∀ sha, host.lastRun = some ⟨.success, some sha⟩ → fraise.type ≠ .dockerCompose ∧
    fraise.appPath.isSome = true ∧ sha ≠ "" ∧ host.bareRepo = true ∧ host.head = some sha ∧
      host.tracked fraise.branch = some sha
  untouched : host.lastRun = some ⟨.success, none⟩ →
    fraise.type = .dockerCompose ∨ fraise.appPath = none

/-- A host whose last run was no success is consistent. -/
theorem Consistent.of_unsuccessful
    (h : ∀ commit, host.lastRun ≠ some ⟨.success, commit⟩) : Consistent fraise host where
  deployed _ hlast := absurd hlast (h _)
  untouched hlast := absurd hlast (h _)

/-- The last move is one of the deeds. -/
theorem mem_of_lastMove {ds : List Deed} {d : Deed} (h : lastMove ds = some d) : d ∈ ds := by
  -- Induction on the deeds, with the last move so far.
  have hfold : ∀ (ds : List Deed) (last : Option Deed),
      ds.foldl (fun last d => if d.aspect = .worktree then some d else last) last = some d →
        last = some d ∨ d ∈ ds := by
    intro ds
    induction ds with
    | nil => exact fun last h => .inl h
    | cons d' ds ih =>
      intro last h
      obtain hlast | hmem := ih _ h
      · dsimp only at hlast
        split at hlast
        · obtain rfl := Option.some.inj hlast
          exact .inr List.mem_cons_self
        · exact .inl hlast
      · exact .inr (List.mem_cons_of_mem _ hmem)
  obtain hnone | hmem := hfold ds none h
  · cases hnone
  · exact hmem

/-- A run keeps the repository consistent. -/
theorem consistent_of_ran {env : Env} (hof : env.fraise = fraise.toFraise)
    (hleaves : Leaves fraise host (fraise.execute env).2.deeds host')
    (hlast : host'.lastRun = some (endedAs (fraise.execute env))) : Consistent fraise host' := by
  rcases hrun : fraise.execute env with ⟨e | r, t⟩
  · -- a run that raised was no success
    refine .of_unsuccessful fun commit h => ?_
    rw [hlast, hrun] at h
    cases h
  · have hended : host'.lastRun = some ⟨r.status, pulledCommit t.deeds⟩ := by rw [hlast, hrun]; rfl
    have hcases : r.status = .success → _ := execute_success (by rw [hrun])
    rw [hrun] at hleaves hcases
    dsimp only at hleaves hcases
    -- What was deployed is what the run pulled, or what was there before.
    refine ⟨fun sha h => ?_, fun h => ?_⟩
    · rw [hended] at h
      obtain ⟨hstatus, hcommit⟩ := LastRun.mk.inj (Option.some.inj h)
      obtain ⟨htype, hpath, sha', hmove⟩ | ⟨-, hmove⟩ := hcases hstatus
      · have hhead := hleaves.head
        rw [pulledCommit, hmove] at hcommit
        obtain rfl : sha' = sha := Option.some.inj hcommit
        rw [hmove] at hhead
        obtain ⟨hrepo, hne, htracked, -⟩ := hleaves.pulled sha' (mem_of_lastMove hmove)
        rw [hof] at hpath
        exact ⟨htype, hpath, hne, hrepo, hhead, htracked⟩
      · rw [pulledCommit, hmove] at hcommit
        cases hcommit
    · rw [hended] at h
      obtain ⟨hstatus, hcommit⟩ := LastRun.mk.inj (Option.some.inj h)
      obtain ⟨-, -, sha', hmove⟩ | ⟨htype, -⟩ := hcases hstatus
      · rw [pulledCommit, hmove] at hcommit
        cases hcommit
      · rwa [hof] at htype

/-- Whatever happens keeps the repository consistent. -/
theorem Consistent.happens (h : Consistent fraise host) (hstep : Happens fraise host host') :
    Consistent fraise host' := by
  have hunsuccessful : ∀ {host' : Host} {status : DeploymentStatus}, status ≠ .success →
      host'.lastRun = some ⟨status, none⟩ → Consistent fraise host' := by
    intro host' status hne hlast
    refine .of_unsuccessful fun commit h => ?_
    rw [hlast] at h
    exact hne (LastRun.mk.inj (Option.some.inj h)).1
  cases hstep with
  | pushed heads => exact ⟨h.deployed, h.untouched⟩
  | timer active => exact ⟨h.deployed, h.untouched⟩
  | containers services => exact ⟨h.deployed, h.untouched⟩
  | ran of leaves last => exact consistent_of_ran of leaves last
  | killed of before leaves last => exact hunsuccessful (by decide) last
  | rolledBack head unsuccessful => exact hunsuccessful unsuccessful rfl

/-- After any history the repository is consistent. -/
theorem Reached.consistent (h : Reached fraise host) : Consistent fraise host := by
  induction h with
  | start fresh =>
    refine .of_unsuccessful fun commit h => ?_
    rw [fresh] at h
    cases h
  | happens _ step ih => exact ih.happens step

/-- After a success the versions are the same, whatever has been pushed since. -/
theorem Consistent.sameVersion {sha : String} (h : Consistent fraise host)
    (hlast : host.lastRun = some ⟨.success, some sha⟩) : SameVersion fraise host := by
  obtain ⟨htype, hpath, hne, hrepo, hhead, htracked⟩ := h.deployed sha hlast
  refine ⟨short sha, ?_, ?_⟩
  -- Both versions are the short form of the same commit.
  · have hsha : host.getWorktreeSha = some sha := by
      unfold Host.getWorktreeSha
      rw [hhead, Option.filter_some, if_pos (by simpa using hne)]
      rfl
    unfold Fraise.getCurrentVersion
    split
    · exact absurd ‹_› htype
    · rw [if_pos hpath, hsha]
      rfl
  · unfold Fraise.getLatestVersion
    split
    · exact absurd ‹_› htype
    · rw [if_pos hrepo, htracked]
      rfl

/-! ## The answer -/

/-- Versions do not differ when both are known and the same. -/
theorem versionsDiffer_iff {current latest : Option String} : versionsDiffer current latest = false ↔
    ∃ version, current = some version ∧ latest = some version := by
  cases current with
  | none => simp [versionsDiffer]
  | some current =>
    cases latest with
    | none => simp [versionsDiffer]
    | some latest =>
      unfold versionsDiffer
      rw [decide_eq_false_iff_not, not_not]
      constructor
      · rintro rfl
        exact ⟨current, rfl, rfl⟩
      · rintro ⟨version, hcurrent, hlatest⟩
        exact (Option.some.inj hcurrent).trans (Option.some.inj hlatest).symm

/-- No status is written as skipped. -/
theorem value_ne_skipped (status : DeploymentStatus) : status.value ≠ "skipped" := by
  cases status <;> decide

/-- The daemon skips exactly what it is asked for that needs no deploy. -/
theorem skipped_iff : (executeDeploymentRequest w host request).status = "skipped" ↔
    ∃ fraise, Asks w fraise request ∧ fraise.isDeploymentNeeded host = false := by
  have hfailed : ∀ f, (executeDeploymentRequest.failed w f).status ≠ "skipped" := by
    intro f
    unfold executeDeploymentRequest.failed
    split <;> simp
  have hdeployed : ∀ result, (deployed result).status ≠ "skipped" := by
    intro result
    cases result with
    | none => simp [deployed]
    | some result => exact value_ne_skipped _
  have hdry : ∀ fraise force, (dryRun fraise host force).status ≠ "skipped" := by
    intro fraise force
    unfold dryRun
    dsimp only
    split <;> simp
  -- what the deploy itself answers is not that it was skipped
  have hrun : ∀ result, w.execute.map deployed = .ok result → result.status ≠ "skipped" := by
    intro result h
    cases hexecute : w.execute with
    | error f =>
      rw [hexecute] at h
      cases h
    | ok r =>
      rw [hexecute] at h
      cases h
      exact hdeployed r
  constructor
  · intro h
    unfold executeDeploymentRequest at h
    cases hconfig : w.config with
    | error f =>
      rw [hconfig] at h
      exact absurd h (hfailed f)
    | ok configured =>
      rw [hconfig] at h
      cases configured with
      | none => simp at h
      | some fraise =>
        dsimp only at h
        split at h
        · simp at h
        · next huser =>
          have huser : w.currentUser = w.expectedUser := not_not.mp huser
          cases hresult : deployFraise w host fraise request with
          | error f =>
            rw [hresult] at h
            exact absurd h (hfailed f)
          | ok result =>
            rw [hresult] at h
            dsimp only at h
            unfold deployFraise at hresult
            split at hresult
            · cases hresult
            · split at hresult
              · exact absurd h (hrun _ hresult)
              · cases hresult
            · next hasking hknown =>
              split at hresult
              · cases hresult
                exact absurd h (hdry _ _)
              · next hdry =>
                split at hresult
                · next hskip =>
                  rw [Bool.and_eq_true, Bool.not_eq_true', Bool.not_eq_true'] at hskip
                  exact ⟨fraise, ⟨hconfig, huser, fun name => hknown name, hasking,
                    Bool.not_eq_true _ ▸ hdry, hskip.1⟩, hskip.2⟩
                · exact absurd h (hrun _ hresult)
  · rintro ⟨fraise, hasks, hneeded⟩
    have hresult : deployFraise w host fraise request = .ok
        { success := true
          status := "skipped"
          message := some "Already up to date"
          deployedVersion := fraise.getCurrentVersion host } := by
      unfold deployFraise
      rw [hasks.asking, hasks.dryRun, hasks.force, hneeded]
      split
      · exact absurd ‹_› (hasks.known _)
      · next heq _ => cases heq
      · rfl
    unfold executeDeploymentRequest
    rw [hasks.config]
    dsimp only
    rw [if_neg (not_not.mpr hasks.user), hresult]

/-- A fraise deployed from git is skipped when its versions are the same. -/
theorem gitSettled_iff (h : Consistent fraise host) (branch : String) :
    (SameVersion fraise host → Deployed host branch) ↔ GitSettled fraise host branch := by
  unfold GitSettled
  split
  -- By whether the last run ended with a commit.
  · next sha hlast =>
    constructor
    · intro hdeployed
      obtain ⟨sha', hlast', hhead⟩ := hdeployed (h.sameVersion hlast)
      rw [hlast] at hlast'
      cases hlast'
      exact hhead
    · exact fun hhead _ => ⟨sha, hlast, hhead⟩
  · next hlast =>
    constructor
    · intro hdeployed hsame
      obtain ⟨sha, hlast', -⟩ := hdeployed hsame
      exact hlast sha hlast'
    · exact fun hnot hsame => absurd hsame hnot

/-- A run of a compose fraise deploys no commit. -/
theorem Consistent.not_deployed (h : Consistent fraise host)
    (htype : fraise.type = .dockerCompose) (branch : String) : ¬Deployed host branch := by
  rintro ⟨sha, hlast, -⟩
  exact (h.deployed sha hlast).1 htype

/-- What a deploy that is not needed comes to, by the type of the fraise. -/
theorem settled_iff (h : Consistent fraise host) (hknown : ∀ name, fraise.type ≠ .other name)
    (branch : String) : (fraise.isDeploymentNeeded host = false → Deployed host branch) ↔
      Settled fraise host branch := by
  -- The timer has to run.
  have htimer : (fraise.systemdTimer.isSome && !host.timerActive) = false ↔
      ¬(fraise.systemdTimer.isSome = true ∧ host.timerActive = false) := by simp
  have hsame : versionsDiffer (fraise.getCurrentVersion host) (fraise.getLatestVersion host) =
      false ↔ SameVersion fraise host := versionsDiffer_iff
  unfold Settled Fraise.isDeploymentNeeded
  -- The cases are the types of fraise.
  cases htype : fraise.type with
  | api =>
    dsimp only
    rw [hsame]
    exact gitSettled_iff h branch
  | etl =>
    dsimp only
    rw [hsame]
    exact gitSettled_iff h branch
  | scheduled =>
    dsimp only
    rw [htimer, or_iff_not_imp_left]
  | backup =>
    dsimp only
    rw [htimer, or_iff_not_imp_left]
  | dockerCompose =>
    dsimp only
    rw [hsame]
    exact ⟨fun hdeployed hsame => h.not_deployed htype branch (hdeployed hsame),
      fun hnot hsame => absurd hsame hnot⟩
  | other name => exact absurd htype (hknown name)

/-- After any history, what the daemon skips was deployed when the fraise is settled. -/
theorem skips_only_deployed_iff (h : Reached fraise host)
    (hconfig : ∀ configured, w.config = .ok (some configured) → configured = fraise) :
    SkipsOnlyDeployed w host request ↔
      (Asks w fraise request → Settled fraise host request.branch) := by
  rw [SkipsOnlyDeployed, skipped_iff]
  constructor
  · intro hskips hasks
    exact (settled_iff h.consistent hasks.known _).mp fun hneeded =>
      hskips ⟨fraise, hasks, hneeded⟩
  · rintro hsettled ⟨configured, hasks, hneeded⟩
    obtain rfl := hconfig configured hasks.config
    exact (settled_iff h.consistent hasks.known _).mpr (hsettled hasks) hneeded

/-- A pipeline that runs a script after each pull. -/
def pipeline : Fraise :=
  { fraiseName := "pipeline", type := .etl, scriptPath := some "load.py" }

/-- The first commit is in the worktree, and the branch has moved on. -/
def pipelineHost : Host where
  heads branch := if branch = "main" then some "4e5f6a7b" else none
  bareRepo := true
  head := some "0a1b2c3d"
  tracked branch := if branch = "main" then some "0a1b2c3d" else none
  worktreeHead := none
  timerActive := false
  services := none
  lastRun := none

/-- A run that pulls the commit; the script is its statement 14. -/
def pipelineRun (failing : List ℕ) : Env :=
  ({ fraise := pipeline.toFraise
     sha := fun _ => some "0a1b2c3d"
     text := fun _ => "4e5f6a7b" } : Env).failingAt failing

/-- The host after it. -/
def afterRun (failing : List ℕ) : Host :=
  { pipelineHost with
    head := some "4e5f6a7b"
    tracked := pipelineHost.heads
    lastRun := some (endedAs (pipeline.execute (pipelineRun failing))) }

/-- A run of the pipeline leaves the host as it reached it. -/
theorem afterRun_reached {failing : List ℕ}
    (hmove : lastMove (pipeline.execute (pipelineRun failing)).2.deeds = some (.pulled "4e5f6a7b"))
    (hpulled : ∀ d ∈ (pipeline.execute (pipelineRun failing)).2.deeds,
      d.aspect = .worktree → d = .pulled "4e5f6a7b") :
    Reached pipeline (afterRun failing) := by
  have hleaves : Leaves pipeline pipelineHost (pipeline.execute (pipelineRun failing)).2.deeds
      (afterRun failing) := by
    refine ⟨rfl, by rw [hmove]; rfl, fun h => h, fun _ => .inr rfl, fun sha hmem => ?_⟩
    obtain rfl : sha = "4e5f6a7b" := Deed.pulled.inj (hpulled _ hmem rfl)
    exact ⟨rfl, by decide, rfl, rfl⟩
  have hstart : Reached pipeline pipelineHost := .start rfl
  exact hstart.happens (.ran rfl hleaves rfl)

/-- A request for the branch. -/
def mainRequest : DeploymentRequest :=
  { project := "pipeline", environment := "production", branch := "main", options := [] }

set_option maxRecDepth 10000 in
/-- After a run that went well, a request is skipped and was deployed. -/
theorem skips_deployed :
    SkipsOnlyDeployed { config := .ok (some pipeline) } (afterRun []) mainRequest :=
  (skips_only_deployed_iff (afterRun_reached (by decide) (by decide))
    fun _ h => (Option.some.inj (Except.ok.inj h)).symm).mpr fun _ => by
      change GitSettled pipeline (afterRun []) "main"
      have hlast : (afterRun []).lastRun = some ⟨.success, some "4e5f6a7b"⟩ := by decide
      unfold GitSettled
      rw [hlast]
      rfl

set_option maxRecDepth 10000 in
/-- The script fails, and the next request is skipped: the worktree is at the commit. -/
theorem skips_failed : ¬∀ fraise host w request, Reached fraise host →
    (∀ configured, w.config = .ok (some configured) → configured = fraise) →
      SkipsOnlyDeployed w host request := by
  intro h
  have hskips := h pipeline (afterRun [14]) { config := .ok (some pipeline) } mainRequest
    (afterRun_reached (by decide) (by decide))
    fun _ h => (Option.some.inj (Except.ok.inj h)).symm
  have hlast : (afterRun [14]).lastRun = some ⟨.failed, some "4e5f6a7b"⟩ := by decide
  obtain ⟨sha, hsuccess, -⟩ := hskips (by decide)
  rw [hlast] at hsuccess
  cases hsuccess

end Fraisier.Daemon
