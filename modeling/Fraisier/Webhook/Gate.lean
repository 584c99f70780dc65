import Mathlib.Data.List.Basic
import Fraisier.Lib.System
import Fraisier.Deploy.Record

/-!
# The already-deployed gate

A push event makes the webhook add a task for each fraise and environment that the branch is mapped
to. `execute_deployment` drops a task when the status record of its fraise names the commit of the
event, and otherwise runs the deployer under the fraise's lock. There is one record for a fraise,
in the default directory, and the gate looks at its commit only: `skips_up_to_date` says in which
runs a task is dropped only if its own target is up to date.
-/

namespace Fraisier.Webhook

open Fraisier.Lib
open Fraisier.Deploy (short)

/-! ## Configuration -/

/-- A hexadecimal digit as git writes it. -/
def isHex (c : Char) : Bool := '0' ≤ c && c ≤ '9' || 'a' ≤ c && c ≤ 'f'

/-- A commit as git and the push events write it: a full hash. -/
structure Commit where
  hash : String
  length : hash.toList.length = 40
  digits : hash.toList.all isHex = true
  deriving DecidableEq

/-- `FRAISE_TYPES`. -/
inductive FraiseType
  | api | etl | scheduled | backup | dockerCompose
  deriving DecidableEq, Repr

/-- What the deployer of a type writes as `commit_sha` when it has succeeded, from what is deployed
now (a commit, or the tag of an image) and the state of the timer. -/
def FraiseType.commitSha (timerState deployed : Option String) : FraiseType → Option String
  | .api | .dockerCompose => deployed
  | .etl => deployed.map short
  | .scheduled | .backup => (deployed.map short).or (timerState.map ("timer:" ++ ·))

/-- `DEFAULT_STATUS_DIR`. -/
def defaultStatusDir : String := "/var/lib/fraisier/status"

/-- What a deployer is built from. There is none for a type that the registry does not know. -/
structure FraiseConfig where
  type : Option FraiseType
  statusDir : String := defaultStatusDir
  deriving DecidableEq, Repr

/-- An entry of `branch_mapping`. -/
structure Mapping where
  fraise : Option String := none
  fraiseName : Option String := none
  environment : Option String := none
  deriving DecidableEq, Repr

/-- The parts of `FraisierConfig` that route a push event. -/
structure Config where
  branchMapping : String → List Mapping
  getFraiseEnvironment : String → String → Option FraiseConfig

/-- Python's truth of an optional string. -/
def truthy (s : Option String) : Option String := s.filter (· ≠ "")

/-- `FraisierConfig.get_fraises_for_branch`: the fraises and environments of a branch. -/
def Config.getFraisesForBranch (c : Config) (branch : String) :
    List ((String × String) × FraiseConfig) :=
  (c.branchMapping branch).filterMap fun mapping => do
    let fraise ← (truthy mapping.fraise).or (truthy mapping.fraiseName)
    let environment ← truthy mapping.environment
    let config ← c.getFraiseEnvironment fraise environment
    pure ((fraise, environment), config)

/-! ## The host -/

/-- `DeploymentStatusFile`, as far as the gate could look at it. -/
structure DeploymentStatusFile where
  environment : String
  state : String
  commitSha : Option String := none
  deriving DecidableEq, Repr

/-- A background task: a call of `execute_deployment`. -/
structure Task where
  fraise : String
  environment : String
  config : FraiseConfig
  gitCommit : Option Commit
  deriving DecidableEq

/-- A run under the lock of its fraise. -/
structure Deploying where
  environment : String
  config : FraiseConfig
  /-- What was deployed when it began. -/
  previous : Option String
  /-- Its deployer has begun, and has written the record `deploying`. -/
  announced : Bool := false
  deriving DecidableEq, Repr

/-- The host that the webhook deploys on. -/
structure Host where
  /-- The status files, by directory and fraise. -/
  records : String × String → Option DeploymentStatusFile := fun _ => none
  pending : List Task := []
  /-- Who has `deployment_lock`. -/
  deploying : String → Option Deploying := fun _ => none
  /-- What is deployed for a fraise and an environment: the commit of the worktree, or the tag of
  the image. -/
  deployed : String × String → Option String := fun _ => none
  /-- What the last successful deployment was of. -/
  lastSuccess : String × String → Option String := fun _ => none

/-- How a deployer ends. -/
inductive Outcome
  | success (timerState : Option String)
  | failed
  /-- The worktree was put back to where the run found it. -/
  | rolledBack
  | rollbackFailed
  deriving DecidableEq, Repr

/-- What happens next. -/
inductive Step
  | push (branch : String) (commit : Option Commit)
  /-- A pending task begins. -/
  | start (k : ℕ)
  /-- `UnknownFraiseTypeError`, and whether its record could be written. -/
  | refuse (fraise : String) (written : Bool)
  /-- The deployer begins, and writes that it does. -/
  | announce (fraise : String) (written : Bool)
  /-- The deployer puts something else in place. -/
  | move (fraise : String) (version : Option String)
  | finish (fraise : String) (outcome : Outcome) (written : Bool)
  /-- The run ends without a word: an exception before the deployer, or the end of its process. -/
  | stop (fraise : String)
  deriving DecidableEq

/-- The gate of `execute_deployment`. -/
def alreadyDeployed (current : Option DeploymentStatusFile) (gitCommit : Option Commit) : Bool :=
  match gitCommit, current with
  | some c, some r => r.commitSha = some c.hash
  | _, _ => false

/-- `write_status`, when the file can be written. -/
def Host.writeStatus (s : Host) (dir fraise : String) (r : DeploymentStatusFile) (written : Bool) :
    Host :=
  if written then { s with records := Function.update s.records (dir, fraise) (some r) } else s

/-- The lock of the fraise is given back. -/
def Host.release (s : Host) (fraise : String) : Host :=
  { s with deploying := Function.update s.deploying fraise none }

/-- Something is deployed for a fraise and an environment. -/
def Host.deploy (s : Host) (fraise environment : String) (version : Option String) : Host :=
  { s with deployed := Function.update s.deployed (fraise, environment) version }

/-- The end of a deployer: what it leaves deployed, and its last record. -/
def Host.finish (s : Host) (fraise : String) (run : Deploying) (type : FraiseType) (written : Bool) :
    Outcome → Option Host
  | .success timerState =>
    let target := (fraise, run.environment)
    let s := { s with lastSuccess := Function.update s.lastSuccess target (s.deployed target) }
    some (s.writeStatus run.config.statusDir fraise
      ⟨run.environment, "success", type.commitSha timerState (s.deployed target)⟩ written)
  | .failed =>
    some (s.writeStatus run.config.statusDir fraise ⟨run.environment, "failed", none⟩ written)
  | .rolledBack => match run.previous with
    | some target =>
      some ((s.deploy fraise run.environment (some target)).writeStatus run.config.statusDir fraise
        ⟨run.environment, "rolled_back", some target⟩ written)
    | none => none
  | .rollbackFailed =>
    some (s.writeStatus run.config.statusDir fraise ⟨run.environment, "rollback_failed", none⟩
      written)

/-- One step. -/
def Host.next (c : Config) (s : Host) : Step → Option Host
  | .push branch commit =>
    let tasks := (c.getFraisesForBranch branch).filter fun t => (s.deploying t.1.1).isNone
    some { s with pending := s.pending ++ tasks.map fun t => ⟨t.1.1, t.1.2, t.2, commit⟩ }
  | .start k => match s.pending[k]? with
    | none => none
    | some task =>
      let s := { s with pending := s.pending.eraseIdx k }
      if alreadyDeployed (s.records (defaultStatusDir, task.fraise)) task.gitCommit then some s
      else match s.deploying task.fraise with
        | some _ => some s
        | none =>
          let previous := s.deployed (task.fraise, task.environment)
          let run := ⟨task.environment, task.config, previous, false⟩
          some { s with deploying := Function.update s.deploying task.fraise (some run) }
  | .refuse fraise written => match s.deploying fraise with
    | some ⟨environment, ⟨none, _⟩, _, _⟩ =>
      let s := s.writeStatus defaultStatusDir fraise ⟨environment, "failed", none⟩ written
      some (s.release fraise)
    | _ => none
  | .announce fraise written => match s.deploying fraise with
    | some ⟨environment, ⟨some type, dir⟩, previous, false⟩ =>
      let run := ⟨environment, ⟨some type, dir⟩, previous, true⟩
      some { s.writeStatus dir fraise ⟨environment, "deploying", none⟩ written with
        deploying := Function.update s.deploying fraise (some run) }
    | _ => none
  | .move fraise version => match s.deploying fraise with
    | some ⟨environment, _, _, true⟩ => some (s.deploy fraise environment version)
    | _ => none
  | .finish fraise outcome written => match s.deploying fraise with
    | some ⟨environment, ⟨some type, dir⟩, previous, true⟩ =>
      (s.finish fraise ⟨environment, ⟨some type, dir⟩, previous, true⟩ type written outcome).map
        (·.release fraise)
    | _ => none
  | .stop fraise => (s.deploying fraise).map fun _ => s.release fraise

/-- The system of the webhook, its tasks and its deployers. -/
def webhook (c : Config) : System Host Step := ⟨Host.next c⟩

/-! ## What is skipped -/

/-- The last successful deployment to the target was of this commit, and it is what is deployed. -/
def Host.UpToDate (s : Host) (fraise environment : String) (commit : Commit) : Prop :=
  s.lastSuccess (fraise, environment) = some commit.hash ∧
    s.deployed (fraise, environment) = some commit.hash

/-- A task that the gate drops is for a target that is up to date. -/
def Host.SkipsUpToDate (s : Host) (i : Step) : Prop :=
  ∀ k task, i = .start k → s.pending[k]? = some task →
    alreadyDeployed (s.records (defaultStatusDir, task.fraise)) task.gitCommit = true →
    ∃ commit, task.gitCommit = some commit ∧ s.UpToDate task.fraise task.environment commit

/-- The steps of a run in which
- a record that names the commit of a task is of the task's environment;
- a deployer that begins replaces the record of a commit in its environment;
- a rollback is to what the last successful deployment was of. -/
def Host.Undisturbed (s : Host) : Step → Prop
  | .start k => ∀ task r, s.pending[k]? = some task →
    s.records (defaultStatusDir, task.fraise) = some r →
    r.commitSha = task.gitCommit.map (·.hash) → r.commitSha ≠ none →
    r.environment = task.environment
  | .announce fraise written => ∀ run r, s.deploying fraise = some run →
    s.records (defaultStatusDir, fraise) = some r → r.environment = run.environment →
    r.commitSha ≠ none → written = true ∧ run.config.statusDir = defaultStatusDir
  | .finish fraise .rolledBack _ => ∀ run, s.deploying fraise = some run →
    s.lastSuccess (fraise, run.environment) = run.previous
  | _ => True

/-- No event has arrived. -/
structure Host.Fresh (s : Host) : Prop where
  records : ∀ x, s.records x = none
  deploying : ∀ f, s.deploying f = none

/-- What the record of a fraise, where the gate reads it, says of its environment. -/
def Host.SoundAt (s : Host) (f : String) : Prop :=
  ∀ r c, s.records (defaultStatusDir, f) = some r → r.commitSha = some (Commit.hash c) →
    s.UpToDate f r.environment c ∧
      ∀ run, s.deploying f = some run → run.environment = r.environment → run.announced = false

variable {c : Config} {s t : Host} {i : Step} {f dir : String} {run : Deploying}
  {r r' : DeploymentStatusFile} {written : Bool}

/-- Only a full hash is recorded as one. -/
theorem FraiseType.commitSha_hash {type : FraiseType} {timerState deployed : Option String}
    {commit : Commit} (h : type.commitSha timerState deployed = some commit.hash) :
    deployed = some commit.hash := by
  -- A short hash has eight digits, a full one forty.
  have hshort : ∀ v, short v ≠ commit.hash := by
    intro v hv
    have hlength := commit.length
    rw [← hv, short, String.toList_ofList, List.length_take] at hlength
    omega
  -- A timer's text is no hash.
  have htimer : ∀ v, "timer:" ++ v ≠ commit.hash := by
    intro v hv
    have hdigits := commit.digits
    rw [← hv, String.toList_append, List.all_append] at hdigits
    exact absurd (Bool.and_eq_true_iff.mp hdigits).1 (by decide)
  cases type with
  | api => exact h
  | dockerCompose => exact h
  | etl =>
    obtain ⟨v, -, hv⟩ := Option.map_eq_some_iff.mp h
    exact absurd hv (hshort v)
  | _ =>
    obtain hv | ⟨-, hv⟩ := Option.or_eq_some_iff.mp h
    · obtain ⟨v, -, hv⟩ := Option.map_eq_some_iff.mp hv
      exact absurd hv (hshort v)
    · obtain ⟨v, -, hv⟩ := Option.map_eq_some_iff.mp hv
      exact absurd hv (htimer v)

/-- A status changes nothing that is deployed. -/
@[simp] theorem Host.deployed_writeStatus :
    (s.writeStatus dir f r written).deployed = s.deployed := by
  cases written <;> rfl

/-- A status changes no last success. -/
@[simp] theorem Host.lastSuccess_writeStatus :
    (s.writeStatus dir f r written).lastSuccess = s.lastSuccess := by
  cases written <;> rfl

/-- A status changes no deploy that runs. -/
@[simp] theorem Host.deploying_writeStatus :
    (s.writeStatus dir f r written).deploying = s.deploying := by
  cases written <;> rfl

/-- A fraise that is released is not being deployed. -/
@[simp] theorem Host.deploying_release : (s.release f).deploying f = none :=
  Function.update_self ..

/-- What stands in the default directory after a record is written somewhere. -/
theorem Host.records_writeStatus
    (h : (s.writeStatus dir f r written).records (defaultStatusDir, f) = some r') :
    r' = r ∨ ¬(written = true ∧ dir = defaultStatusDir) ∧
      s.records (defaultStatusDir, f) = some r' := by
  cases written with
  | false => exact .inr ⟨by simp, h⟩
  | true =>
    change Function.update s.records (dir, f) (some r) (defaultStatusDir, f) = some r' at h
    by_cases hdir : dir = defaultStatusDir
    · rw [hdir, Function.update_self] at h
      exact .inl (Option.some.inj h).symm
    · rw [Function.update_of_ne (by simp [Ne.symm hdir])] at h
      exact .inr ⟨fun hw => hdir hw.2, h⟩

/-- Nothing changes for a fraise. -/
structure Host.SameFor (s t : Host) (g : String) : Prop where
  records : t.records (defaultStatusDir, g) = s.records (defaultStatusDir, g)
  deploying : t.deploying g = s.deploying g
  deployed : ∀ e, t.deployed (g, e) = s.deployed (g, e)
  lastSuccess : ∀ e, t.lastSuccess (g, e) = s.lastSuccess (g, e)

/-- A fraise stays sound where nothing of it changed. -/
theorem Host.SoundAt.same (h : s.SoundAt f) (hs : s.SameFor t f) : t.SoundAt f := by
  intro r c hr hc
  rw [hs.records] at hr
  obtain ⟨hup, hquiet⟩ := h r c hr hc
  rw [hs.deploying]
  exact ⟨⟨(hs.lastSuccess _).trans hup.1, (hs.deployed _).trans hup.2⟩, hquiet⟩

/-- What is the same after each of two steps is the same after both. -/
theorem Host.SameFor.trans {u : Host} {g : String} (h : s.SameFor t g) (h' : t.SameFor u g) :
    s.SameFor u g where
  records := h'.records.trans h.records
  deploying := h'.deploying.trans h.deploying
  deployed e := (h'.deployed e).trans (h.deployed e)
  lastSuccess e := (h'.lastSuccess e).trans (h.lastSuccess e)

section

variable {g e : String} (hg : g ≠ f)
include hg

/-- A status of one fraise changes nothing of another. -/
theorem Host.sameFor_writeStatus : s.SameFor (s.writeStatus dir f r written) g := by
  cases written with
  | false => exact ⟨rfl, rfl, fun _ => rfl, fun _ => rfl⟩
  | true =>
    refine ⟨?_, rfl, fun _ => rfl, fun _ => rfl⟩
    exact Function.update_of_ne (by simp [hg]) ..

/-- A deploy of one fraise that begins or ends changes nothing of another. -/
theorem Host.sameFor_deploying (run : Option Deploying) :
    s.SameFor { s with deploying := Function.update s.deploying f run } g :=
  ⟨rfl, Function.update_of_ne hg .., fun _ => rfl, fun _ => rfl⟩

/-- A deploy of one fraise changes nothing of another. -/
theorem Host.sameFor_deploy (version : Option String) : s.SameFor (s.deploy f e version) g :=
  ⟨rfl, rfl, fun _ => Function.update_of_ne (by simp [hg]) .., fun _ => rfl⟩

/-- A success of one fraise changes nothing of another. -/
theorem Host.sameFor_lastSuccess (version : Option String) :
    s.SameFor { s with lastSuccess := Function.update s.lastSuccess (f, e) version } g :=
  ⟨rfl, rfl, fun _ => rfl, fun _ => Function.update_of_ne (by simp [hg]) ..⟩

end

/-- A deployer that has begun does something, and writes a record or none: what the record says of
the other environments stays, and what a new record says holds. -/
theorem Host.SoundAt.goes (h : s.SoundAt f) (hd : s.deploying f = some run)
    (ha : run.announced = true)
    (hnew : ∀ r c, t.records (defaultStatusDir, f) = some r → r.commitSha = some (Commit.hash c) →
      s.records (defaultStatusDir, f) = some r ∨
        t.UpToDate f r.environment c ∧ t.deploying f = none)
    (hothers : ∀ e, e ≠ run.environment → t.deployed (f, e) = s.deployed (f, e) ∧
      t.lastSuccess (f, e) = s.lastSuccess (f, e))
    (hdeploying : t.deploying f = none ∨ t.deploying f = s.deploying f) : t.SoundAt f := by
  intro r c hr hc
  -- The record was there before, and so is of another environment, or it is new.
  obtain hold | ⟨hup, hnone⟩ := hnew r c hr hc
  · obtain ⟨hup, hquiet⟩ := h r c hold hc
    have he : r.environment ≠ run.environment := fun he => by
      rw [hquiet run hd he.symm] at ha
      cases ha
    refine ⟨⟨(hothers _ he).2.trans hup.1, (hothers _ he).1.trans hup.2⟩, fun run' hrun' => ?_⟩
    obtain hnone | hsame := hdeploying
    · rw [hnone] at hrun'
      cases hrun'
    · rw [hsame] at hrun'
      exact hquiet run' hrun'
  · refine ⟨hup, fun run' hrun' => ?_⟩
    rw [hnone] at hrun'
    cases hrun'

/-- The steps of the other fraises leave what a record says as it is. -/
theorem Host.sound_of_sameFor (h : ∀ g, s.SoundAt g) (hsame : ∀ g, g ≠ f → s.SameFor t g)
    (hself : t.SoundAt f) (g : String) : t.SoundAt g := by
  by_cases hg : g = f
  · rw [hg]
    exact hself
  · exact (h g).same (hsame g hg)

/-! ## Every run -/

/-- A task that is let through begins a run, which has announced nothing. -/
theorem Host.sound_start {k : ℕ} (h : ∀ g, s.SoundAt g) (hn : s.next c (.start k) = some t) (g) :
    t.SoundAt g := by
  cases htask : s.pending[k]? with
  | none => simp [Host.next, htask] at hn
  | some task =>
    simp only [Host.next, htask] at hn
    -- A task that finds the worker draining begins nothing.
    split at hn
    · exact Option.some.inj hn ▸ (h g).same ⟨rfl, rfl, fun _ => rfl, fun _ => rfl⟩
    · split at hn
      · exact Option.some.inj hn ▸ (h g).same ⟨rfl, rfl, fun _ => rfl, fun _ => rfl⟩
      · obtain rfl := Option.some.inj hn
        refine sound_of_sameFor (f := task.fraise) h (fun g hg => ?_) (fun r c hr hc => ?_) g
        · exact ⟨rfl, Function.update_of_ne hg .., fun _ => rfl, fun _ => rfl⟩
        · refine ⟨(h task.fraise r c hr hc).1, fun run hrun _ => ?_⟩
          change Function.update s.deploying task.fraise _ task.fraise = some run at hrun
          rw [Function.update_self] at hrun
          exact Option.some.inj hrun ▸ rfl

/-- A refusal records no commit. -/
theorem Host.sound_refuse (h : ∀ g, s.SoundAt g) (hn : s.next c (.refuse f written) = some t) (g) :
    t.SoundAt g := by
  simp only [Host.next] at hn
  split at hn
  · obtain rfl := Option.some.inj hn
    refine sound_of_sameFor (f := f) h (fun g hg => ?_) (fun r c hr hc => ?_) g
    · exact (sameFor_writeStatus hg).trans (sameFor_deploying hg none)
    · obtain rfl | ⟨-, hold⟩ := records_writeStatus hr
      · cases hc
      · refine ⟨?_, fun run hrun => absurd (deploying_release.symm.trans hrun) nofun⟩
        simpa [Host.UpToDate, Host.release] using (h f r c hold hc).1
  · cases hn

/-- A deployer that begins leaves no record of a commit in its environment. -/
theorem Host.sound_announce (h : ∀ g, s.SoundAt g) (hc : s.Undisturbed (.announce f written))
    (hn : s.next c (.announce f written) = some t) (g) : t.SoundAt g := by
  simp only [Host.next] at hn
  split at hn
  · rename_i environment type dir previous hd
    obtain rfl := Option.some.inj hn
    refine sound_of_sameFor (f := f) h (fun g hg => ?_) (fun r c hr hcommit => ?_) g
    -- The new record is of no commit, and those of other fraises stay.
    · have hw : s.SameFor (s.writeStatus dir f ⟨environment, "deploying", none⟩ written) g :=
        sameFor_writeStatus hg
      refine hw.trans ?_
      rw [← deploying_writeStatus]
      exact sameFor_deploying hg _
    · obtain rfl | ⟨hunwritten, hold⟩ := records_writeStatus hr
      · cases hcommit
      · refine ⟨by simpa [Host.UpToDate] using (h f r c hold hcommit).1, fun run hrun he => ?_⟩
        change Function.update s.deploying f _ f = some run at hrun
        rw [Function.update_self] at hrun
        obtain rfl := Option.some.inj hrun
        exact absurd (hc _ r hd hold he.symm (by simp [hcommit])) hunwritten
  · cases hn

/-- What a deployer puts in place is in its own environment, of which no record names a commit. -/
theorem Host.sound_move {version : Option String} (h : ∀ g, s.SoundAt g)
    (hn : s.next c (.move f version) = some t) (g) : t.SoundAt g := by
  simp only [Host.next] at hn
  split at hn
  · rename_i environment config previous hd
    obtain rfl := Option.some.inj hn
    refine sound_of_sameFor (f := f) h (fun g hg => sameFor_deploy hg version) ?_ g
    refine (h f).goes hd rfl (fun r c hr _ => .inl hr) (fun e he => ⟨?_, rfl⟩) (.inr rfl)
    exact Function.update_of_ne (by simp [he]) ..
  · cases hn

/-- The end of a run: `u` is what it leaves, and `r` its last record. -/
theorem Host.sound_end {u : Host} (h : ∀ g, s.SoundAt g) (hd : s.deploying f = some run)
    (ha : run.announced = true) (he : r.environment = run.environment)
    (hrecords : u.records = s.records) (hsame : ∀ g, g ≠ f → s.SameFor u g)
    (hothers : ∀ e, e ≠ run.environment → u.deployed (f, e) = s.deployed (f, e) ∧
      u.lastSuccess (f, e) = s.lastSuccess (f, e))
    (hup : ∀ c, r.commitSha = some (Commit.hash c) → u.UpToDate f run.environment c) (g) :
    ((u.writeStatus dir f r written).release f).SoundAt g := by
  refine sound_of_sameFor (f := f) h (fun g hg => ?_) ?_ g
  · exact (hsame g hg).trans ((sameFor_writeStatus hg).trans (sameFor_deploying hg none))
  · refine (h f).goes hd ha (fun r' c hr' hcommit => ?_) ?_ (.inl deploying_release)
    · obtain rfl | ⟨-, hold⟩ := records_writeStatus hr'
      · have hup := hup c hcommit
        exact .inr ⟨by simpa [Host.UpToDate, Host.release, he] using hup, deploying_release⟩
      · exact .inl (hrecords ▸ hold)
    · simpa [Host.release] using hothers

/-- A success is of what is deployed; a rollback puts back what the last success was of. -/
theorem Host.sound_finish {outcome : Outcome} (h : ∀ g, s.SoundAt g)
    (hc : s.Undisturbed (.finish f outcome written))
    (hn : s.next c (.finish f outcome written) = some t) (g) : t.SoundAt g := by
  simp only [Host.next] at hn
  split at hn
  · rename_i environment type dir previous hd
    obtain ⟨u, hu, rfl⟩ := Option.map_eq_some_iff.mp hn
    have hne : ∀ e, e ≠ environment → (f, e) ≠ (f, environment) :=
      fun e he h => he (congrArg Prod.snd h)
    -- Another outcome changes nothing that is deployed.
    have hquiet : ∀ state,
        ((s.writeStatus dir f ⟨environment, state, none⟩ written).release f).SoundAt g := by
      intro state
      refine sound_end h hd rfl rfl rfl (fun _ _ => ⟨rfl, rfl, fun _ => rfl, fun _ => rfl⟩)
        (fun _ _ => ⟨rfl, rfl⟩) (fun c hcommit => ?_) g
      cases hcommit
    -- The cases are the outcomes.
    cases outcome with
    | success timerState =>
      obtain rfl := Option.some.inj hu
      refine sound_end
        (u := { s with
          lastSuccess := Function.update s.lastSuccess (f, environment)
            (s.deployed (f, environment)) })
        h hd rfl rfl rfl (fun g hg => sameFor_lastSuccess hg _)
        (fun e he => ⟨rfl, Function.update_of_ne (hne e he) ..⟩) (fun c hcommit => ?_) g
      have hversion := FraiseType.commitSha_hash hcommit
      exact ⟨(Function.update_self ..).trans hversion, hversion⟩
    | failed => exact Option.some.inj hu ▸ hquiet "failed"
    | rolledBack =>
      cases previous with
      | none => cases hu
      | some target =>
        obtain rfl := Option.some.inj hu
        refine sound_end (u := s.deploy f environment (some target)) h hd rfl rfl rfl
          (fun g hg => sameFor_deploy hg _)
          (fun e he => ⟨Function.update_of_ne (hne e he) .., rfl⟩) (fun c hcommit => ?_) g
        exact ⟨(hc _ hd).trans hcommit, (Function.update_self ..).trans hcommit⟩
    | rollbackFailed => exact Option.some.inj hu ▸ hquiet "rollback_failed"
  · cases hn

/-- A run that ends without a word leaves what the record says. -/
theorem Host.sound_stop (h : ∀ g, s.SoundAt g) (hn : s.next c (.stop f) = some t) (g) :
    t.SoundAt g := by
  obtain ⟨run, -, rfl⟩ := Option.map_eq_some_iff.mp hn
  refine sound_of_sameFor (f := f) h (fun g hg => sameFor_deploying hg none) (fun r c hr hc => ?_) g
  refine ⟨(h f r c hr hc).1, fun run hrun => absurd (deploying_release.symm.trans hrun) nofun⟩

/-- What every undisturbed step preserves. -/
theorem Host.sound_next (h : ∀ g, s.SoundAt g) (hc : s.Undisturbed i) (hn : s.next c i = some t) :
    ∀ g, t.SoundAt g := by
  cases i with
  | push branch commit =>
    exact fun g => Option.some.inj hn ▸ (h g).same ⟨rfl, rfl, fun _ => rfl, fun _ => rfl⟩
  | start k => exact sound_start h hn
  | refuse fraise written => exact sound_refuse h hn
  | announce fraise written => exact sound_announce h hc hn
  | move fraise version => exact sound_move h hn
  | finish fraise outcome written => exact sound_finish h hc hn
  | stop fraise => exact sound_stop h hn

/-- The gate drops a task if the record names its commit. -/
theorem alreadyDeployed_iff {current : Option DeploymentStatusFile} {gitCommit : Option Commit} :
    alreadyDeployed current gitCommit = true ↔
      ∃ r c, current = some r ∧ gitCommit = some c ∧ r.commitSha = some c.hash := by
  cases current <;> cases gitCommit <;> simp [alreadyDeployed]

/-- In an undisturbed run the gate drops a task only if the last successful deployment to its own
fraise and environment was of its commit, and that is what is deployed there. -/
theorem skips_up_to_date {is : List Step} (hs : s.Fresh)
    (h : (webhook c).Runs Host.Undisturbed s is t) : (webhook c).Runs Host.SkipsUpToDate s is t := by
  refine h.imp (I := fun s => ∀ g, s.SoundAt g) (fun s i t hsound hc hn => Host.sound_next hsound hc hn)
    (fun s i hsound hc => ?_) fun g r c hr => ?_
  · rintro k task rfl htask hskip
    obtain ⟨r, commit, hr, hcommit, hsha⟩ := alreadyDeployed_iff.mp hskip
    have he := hc task r htask hr (by rw [hsha, hcommit]; rfl) (by simp [hsha])
    exact ⟨commit, hcommit, he ▸ (hsound task.fraise r commit hr hsha).1⟩
  · rw [hs.records] at hr
    cases hr

/-- One fraise, deployed from `main` to two environments. -/
def twoEnvironments : Config where
  branchMapping _ := [{ fraise := some "api", environment := some "staging" },
    { fraise := some "api", environment := some "production" }]
  getFraiseEnvironment _ _ := some { type := some .api }

def headCommit : Commit where
  hash := "0123456789abcdef0123456789abcdef01234567"
  length := by decide
  digits := by decide

/-- A push, and the deploy to the first environment. -/
def firstDeploy : List Step :=
  [.push "main" (some headCommit), .start 0, .announce "api" true, .move "api" headCommit.hash,
    .finish "api" (.success none) true]

example : (twoEnvironments.getFraisesForBranch "main").map (·.1) =
    [("api", "staging"), ("api", "production")] := by decide

/-- The push comes again, and the task for the first environment is dropped. -/
theorem skips_up_to_date_again :
    ∃ t, (webhook twoEnvironments).Runs Host.SkipsUpToDate {}
        (firstDeploy ++ [.push "main" (some headCommit), .start 1]) t ∧
      t.pending.map (·.environment) = ["production", "production"] ∧ t.deploying "api" = none := by
  have hrun : (webhook twoEnvironments).Runs Host.Undisturbed {}
      (firstDeploy ++ [.push "main" (some headCommit), .start 1]) _ :=
    .cons trivial rfl <| .cons (fun _ _ _ hr => nomatch hr) rfl <|
    .cons (fun _ _ _ hr => nomatch hr) rfl <| .cons trivial rfl <| .cons trivial rfl <|
    .cons trivial rfl <| .cons (fun _ _ htask hr _ _ => by cases htask; cases hr; rfl) rfl <| .nil _
  exact ⟨_, skips_up_to_date ⟨fun _ => rfl, fun _ => rfl⟩ hrun, by decide, rfl⟩

/-- The deploy to the second environment is skipped, with nothing deployed there. -/
theorem skips_other_environment :
    ¬∀ is t, (webhook twoEnvironments).Runs System.Any {} is t →
      (webhook twoEnvironments).Runs Host.SkipsUpToDate {} is t := by
  intro h
  have hrun : (webhook twoEnvironments).Runs Host.SkipsUpToDate {} (firstDeploy ++ .start 0 :: []) _ :=
    h _ _ (System.runs_of_run rfl)
  obtain ⟨commit, -, hup⟩ := hrun.meets rfl 0 _ rfl rfl rfl
  exact absurd hup.2 nofun

end Fraisier.Webhook
