import Fraisier.Lib.System
import Fraisier.Lib.Text

/-!
# The ways to a fraise's deployer

Three entry points change the worktree, the database and the service of a fraise: a webhook deploy
(`execute_deployment` of `webhook.py`), a deploy request of the daemon
(`execute_deployment_request` of `daemon.py`) and the command `fraisier rollback`
(`cli/_rollback.py`). The first two run the deployer under `deployment_lock`, under the fraise's
name. The command takes no lock.

`changed_by_one` says that the lock keeps the others apart: in every run in which no rollback and
no other call are in the deployer together, one process at a time is at its changes, and whoever
finds it there at the lock is refused. `rollback_overlaps` is a run with a rollback in the middle of
a deploy.
-/

namespace Fraisier.Locking

open Fraisier.Lib Str

variable {P : Type}

/-! ## The lock -/

/-- What the deployer changes. -/
inductive Change
  | worktree | database | service
  deriving DecidableEq, Repr

/-- `DEFAULT_LOCK_DIR`. -/
def defaultLockDir : PurePath := .of "/run/fraisier".toList

/-- `deployment_lock` with the file backend, as far as the path that `file_deployment_lock` locks.
Without a configuration file the lock directory is the default, and a relative one is a
`ValueError`. -/
def deploymentLock (lockDir : Option PurePath) (fraise : Str) : Option PurePath :=
  let dir := lockDir.getD defaultLockDir
  if dir.isAbsolute then some (dir.join (fraise ++ ".lock".toList)) else none

/-! ## Entry points -/

/-- How a call ends. -/
inductive Ending
  /-- `DeploymentLockError`, with its message. -/
  | refused (message : Str)
  /-- The `ValueError` of a relative lock directory. -/
  | relativeLockDir
  /-- The call returned before it reached the deployer, with what it said. -/
  | returned (message : String)
  /-- The deployer returned. -/
  | finished
  /-- The process died, or another exception ended the call. -/
  | died
  deriving DecidableEq, Repr

/-- What a call comes to before it changes anything. -/
inductive Entry
  | returns (message : String)
  /-- `with deployment_lock(fraise): deployer.execute()`. -/
  | underLock
  /-- `deployer.rollback(to_version=target)`. -/
  | unlocked
  deriving DecidableEq, Repr

/-- What `execute_deployment` reads before its lock. -/
structure WebhookDeploy where
  gitCommit : Option String
  /-- The commit of `read_status`, if there is a status file. -/
  recorded : Option (Option String)
  deriving DecidableEq, Repr

/-- `execute_deployment`: a commit that is deployed already is skipped. -/
def executeDeployment (c : WebhookDeploy) : Entry :=
  match c.gitCommit with
  | some sha => if sha ≠ "" && c.recorded = some (some sha) then .returns "already deployed" else .underLock
  | none => .underLock

/-- What `execute_deployment_request` reads before its lock. -/
structure DaemonRequest where
  /-- `get_config` finds a file. -/
  config : Bool := true
  /-- The project and environment are in it. -/
  known : Bool := true
  /-- The daemon runs as the deploy user. -/
  rightUser : Bool := true
  dryRun : Bool := false
  force : Bool := false
  /-- `is_deployment_needed()`. -/
  needed : Bool := true
  deriving DecidableEq, Repr

/-- `execute_deployment_request`. -/
def executeDeploymentRequest (c : DaemonRequest) : Entry :=
  if !c.config then .returns "Configuration file not found"
  else if !c.known then .returns "Project not found"
  else if !c.rightUser then .returns "Wrong user"
  else if c.dryRun then
    if !c.force && !c.needed then .returns "dry_run_no_changes" else .returns "dry_run_plan"
  else if !c.force && !c.needed then .returns "Already up to date"
  else .underLock

/-- A row of the deployment history. -/
structure HistoryRow where
  id : ℕ
  status : String
  newVersion : Option String
  deriving DecidableEq, Repr

/-- What `fraisier rollback` reads: its options, the deployment history and the operator's answer. -/
structure RollbackCommand where
  /-- The fraise and environment are configured. -/
  known : Bool := true
  /-- `_get_deployer` finds a deployer that can roll back. -/
  deployer : Bool := true
  toVersion : Option String := none
  dryRun : Bool := false
  force : Bool := false
  /-- `deployer.get_current_version()`. -/
  current : Option String := none
  /-- The history, or none at a `RemoteHistoryError`. -/
  history : Option (List HistoryRow) := some []
  /-- The answer to `Proceed?`. -/
  confirmed : Bool := true
  deriving DecidableEq, Repr

/-- The most recent successful deployment that is not the current version. -/
def RollbackCommand.targetDeployment (c : RollbackCommand) (history : List HistoryRow) :
    Option HistoryRow :=
  (history.filter (·.status = "success")).find? (·.newVersion ≠ c.current)

/-- The deployment is the eleventh of the history or a later one. -/
def tooFarBack (history : List HistoryRow) (d : HistoryRow) : Bool :=
  match history.findIdx? (·.id = d.id) with
  | some i => 10 ≤ i
  | none => false

/-- The end of `rollback`, with its target. -/
def RollbackCommand.goBack (c : RollbackCommand) : Entry :=
  if c.dryRun then .returns "DRY RUN - No changes will be made"
  else if !c.force && !c.confirmed then .returns "Aborted."
  else .unlocked

/-- `rollback`. -/
def rollback (c : RollbackCommand) : Entry :=
  if !c.known then .returns "not found"
  else if !c.deployer then .returns "does not support rollback"
  else if c.toVersion.any (· ≠ "") then c.goBack
  else match c.history with
    | none => .returns "Check SSH connectivity"
    | some history => match c.targetDeployment history with
      | none => .returns "No previous version found to roll back to"
      | some d =>
        if !d.newVersion.any (· ≠ "") then .returns "No previous version found to roll back to"
        else if !c.force && tooFarBack history d then .returns "Safety limit exceeded"
        else c.goBack

/-- The calls of the three entry points. -/
inductive EntryCall
  | webhook (c : WebhookDeploy)
  | daemon (c : DaemonRequest)
  | rollback (c : RollbackCommand)
  deriving DecidableEq, Repr

/-- What the call comes to. -/
def EntryCall.entry : EntryCall → Entry
  | .webhook c => executeDeployment c
  | .daemon c => executeDeploymentRequest c
  | .rollback c => Locking.rollback c

/-! ## Processes -/

/-- Where a process is. -/
inductive EntryStage
  | idle
  /-- At `with deployment_lock(f)`, with the changes that its deployer would make. -/
  | atLock (f : Str) (work : List Change)
  /-- In the deployer, with the lock it holds, if any, and the changes that are left: it is at the
  first of them. -/
  | inDeployer (f : Str) (lock : Option PurePath) (work : List Change)
  | ended (e : Ending)
  deriving DecidableEq, Repr

/-- The fraise whose deployer the process is in. -/
def EntryStage.fraise : EntryStage → Option Str
  | .inDeployer f _ _ => some f
  | _ => none

/-- The fraise that the process is at the changes of: between the start of its first one and the end
of its last. -/
def EntryStage.changing : EntryStage → Option Str
  | .inDeployer f _ (_ :: _) => some f
  | _ => none

/-- The lock that the process holds. -/
def EntryStage.lock : EntryStage → Option PurePath
  | .inDeployer _ lock _ => lock
  | _ => none

/-- The host: the kernel's locks, the processes and the changes that were made, the last one
first. -/
structure Entries (P : Type) where
  flock : PurePath → Option P
  stage : P → EntryStage
  log : List (P × Str × Change)

/-- What happens next. -/
inductive EntryStep (P : Type)
  /-- A process calls an entry point on a fraise, whose deployer would make these changes. -/
  | call (p : P) (f : Str) (c : EntryCall) (work : List Change)
  /-- It tries the lock. -/
  | lock (p : P)
  /-- It completes the change it is at. -/
  | change (p : P)
  /-- Its deployer returns. -/
  | leave (p : P)
  /-- It dies, or an exception ends its call. -/
  | die (p : P)
  deriving DecidableEq, Repr

section Steps

variable [DecidableEq P]

/-- The process goes on to another stage, and the lock that it held is dropped. -/
def Entries.quit (s : Entries P) (p : P) (e : Ending) : Entries P where
  flock := match (s.stage p).lock with
    | some path => Function.update s.flock path none
    | none => s.flock
  stage := Function.update s.stage p (.ended e)
  log := s.log

/-- The process is somewhere else, with the locks as they were. -/
def Entries.goTo (s : Entries P) (p : P) (a : EntryStage) : Entries P :=
  { s with stage := Function.update s.stage p a }

/-- One step of the processes of a host, whose configuration names the lock directory. -/
def Entries.next (lockDir : Option PurePath) (s : Entries P) : EntryStep P → Option (Entries P)
  | .call p f c work => match s.stage p with
    | .idle => match c.entry with
      | .returns message => some (s.goTo p (.ended (.returned message)))
      | .underLock => some (s.goTo p (.atLock f work))
      | .unlocked => some (s.goTo p (.inDeployer f none work))
    | _ => none
  | .lock p => match s.stage p with
    | .atLock f work => match deploymentLock lockDir f with
      | none => some (s.goTo p (.ended .relativeLockDir))
      | some path => match s.flock path with
        | some _ => some (s.goTo p
            (.ended (.refused ("Deploy already running for ".toList ++ f))))
        | none => some
            { flock := Function.update s.flock path (some p)
              stage := Function.update s.stage p (.inDeployer f (some path) work)
              log := s.log }
    | _ => none
  | .change p => match s.stage p with
    | .inDeployer f lock (c :: work) => some
        { flock := s.flock
          stage := Function.update s.stage p (.inDeployer f lock work)
          log := (p, f, c) :: s.log }
    | _ => none
  | .leave p => match s.stage p with
    | .inDeployer _ _ [] => some (s.quit p .finished)
    | _ => none
  | .die p => some (s.quit p .died)

/-- The system of the processes of a host. -/
def entries (lockDir : Option PurePath) : System (Entries P) (EntryStep P) :=
  ⟨Entries.next lockDir⟩

end Steps

/-! ## One at a time -/

/-- The kernel's locks are those of the processes in a deployer, each under its fraise's name. -/
structure Entries.Sound (lockDir : Option PurePath) (s : Entries P) : Prop where
  held : ∀ path p, s.flock path = some p → ∃ f work, s.stage p = .inDeployer f (some path) work
  holds : ∀ p f path work, s.stage p = .inDeployer f (some path) work →
    s.flock path = some p ∧ deploymentLock lockDir f = some path

/-- Nobody has called anything. -/
structure Entries.Idle (s : Entries P) : Prop where
  flock : ∀ path, s.flock path = none
  stage : ∀ p, s.stage p = .idle
  log : s.log = []

/-- A process that is in the deployer of the fraise without its lock is there alone. -/
def Entries.RollbackAlone (f : Str) (s : Entries P) : Prop :=
  ∀ p q work, s.stage p = .inDeployer f none work → (s.stage q).fraise = some f → q = p

/-- The call has not reached a deployer, or has returned or was refused before it did. -/
def EntryStage.outside : EntryStage → Bool
  | .idle | .atLock _ _ => true
  | .ended (.refused _) | .ended .relativeLockDir | .ended (.returned _) => true
  | _ => false

/-- Whoever has not reached a deployer has changed nothing. -/
def Entries.OutsideUnchanged (s : Entries P) : Prop :=
  ∀ p, (s.stage p).outside = true → ∀ e ∈ s.log, e.1 ≠ p

/-- The condition on a step: a rollback does not enter the deployer of the fraise while another
process is in it, and the lock of the fraise is not tried while a rollback is in its deployer. -/
def RollbackApart (f : Str) (s : Entries P) : EntryStep P → Prop
  | .call _ g c _ => g = f → c.entry = .unlocked → ∀ q, (s.stage q).fraise ≠ some f
  | .lock p => (∃ work, s.stage p = .atLock f work) → ∀ q work, s.stage q ≠ .inDeployer f none work
  | _ => True

/-- One process at a time is at the changes of the fraise. -/
def Entries.OneAtATime (f : Str) (s : Entries P) : Prop :=
  ∀ p q, (s.stage p).changing = some f → (s.stage q).changing = some f → p = q

variable {lockDir : Option PurePath} {f : Str} {s t : Entries P} {p : P} {i : EntryStep P}

/-- Idle entries are sound. -/
theorem Entries.Idle.sound (h : s.Idle) : s.Sound lockDir where
  held path p hp := by
    rw [h.flock] at hp
    cases hp
  holds p f path work hp := by
    rw [h.stage] at hp
    cases hp

/-- Idle entries roll nothing back. -/
theorem Entries.Idle.rollbackAlone (h : s.Idle) : s.RollbackAlone f := by
  intro p q work hp
  rw [h.stage] at hp
  cases hp

/-- Idle entries change nothing from outside. -/
theorem Entries.Idle.outsideUnchanged (h : s.Idle) : s.OutsideUnchanged := by
  intro p hp e he
  rw [h.log] at he
  cases he

/-- What is changed is the fraise of the entry. -/
theorem EntryStage.fraise_of_changing {a : EntryStage} (h : a.changing = some f) :
    a.fraise = some f := by
  unfold changing at h
  split at h
  · exact h
  · cases h

/-- An entry has a fraise inside the deployer. -/
theorem EntryStage.fraise_eq_some {a : EntryStage} :
    a.fraise = some f ↔ ∃ lock work, a = .inDeployer f lock work := by
  constructor
  · intro h
    unfold fraise at h
    split at h
    · obtain rfl := Option.some.inj h
      exact ⟨_, _, rfl⟩
    · cases h
  · rintro ⟨lock, work, rfl⟩
    rfl

/-- Two processes that are in the deployer of one fraise are the same. -/
theorem Entries.Sound.one (h : s.Sound lockDir) (hrollback : s.RollbackAlone f) {q : P}
    (hp : (s.stage p).fraise = some f) (hq : (s.stage q).fraise = some f) : p = q := by
  obtain ⟨lockp, workp, hp'⟩ := EntryStage.fraise_eq_some.mp hp
  obtain ⟨lockq, workq, hq'⟩ := EntryStage.fraise_eq_some.mp hq
  cases lockp with
  | none => exact (hrollback p q workp hp' hq).symm
  | some pathp =>
    cases lockq with
    | none => exact hrollback q p workq hq' hp
    | some pathq =>
      -- both locks are the one under the fraise's name
      obtain ⟨hheldp, hnamep⟩ := h.holds p f pathp workp hp'
      obtain ⟨hheldq, hnameq⟩ := h.holds q f pathq workq hq'
      have hpath : pathp = pathq := Option.some.inj (hnamep.symm.trans hnameq)
      rw [hpath, hheldq] at hheldp
      exact (Option.some.inj hheldp).symm

section Steps

variable [DecidableEq P]

/-- A step that tries the lock of the fraise while another process is at its changes is refused, and
nothing is changed by it. -/
def SecondRefused (lockDir : Option PurePath) (f : Str) (s : Entries P) (i : EntryStep P) : Prop :=
  ∀ p q work t, i = .lock p → s.stage p = .atLock f work → (s.stage q).changing = some f →
    s.next lockDir i = some t →
    t.stage p = .ended (.refused ("Deploy already running for ".toList ++ f)) ∧ t.log = s.log

/-! ### What a step does -/

/-- The locks and the stages after a step. -/
inductive Entries.Moves (lockDir : Option PurePath) (s : Entries P) :
    EntryStep P → Entries P → Prop
  /-- A call returns, or comes to the lock. -/
  | outside (p : P) (i : EntryStep P) (a : EntryStage) (houtside : (s.stage p).outside = true)
      (ha : a.outside = true) : Moves lockDir s i (s.goTo p a)
  /-- A rollback enters the deployer. -/
  | rollback (p : P) (f : Str) (c : EntryCall) (work : List Change) (hp : s.stage p = .idle)
      (hc : c.entry = .unlocked) : Moves lockDir s (.call p f c work) (s.goTo p (.inDeployer f none work))
  /-- A deploy takes its lock. -/
  | take (p : P) (f : Str) (work : List Change) (path : PurePath) (hp : s.stage p = .atLock f work)
      (hpath : deploymentLock lockDir f = some path) (hfree : s.flock path = none) :
      Moves lockDir s (.lock p)
        { flock := Function.update s.flock path (some p)
          stage := Function.update s.stage p (.inDeployer f (some path) work)
          log := s.log }
  /-- A process in a deployer completes a change. -/
  | change (p : P) (f : Str) (lock : Option PurePath) (c : Change) (work : List Change)
      (hp : s.stage p = .inDeployer f lock (c :: work)) :
      Moves lockDir s (.change p)
        { flock := s.flock
          stage := Function.update s.stage p (.inDeployer f lock work)
          log := (p, f, c) :: s.log }
  /-- A process ends, and drops its lock. -/
  | quit (p : P) (i : EntryStep P) (e : Ending) (he : (EntryStage.ended e).outside = false) :
      Moves lockDir s i (s.quit p e)

/-- A step of an entry is a move. -/
theorem Entries.moves_of_next (h : s.next lockDir i = some t) : s.Moves lockDir i t := by
  -- The cases are the steps.
  cases i with
  | call p f c work =>
    simp only [next] at h
    split at h
    · rename_i hp
      have houtside : (s.stage p).outside = true := by rw [hp]; rfl
      split at h <;> obtain rfl := Option.some.inj h
      · exact .outside p _ _ houtside rfl
      · exact .outside p _ _ houtside rfl
      · exact .rollback p f c work hp ‹_›
    · cases h
  | lock p =>
    simp only [next] at h
    split at h
    · rename_i f work hp
      have houtside : (s.stage p).outside = true := by rw [hp]; rfl
      split at h
      · obtain rfl := Option.some.inj h
        exact .outside p _ _ houtside rfl
      · split at h <;> obtain rfl := Option.some.inj h
        · exact .outside p _ _ houtside rfl
        · exact .take p f work _ hp ‹_› ‹_›
    · cases h
  | change p =>
    simp only [next] at h
    split at h
    · obtain rfl := Option.some.inj h
      exact .change p _ _ _ _ ‹_›
    · cases h
  | leave p =>
    simp only [next] at h
    split at h
    · obtain rfl := Option.some.inj h
      exact .quit p _ _ rfl
    · cases h
  | die p =>
    obtain rfl := Option.some.inj h
    exact .quit p _ _ rfl

/-- An entry that goes on is at its new stage. -/
theorem Entries.goTo_stage (s : Entries P) (p : P) (a : EntryStage) :
    (s.goTo p a).stage = Function.update s.stage p a := rfl

/-- An entry that quits has ended. -/
theorem Entries.quit_stage (s : Entries P) (p : P) (e : Ending) :
    (s.quit p e).stage = Function.update s.stage p (.ended e) := rfl

/-- A process that does not hold a lock goes on to a stage that holds none. -/
theorem Entries.Sound.goTo (h : s.Sound lockDir) {a : EntryStage} (hp : (s.stage p).lock = none)
    (ha : a.lock = none) : (s.goTo p a).Sound lockDir where
  held path q hq := by
    obtain ⟨f, work, hstage⟩ := h.held path q hq
    have hne : q ≠ p := by
      rintro rfl
      rw [hstage] at hp
      cases hp
    exact ⟨f, work, (Function.update_of_ne hne _ _).trans hstage⟩
  holds q f path work hq := by
    have hne : q ≠ p := by
      rintro rfl
      rw [show a = .inDeployer f (some path) work from (Function.update_self ..).symm.trans hq] at ha
      cases ha
    exact h.holds q f path work ((Function.update_of_ne hne _ _).symm.trans hq)

/-- The holder of a lock ends, or another process does. -/
theorem Entries.Sound.quit (h : s.Sound lockDir) (p : P) (e : Ending) :
    (s.quit p e).Sound lockDir := by
  -- Only a process that has a lock gives one back.
  cases hlock : (s.stage p).lock with
  | none =>
    have hquit : s.quit p e = s.goTo p (.ended e) := by simp only [Entries.quit, hlock, Entries.goTo]
    rw [hquit]
    exact h.goTo hlock rfl
  | some path =>
    have hflock : (s.quit p e).flock = Function.update s.flock path none := by
      simp only [Entries.quit, hlock]
    -- The lock it has is the one its deployer took.
    obtain ⟨g, work, hp⟩ : ∃ g work, s.stage p = .inDeployer g (some path) work := by
      unfold EntryStage.lock at hlock
      split at hlock
      · exact ⟨_, _, by rw [← hlock]; assumption⟩
      · cases hlock
    refine ⟨fun path' q hq => ?_, fun q f path' work' hq => ?_⟩
    · rw [hflock] at hq
      have hpath : path' ≠ path := by
        rintro rfl
        rw [Function.update_self] at hq
        cases hq
      rw [Function.update_of_ne hpath] at hq
      obtain ⟨f, work', hstage⟩ := h.held path' q hq
      have hne : q ≠ p := by
        rintro rfl
        rw [hp] at hstage
        cases hstage
        exact hpath rfl
      exact ⟨f, work', (Function.update_of_ne hne _ _).trans hstage⟩
    · have hne : q ≠ p := by
        rintro rfl
        cases (Function.update_self ..).symm.trans hq
      have hstage := (Function.update_of_ne hne _ _).symm.trans hq
      obtain ⟨hheld, hname⟩ := h.holds q f path' work' hstage
      have hpath : path' ≠ path := by
        rintro rfl
        exact hne (Option.some.inj (hheld.symm.trans (h.holds p g path' work hp).1))
      rw [hflock, Function.update_of_ne hpath]
      exact ⟨hheld, hname⟩

/-- Outside the deployer no lock is held. -/
theorem EntryStage.lock_of_outside {a : EntryStage} (h : a.outside = true) : a.lock = none := by
  cases a with
  | inDeployer f lock work => cases h
  | _ => rfl

/-- Every step keeps the kernel's locks those of the processes. -/
theorem Entries.Sound.moves (h : s.Sound lockDir) (hm : s.Moves lockDir i t) : t.Sound lockDir := by
  cases hm with
  | outside p i a houtside ha =>
    exact h.goTo (EntryStage.lock_of_outside houtside) (EntryStage.lock_of_outside ha)
  | rollback p f c work hp hc => exact h.goTo (by rw [hp]; rfl) rfl
  -- A lock that is free is taken by one process.
  | take p f work path hp hpath hfree =>
    refine ⟨fun path' q hq => ?_, fun q g path' work' hq => ?_⟩
    · dsimp only at hq ⊢
      by_cases hpp : path' = path
      · rw [hpp, Function.update_self] at hq
        obtain rfl := Option.some.inj hq
        exact ⟨f, work, by rw [Function.update_self, hpp]⟩
      · rw [Function.update_of_ne hpp] at hq
        obtain ⟨g, work', hstage⟩ := h.held path' q hq
        have hne : q ≠ p := by
          rintro rfl
          cases hp.symm.trans hstage
        exact ⟨g, work', by rwa [Function.update_of_ne hne]⟩
    · dsimp only at hq ⊢
      by_cases hqp : q = p
      · rw [hqp, Function.update_self] at hq
        obtain ⟨rfl, hpp, rfl⟩ := EntryStage.inDeployer.inj hq
        obtain rfl := Option.some.inj hpp
        exact ⟨by rw [Function.update_self, hqp], hpath⟩
      · rw [Function.update_of_ne hqp] at hq
        obtain ⟨hheld, hname⟩ := h.holds q g path' work' hq
        have hpp : path' ≠ path := by
          rintro rfl
          cases hfree.symm.trans hheld
        exact ⟨by rwa [Function.update_of_ne hpp], hname⟩
  -- A change moves no lock.
  | change p f lock c work hp =>
    refine ⟨fun path q hq => ?_, fun q g path work' hq => ?_⟩
    · obtain ⟨g, work', hstage⟩ := h.held path q hq
      by_cases hqp : q = p
      · rw [hqp, hp] at hstage
        obtain ⟨rfl, rfl, -⟩ := EntryStage.inDeployer.inj hstage
        exact ⟨f, work, by rw [hqp]; exact Function.update_self ..⟩
      · exact ⟨g, work', (Function.update_of_ne hqp _ _).trans hstage⟩
    · dsimp only at hq ⊢
      by_cases hqp : q = p
      · rw [hqp, Function.update_self] at hq
        obtain ⟨rfl, rfl, -⟩ := EntryStage.inDeployer.inj hq
        rw [hqp]
        exact h.holds p f path (c :: work) hp
      · rw [Function.update_of_ne hqp] at hq
        exact h.holds q g path work' hq
  | quit p i e he => exact h.quit p e

/-- Only a process that is in the deployer of the fraise already, or one that the step puts there,
is there after the step. -/
theorem Entries.Moves.stage_of_fraise (hm : s.Moves lockDir i t) {q : P} {lock : Option PurePath}
    {work : List Change} (hq : t.stage q = .inDeployer f lock work) :
    (∃ work', s.stage q = .inDeployer f lock work') ∨
      (∃ c, i = .call q f c work ∧ c.entry = .unlocked ∧ lock = none) ∨
      ∃ path, i = .lock q ∧ s.stage q = .atLock f work ∧ lock = some path := by
  -- Each move changes the stage of one process only.
  cases hm with
  | outside p i a houtside ha =>
    by_cases hqp : q = p
    · rw [hqp, Entries.goTo_stage, Function.update_self] at hq
      rw [hq] at ha
      cases ha
    · exact .inl ⟨work, (Function.update_of_ne hqp _ _).symm.trans hq⟩
  | rollback p g c work' hp hc =>
    by_cases hqp : q = p
    · rw [hqp] at hq
      have hin := (Function.update_self ..).symm.trans hq
      obtain ⟨rfl, rfl, rfl⟩ := EntryStage.inDeployer.inj hin
      exact .inr (.inl ⟨c, by rw [hqp], hc, rfl⟩)
    · exact .inl ⟨work, (Function.update_of_ne hqp _ _).symm.trans hq⟩
  | take p g work' path hp hpath hfree =>
    by_cases hqp : q = p
    · rw [hqp] at hq
      have hin := (Function.update_self ..).symm.trans hq
      obtain ⟨rfl, rfl, rfl⟩ := EntryStage.inDeployer.inj hin
      exact .inr (.inr ⟨path, by rw [hqp], by rw [hqp]; exact hp, rfl⟩)
    · exact .inl ⟨work, (Function.update_of_ne hqp _ _).symm.trans hq⟩
  | change p g lock' c work' hp =>
    by_cases hqp : q = p
    · rw [hqp] at hq ⊢
      have hin := (Function.update_self ..).symm.trans hq
      obtain ⟨rfl, rfl, rfl⟩ := EntryStage.inDeployer.inj hin
      exact .inl ⟨_, hp⟩
    · exact .inl ⟨work, (Function.update_of_ne hqp _ _).symm.trans hq⟩
  | quit p i e he =>
    by_cases hqp : q = p
    · rw [hqp] at hq
      cases (Function.update_self ..).symm.trans hq
    · exact .inl ⟨work, (Function.update_of_ne hqp _ _).symm.trans hq⟩

/-- A step that keeps rollbacks apart leaves a rollback alone in its deployer. -/
theorem Entries.RollbackAlone.moves (h : s.RollbackAlone f) (hm : s.Moves lockDir i t)
    (hi : RollbackApart f s i) : t.RollbackAlone f := by
  intro p q work hp hq
  obtain ⟨lockq, workq, hq⟩ := EntryStage.fraise_eq_some.mp hq
  obtain ⟨workp, hp'⟩ | ⟨c, rfl, hc, -⟩ | ⟨path, -, -, hlock⟩ := hm.stage_of_fraise hp
  · obtain ⟨workq, hq'⟩ | ⟨c, rfl, hc, -⟩ | ⟨path, rfl, hatLock, -⟩ := hm.stage_of_fraise hq
    · exact h p q workp hp' (by rw [hq']; rfl)
    · exact (hi rfl hc p (by rw [hp']; rfl)).elim
    · exact (hi ⟨_, hatLock⟩ p workp hp').elim
  · obtain ⟨workq, hq'⟩ | ⟨c', hcall, -, -⟩ | ⟨path, hlock, -, -⟩ := hm.stage_of_fraise hq
    · exact (hi rfl hc q (by rw [hq']; rfl)).elim
    · exact (EntryStep.call.inj hcall).1.symm
    · cases hlock
  · cases hlock

/-- A step that changes something is one of a process in a deployer, and a process that left a
deployer is not outside again. -/
theorem Entries.OutsideUnchanged.moves (h : s.OutsideUnchanged) (hm : s.Moves lockDir i t) :
    t.OutsideUnchanged := by
  intro q hq
  -- The log grows by a change, whose process is inside.
  cases hm with
  | outside p i a houtside ha =>
    by_cases hqp : q = p
    · rw [hqp]
      exact h p houtside
    · exact h q (by rwa [Entries.goTo_stage, Function.update_of_ne hqp] at hq)
  | rollback p g c work hp hc =>
    have hqp : q ≠ p := by
      rintro rfl
      rw [Entries.goTo_stage, Function.update_self] at hq
      cases hq
    exact h q (by rwa [Entries.goTo_stage, Function.update_of_ne hqp] at hq)
  | take p g work path hp hpath hfree =>
    dsimp only at hq ⊢
    have hqp : q ≠ p := by
      rintro rfl
      rw [Function.update_self] at hq
      cases hq
    exact h q (by rwa [Function.update_of_ne hqp] at hq)
  | change p g lock c work hp =>
    dsimp only at hq ⊢
    have hqp : q ≠ p := by
      rintro rfl
      rw [Function.update_self] at hq
      cases hq
    rw [Function.update_of_ne hqp] at hq
    intro e he
    obtain rfl | he := List.mem_cons.mp he
    · exact hqp.symm
    · exact h q hq e he
  | quit p i e he =>
    have hqp : q ≠ p := by
      rintro rfl
      rw [Entries.quit_stage, Function.update_self, he] at hq
      cases hq
    exact h q (by rwa [Entries.quit_stage, Function.update_of_ne hqp] at hq)

/-- The lock is held by the process at the changes, so a second one is refused. -/
theorem Entries.Sound.secondRefused (h : s.Sound lockDir) (hi : RollbackApart f s i) :
    SecondRefused lockDir f s i := by
  rintro p q work t rfl hp hq hn
  obtain ⟨lock, workq, hq'⟩ := EntryStage.fraise_eq_some.mp (EntryStage.fraise_of_changing hq)
  cases lock with
  | none => exact (hi ⟨work, hp⟩ q workq hq').elim
  | some path =>
    obtain ⟨hheld, hname⟩ := h.holds q f path workq hq'
    simp only [Entries.next, hp, hname, hheld] at hn
    obtain rfl := Option.some.inj hn
    exact ⟨Function.update_self .., rfl⟩

/-- In every run in which rollbacks keep apart, one process at a time is at the changes of the
fraise, whoever comes second is refused, and whoever was refused has changed nothing. -/
theorem changed_by_one {is : List (EntryStep P)} (hidle : s.Idle)
    (h : (entries lockDir).Runs (RollbackApart f) s is t) :
    t.OneAtATime f ∧ t.OutsideUnchanged ∧ (entries lockDir).Runs (SecondRefused lockDir f) s is t := by
  have hkept : t.Sound lockDir ∧ t.RollbackAlone f ∧ t.OutsideUnchanged := by
    refine h.invariant (I := fun u => u.Sound lockDir ∧ u.RollbackAlone f ∧ u.OutsideUnchanged)
      (fun s i t hs hi hn => ?_) ⟨hidle.sound, hidle.rollbackAlone, hidle.outsideUnchanged⟩
    have hm : s.Moves lockDir i t := Entries.moves_of_next hn
    exact ⟨hs.1.moves hm, hs.2.1.moves hm hi, hs.2.2.moves hm⟩
  obtain ⟨hsound, halone, hunchanged⟩ := hkept
  refine ⟨fun p q hp hq => ?_, hunchanged, ?_⟩
  · exact hsound.one halone (EntryStage.fraise_of_changing hp) (EntryStage.fraise_of_changing hq)
  · exact h.imp (I := Entries.Sound lockDir)
      (fun s i t hs _ hn => hs.moves (Entries.moves_of_next hn))
      (fun s i hs hi => hs.secondRefused hi) hidle.sound

end Steps

/-! ## A rollback during a deploy -/

/-- Nobody has called an entry point yet. -/
def noEntries : Entries ℕ where
  flock _ := none
  stage _ := .idle
  log := []

/-- A push is deployed by process 0; when it has put the new tree there, an operator's rollback to
a given commit, process 1, starts on the tree too. -/
def overlapping : List (EntryStep ℕ) :=
  [.call 0 "api".toList (.webhook { gitCommit := some "4e5f6a7b", recorded := none })
      [.worktree, .database, .service],
    .lock 0, .change 0,
    .call 1 "api".toList (.rollback { toVersion := some "0a1b2c3d", force := true })
      [.worktree, .service],
    .change 1]

/-- Both are at their changes, and the tree has been changed by each. -/
theorem rollback_overlaps :
    ∃ t, (entries none).Runs System.Any noEntries overlapping t ∧
      t.log.map (fun e => (e.1, e.2.2)) = [(1, .worktree), (0, .worktree)] ∧
      ¬t.OneAtATime "api".toList := by
  have hboth : ((entries none).run noEntries overlapping).any (fun t => decide
      (t.log.map (fun e => (e.1, e.2.2)) = [(1, .worktree), (0, .worktree)] ∧
        (t.stage 0).changing = some "api".toList ∧
        (t.stage 1).changing = some "api".toList)) = true := by
    decide
  obtain ⟨t, hr, hlog, hdeploy, hrollback⟩ := System.exists_run hboth
  refine ⟨t, hr, hlog, fun hone => ?_⟩
  cases hone 0 1 hdeploy hrollback

/-- A rollback, and a deploy after it. -/
def inTurn : List (EntryStep ℕ) :=
  [.call 0 "api".toList (.rollback { toVersion := some "0a1b2c3d" }) [.service], .change 0, .leave 0,
    .call 1 "api".toList (.daemon {}) [.service], .lock 1]

/-- In a run of a rollback and then of a daemon, whoever came second would be refused. -/
theorem changed_by_one_in_turn :
    ∃ t, (entries none).Runs (SecondRefused none "api".toList) noEntries inTurn t := by
  have hidle : noEntries.Idle := ⟨fun _ => rfl, fun _ => rfl, rfl⟩
  have hr : ∃ t, (entries none).Runs (RollbackApart "api".toList) noEntries inTurn t := by
    refine ⟨_, .cons (fun _ _ q hq => ?_) rfl (.cons trivial rfl (.cons trivial rfl
      (.cons (fun _ hc => ?_) rfl (.cons (fun _ q work hq => ?_) rfl (.nil _)))))⟩
    · cases hq
    · cases hc
    · simp only [Entries.goTo, Entries.quit, Function.update_apply, noEntries] at hq
      split at hq
      · cases hq
      · split at hq <;> cases hq
  obtain ⟨t, hr⟩ := hr
  exact ⟨t, (changed_by_one hidle hr).2.2⟩

end Fraisier.Locking
