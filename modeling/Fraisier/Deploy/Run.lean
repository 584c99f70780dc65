import Fraisier.Lib.Program
import Fraisier.Deploy.Errors
import Fraisier.Deploy.Settings

/-!
# One run of a deploy

What a run of `APIDeployer._execute` is: the deployer's own attributes, what has been done so far
(`Deed`), and the deploy timer (`deployment_timeout`), which raises `DeploymentTimeoutExpired`
once, at a point between two statements or inside a call. Everything the run asks of the world
outside is answered by an `Env`: which calls fail and how, whether a call that did not return had
its effect, and when the timer goes off.

The trace of a run is the list of its events, oldest first. `Run.alarm` reads off it which
`except Exception` clauses stood open when the timer went off, and what was done before and after
that.
-/

namespace Fraisier.Deploy

/-! ## Events -/

/-- The steps of a deploy. -/
inductive DeployStep
  | gitPull | install | migrate | restart
  deriving DecidableEq, Repr

/-- What is asked of the service manager. -/
inductive Verb
  | start | stop | restart
  deriving DecidableEq, Repr

/-- `DeploymentStatusFile`, as far as the deploy path fills it. -/
structure StatusRecord where
  state : String
  errorMessage : Option String := none
  commitSha : Option String := none
  deriving DecidableEq, Repr

/-- The two ways back to the previous commit: `rollback`, and `_restore_previous_state`. -/
inductive Way
  | rollback | restore
  deriving DecidableEq, Repr

/-- What a run does that the world, or a later step of the run, can see. -/
inductive Deed
  /-- A step of the deploy begins. -/
  | step (d : DeployStep)
  /-- The run's timeout handler is entered. -/
  | handleTimeout
  /-- The run's handler for every other failure is entered. -/
  | handleFailure
  /-- A status record is written. -/
  | status (r : StatusRecord)
  /-- The deploy's own checkout puts `sha` into the worktree. -/
  | pulled (sha : String)
  /-- A rollback's `git checkout -f sha`. -/
  | checkout (sha : String)
  /-- A rollback's `git reset --soft sha` has returned: the worktree is at `sha`. -/
  | reverted (sha : String)
  /-- The service manager is asked to act on the service. -/
  | service (v : Verb)
  /-- The root helper is sent a request to stop the cluster. -/
  | stopAsked
  /-- The root helper has answered that the cluster is stopped. -/
  | stopAnswered
  /-- The physical restore has passed all of its checks. -/
  | restorePassed
  /-- The stop of `_fail_closed` ended in an exception that `_fail_closed` does not catch. -/
  | stopRaised
  /-- The `finally` clause of `_run_strategy` raised, in place of the exception on its way out. -/
  | replaced
  /-- `n` migrations are committed to the database. -/
  | migrated (n : ℕ)
  /-- `n` migrations are undone in the database. -/
  | reversed (n : ℕ)
  /-- The database is put back from the template taken before the migrations. -/
  | templateRestored
  /-- A way back to the previous commit is entered. -/
  | goingBack (way : Way)
  /-- `_migrations_applied` is assigned. -/
  | counted (n : ℕ)
  /-- The strategy's `rollback` was asked to undo `steps` migrations and reported `success`. -/
  | rolledBack (steps : ℕ) (success : Bool)
  /-- An incident file is written. -/
  | incident (message : String)
  /-- The live configuration is copied to `fraises.yaml.prev`. -/
  | configKept
  /-- The checkout's configuration is moved onto the live path. -/
  | configInstalled
  /-- The kept copy is moved back onto the live path. -/
  | configRestored
  /-- The kept copy is removed. -/
  | configDiscarded
  /-- The smoke tests halt the run, which goes back to nothing. -/
  | smokeTestsHalted
  /-- What `_restore_previous_state` did raised, and was caught there. -/
  | restoreRaised
  /-- `_config_replaced` is assigned: whether the deployer now knows of a kept copy. -/
  | configNoted (known : Bool)
  deriving DecidableEq, Repr

/-- The parts of a run that a function may touch: an attribute of the deployer, a kind of deed, or
both. -/
inductive Aspect
  | step | outcome | record | worktree | service | cluster | database | applied | rollback
  | incident | config | settings | previous | interrupted | version
  deriving DecidableEq, Repr

/-- The aspect of a run that a deed belongs to. -/
def Deed.aspect : Deed → Aspect
  | .step _ => .step
  | .handleTimeout | .handleFailure => .outcome
  | .status _ => .record
  | .pulled _ | .checkout _ | .reverted _ => .worktree
  | .service _ => .service
  | .stopAsked | .stopAnswered | .restorePassed | .stopRaised | .replaced => .cluster
  | .migrated _ | .reversed _ | .templateRestored => .database
  | .counted _ => .applied
  | .goingBack _ | .rolledBack _ _ | .smokeTestsHalted | .restoreRaised => .rollback
  | .incident _ => .incident
  | .configKept | .configInstalled | .configRestored | .configDiscarded | .configNoted _ => .config

/-- The clauses between a statement and the run's own handlers that do not let the timer's
exception through: each `except Exception` (or `BaseException`) of the deploy path, a callee's
own, and a `finally` whose clean-up raises. -/
inductive Handler
  | prePullSync | postPullSync | detectConfigChanges | reRender | projectName | refreshConfig
  | restoreSyncedConfig | templateDir | syncTemplateDir | deployedConfig | staleness
  | versionJson | migratedUrl | httpCheck | checkWithRetries | stopService | startService
  | readDataDirectory | failClosed | databaseSize | notifier | restorePreviousState
  | callee | cleanup
  deriving DecidableEq, Repr

/-- What stands in the trace of a run. -/
inductive Event
  /-- Something is done. -/
  | did (d : Deed)
  /-- The timer goes off, with these handlers open, innermost first. -/
  | expired (handlers : List Handler)
  /-- An exception on its way out is replaced by one that a `finally` clause raised. -/
  | displaced (e : Exn)
  deriving DecidableEq, Repr

/-- What is done in an event. -/
def Event.deeds : Event → List Deed
  | .did d => [d]
  | _ => []

/-! ## The deployer -/

/-- `ConfigReplacement`: the live configuration this run replaced, and where it is kept. -/
structure ConfigReplacement where
  live : String
  previous : String
  deriving DecidableEq, Repr

/-- A database strategy as `get_strategy` builds it. -/
inductive Strategy
  | migrate (dump : DumpConfig) (dbName : String)
  | rebuild (roles : List String) (createTemplate : Bool)
  | restoreMigrate (cfg : RestoreConfig) (serviceName : Option String)
  deriving DecidableEq, Repr

/-- The attributes of an `APIDeployer` that change during a run. -/
structure Attributes where
  settings : Settings := {}
  /-- `_previous_sha`. -/
  previousSha : Option String := none
  /-- The variable `old_version` of `_execute`. -/
  oldVersion : Option String := none
  /-- `_migrations_applied`. -/
  migrationsApplied : ℕ := 0
  /-- `_executed_strategy`. -/
  executedStrategy : Option Strategy := none
  /-- `_template_taken` of the executed strategy. -/
  templateTaken : Option Bool := none
  /-- `_config_replaced`. -/
  configReplaced : Option ConfigReplacement := none
  /-- `_rollback_interrupted_by_timeout`. -/
  rollbackInterrupted : Bool := false
  /-- `_version_json_snapshotted`. -/
  versionJsonSnapshotted : Bool := false
  /-- `_version_json_existed`. -/
  versionJsonExisted : Bool := false
  /-- `_version_json_snapshot`. -/
  versionJsonSnapshot : Option String := none
  deriving DecidableEq, Repr

/-- Two values of the attributes agree on what belongs to an aspect. -/
def Attributes.Agree (x y : Attributes) : Aspect → Prop
  | .settings => y.settings = x.settings
  | .previous => y.previousSha = x.previousSha ∧ y.oldVersion = x.oldVersion
  | .applied => y.migrationsApplied = x.migrationsApplied ∧
      y.executedStrategy = x.executedStrategy ∧ y.templateTaken = x.templateTaken
  | .config => y.configReplaced = x.configReplaced
  | .interrupted => y.rollbackInterrupted = x.rollbackInterrupted
  | .version => y.versionJsonSnapshotted = x.versionJsonSnapshotted ∧
      y.versionJsonExisted = x.versionJsonExisted ∧
      y.versionJsonSnapshot = x.versionJsonSnapshot
  | _ => True

/-- Attributes agree with themselves. -/
theorem Attributes.Agree.refl (x : Attributes) (a : Aspect) : x.Agree x a := by
  cases a <;> simp [Attributes.Agree]

/-- Attributes that agree with the same agree. -/
theorem Attributes.Agree.trans {x y z : Attributes} {a : Aspect} (h : x.Agree y a)
    (h' : y.Agree z a) : x.Agree z a := by
  cases a <;> simp_all [Attributes.Agree]

/-! ## The timer -/

/-- What the trace says about the timer. -/
structure Alarm where
  /-- The handlers that stood between the timer's exception and the run's own handler, once it
  went off. -/
  expiry : Option (List Handler) := none
  /-- What was done before it. -/
  early : List Deed := []
  /-- What was done after it. -/
  late : List Deed := []
  deriving DecidableEq, Repr

/-- Reading one more event. -/
def Alarm.see (a : Alarm) : Event → Alarm
  | .expired hs => { a with expiry := a.expiry.orElse fun _ => some hs }
  | .displaced .deploymentTimeoutExpired => { a with expiry := a.expiry.map (.cleanup :: ·) }
  | .displaced (.raised _) => a
  | .did d =>
    if a.expiry.isSome then { a with late := a.late ++ [d] }
    else { a with early := a.early ++ [d] }

/-- The record splits the deeds `ds` at the point where the timer went off. -/
structure Alarm.Sorts (a : Alarm) (ds : List Deed) : Prop where
  split : a.early ++ a.late = ds
  fresh : a.expiry = none → a.late = []

/-- The alarm keeps the deeds sorted as events come. -/
theorem Alarm.Sorts.see {a : Alarm} {ds : List Deed} (h : a.Sorts ds) (e : Event) :
    (a.see e).Sorts (ds ++ e.deeds) := by
  obtain ⟨rfl, hf⟩ := h
  cases e with
  | did d =>
    cases hx : a.expiry with
    | none => exact ⟨by simp [Alarm.see, hx, Event.deeds, hf hx], by simp [Alarm.see, hx, hf hx]⟩
    | some hs => exact ⟨by simp [Alarm.see, hx, Event.deeds], by simp [Alarm.see, hx]⟩
  | expired hs => exact ⟨by simp [Alarm.see, Event.deeds], by simp [Alarm.see]⟩
  | displaced x =>
    cases x with
    | deploymentTimeoutExpired =>
      exact ⟨by simp [Alarm.see, Event.deeds], by simpa [Alarm.see] using hf⟩
    | raised f => exact ⟨by simp [Alarm.see, Event.deeds], by simpa [Alarm.see] using hf⟩

/-- What a call that the timer interrupts does with the exception. -/
inductive Reaction
  /-- It lets the exception through. -/
  | passed
  /-- It catches the exception and returns. -/
  | absorbed
  /-- It catches the exception and raises another. -/
  | turned (f : Fault)
  deriving DecidableEq, Repr

/-- Where, at one statement, the timer goes off. -/
inductive Moment
  /-- Before the statement. -/
  | before
  /-- While it runs, or after its effect and before its value is stored. -/
  | inside (r : Reaction)
  deriving DecidableEq, Repr

/-! ## The world -/

/-- What `Migrator.up` did and how it ended. -/
inductive UpRun
  /-- It returned, having committed `applied` migrations; `incomplete` says why the batch did not
  complete, if it did not. -/
  | returned (applied : ℕ) (incomplete : Option String)
  /-- A gate refused the batch before its first migration. `advice` is fraisier's text for the
  gate, if it knows it. -/
  | refused (message : String) (advice : Option String)
  /-- Another session held confiture's lock. -/
  | lockBusy
  deriving DecidableEq, Repr

/-- How many migrations the call committed. -/
def UpRun.committed : UpRun → ℕ
  | .returned n _ => n
  | _ => 0

/-- What `Migrator.down` did. -/
inductive DownRun
  /-- It reversed the migrations it was asked to. -/
  | complete
  /-- It reversed some of them and failed. -/
  | failed (reversed : ℕ) (error : String)
  deriving DecidableEq, Repr

/-- How many of `steps` migrations the call reversed. -/
def DownRun.reversed (steps : ℕ) : DownRun → ℕ
  | .complete => steps
  | .failed n _ => min n steps

/-- What stays fixed during a run: the fraise and its environment, and the keys of
`RUN_ANCHORED_CONFIG_KEYS` that the modelled functions read. -/
structure Fraise where
  fraiseName : String := "api"
  environment : String := "production"
  appPath : Option String := some "/srv/api"
  cloneUrl : Option String := none
  deployUser : Option String := none
  /-- `_opt_config_path()`. -/
  optConfigPath : String := "/opt/fraisier/fraises.yaml"
  /-- The settings the deployer was constructed with. -/
  settings : Settings := {}
  /-- `timeout`, in seconds. -/
  timeout : ℕ := 600
  /-- The notifiers that an outcome of the deploy is sent to. -/
  notifiers : ℕ := 0
  deriving DecidableEq, Repr

/-- The world of a run. Every statement has a number, and the world answers by number. -/
structure Env where
  /-- The fraise being deployed. -/
  fraise : Fraise := {}
  /-- When the timer goes off. -/
  timer : Option (ℕ × Moment) := none
  /-- The exception a call raises. -/
  fault : ℕ → Option Fault := fun _ => none
  /-- Whether a call that did not return had its effect. -/
  took : ℕ → Bool := fun _ => true
  /-- Whether a status write fails. -/
  statusFails : ℕ → Bool := fun _ => false
  /-- Answers of yes or no. -/
  flag : ℕ → Bool := fun _ => true
  /-- Answers that are texts. -/
  text : ℕ → String := fun _ => ""
  /-- Answers that are counts. -/
  count : ℕ → ℕ := fun _ => 0
  /-- The commits that `git rev-parse` finds. -/
  sha : ℕ → Option String := fun _ => none
  /-- What `Migrator.up` does. -/
  up : ℕ → UpRun := fun _ => .returned 0 none
  /-- What `Migrator.down` does. -/
  down : ℕ → DownRun := fun _ => .complete
  /-- The settings a re-read of the configuration finds. -/
  fresh : ℕ → Option Settings := fun _ => none

/-! ## Runs -/

/-- The state of a run. -/
structure Run where
  /-- How many statements have been reached. -/
  clock : ℕ := 0
  /-- The run is inside `with deployment_timeout(timeout)`. -/
  armed : Bool := false
  /-- The handlers open around the current statement, innermost first. -/
  handlers : List Handler := []
  /-- The deployer's attributes. -/
  self : Attributes := {}
  /-- What has happened, oldest first. -/
  trace : List Event := []
  deriving DecidableEq, Repr

namespace Run

/-- What the run has shown of the timer. -/
def alarm (s : Run) : Alarm := s.trace.foldl Alarm.see {}

/-- What the run has done. -/
def deeds (s : Run) : List Deed := s.trace.flatMap Event.deeds

/-- The next statement is reached. -/
def tick (s : Run) : Run := { s with clock := s.clock + 1 }

/-- An event happens. -/
def see (s : Run) (e : Event) : Run := { s with trace := s.trace ++ [e] }

/-- A handler is opened. -/
def enter (s : Run) (h : Handler) : Run := { s with handlers := h :: s.handlers }

/-- The innermost handler is closed. -/
def leave (s : Run) : Run := { s with handlers := s.handlers.tail }

/-- The run enters the `deployment_timeout` block, or leaves it. -/
def arm (s : Run) (armed : Bool) : Run := { s with armed }

/-- Where the timer goes off at this statement, if it does: only inside the block, and once. -/
def due (s : Run) (env : Env) : Option Moment :=
  match env.timer with
  | none => none
  | some (n, m) => if s.armed && n == s.clock && s.alarm.expiry.isNone then some m else none

/-- A tick changes no attribute. -/
@[simp] theorem tick_self (s : Run) : s.tick.self = s.self := rfl
/-- A tick is no event. -/
@[simp] theorem tick_trace (s : Run) : s.tick.trace = s.trace := rfl
/-- A tick leaves the timer as it is. -/
@[simp] theorem tick_armed (s : Run) : s.tick.armed = s.armed := rfl
/-- A tick leaves the handlers. -/
@[simp] theorem tick_handlers (s : Run) : s.tick.handlers = s.handlers := rfl
/-- A tick leaves the alarm. -/
@[simp] theorem tick_alarm (s : Run) : s.tick.alarm = s.alarm := rfl
/-- An event changes no attribute. -/
@[simp] theorem see_self (s : Run) (e : Event) : (s.see e).self = s.self := rfl
/-- An event is put at the end of the trace. -/
@[simp] theorem see_trace (s : Run) (e : Event) : (s.see e).trace = s.trace ++ [e] := rfl
/-- An event leaves the timer as it is. -/
@[simp] theorem see_armed (s : Run) (e : Event) : (s.see e).armed = s.armed := rfl
/-- An event leaves the handlers. -/
@[simp] theorem see_handlers (s : Run) (e : Event) : (s.see e).handlers = s.handlers := rfl
/-- Entering a handler changes no attribute. -/
@[simp] theorem enter_self (s : Run) (h : Handler) : (s.enter h).self = s.self := rfl
/-- Entering a handler is no event. -/
@[simp] theorem enter_trace (s : Run) (h : Handler) : (s.enter h).trace = s.trace := rfl
/-- Entering a handler leaves the timer as it is. -/
@[simp] theorem enter_armed (s : Run) (h : Handler) : (s.enter h).armed = s.armed := rfl
/-- Entering a handler leaves the alarm. -/
@[simp] theorem enter_alarm (s : Run) (h : Handler) : (s.enter h).alarm = s.alarm := rfl
/-- Leaving a handler changes no attribute. -/
@[simp] theorem leave_self (s : Run) : s.leave.self = s.self := rfl
/-- Leaving a handler is no event. -/
@[simp] theorem leave_trace (s : Run) : s.leave.trace = s.trace := rfl
/-- Leaving a handler leaves the timer as it is. -/
@[simp] theorem leave_armed (s : Run) : s.leave.armed = s.armed := rfl
/-- Leaving a handler leaves the alarm. -/
@[simp] theorem leave_alarm (s : Run) : s.leave.alarm = s.alarm := rfl

/-- Arming the timer changes no attribute. -/
@[simp] theorem arm_self (s : Run) (b : Bool) : (s.arm b).self = s.self := rfl
/-- Arming the timer is no event. -/
@[simp] theorem arm_trace (s : Run) (b : Bool) : (s.arm b).trace = s.trace := rfl
/-- The timer is armed as it was told. -/
@[simp] theorem arm_armed (s : Run) (b : Bool) : (s.arm b).armed = b := rfl
/-- Arming the timer leaves the handlers. -/
@[simp] theorem arm_handlers (s : Run) (b : Bool) : (s.arm b).handlers = s.handlers := rfl
/-- Arming the timer leaves the alarm. -/
@[simp] theorem arm_alarm (s : Run) (b : Bool) : (s.arm b).alarm = s.alarm := rfl

/-- The alarm sees each event. -/
@[simp] theorem see_alarm (s : Run) (e : Event) : (s.see e).alarm = s.alarm.see e := by
  simp [alarm]

/-- What was done is what was done before the timer went off and what was done after. -/
theorem sorts (s : Run) : s.alarm.Sorts s.deeds := by
  suffices h : ∀ (es : List Event) (a : Alarm) (ds : List Deed), a.Sorts ds →
      (es.foldl Alarm.see a).Sorts (ds ++ es.flatMap Event.deeds) from
    h s.trace {} [] ⟨rfl, fun _ => rfl⟩
  intro es
  induction es with
  | nil => intro a ds h; simpa using h
  | cons e es ih =>
    intro a ds h
    simpa using ih (a.see e) (ds ++ e.deeds) (h.see e)

/-- A statement at which the timer goes off lies inside the block, and it had not gone off. -/
theorem armed_of_due {s : Run} {env : Env} {m : Moment} (h : s.due env = some m) :
    s.armed = true ∧ s.alarm.expiry = none := by
  unfold due at h
  split at h
  · cases h
  · split at h
    · rename_i hc
      simp only [Bool.and_eq_true, Option.isNone_iff_eq_none] at hc
      exact ⟨hc.1.1, hc.2⟩
    · cases h

end Run

end Fraisier.Deploy
