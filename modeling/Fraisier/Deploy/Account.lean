import Fraisier.Deploy.Outcome

/-!
# A property of whole runs

Properties of a run that look past the status record have one shape. Something holds while the
steps of the deploy are taken (`start`, `advanced`); the block is left by an exception (`left`), or
a rollback is made in it (`rolled`); the timeout handler makes a rollback of its own, and the
handler of every other failure restores the previous state (`restored`); and in the end something
holds of the result (`ended`). An `Account` states these predicates and proves what is particular
to the property: a specification of `advance`, of `rollback`, of `restorePreviousState` and of the
two functions that turn a rollback's result into the run's. `Account.ends` does the rest.
-/

namespace Fraisier.Deploy

open Fraisier.Lib

variable {α μ : Type} {env : Env} {w : Watch α μ}

/-- What the watch sees of a deployer that has a commit to go back to. -/
def Watch.HasPrevious (w : Watch α μ) (a : α) : Prop :=
  ∃ x : Attributes, x.previousSha.isSome ∧ a = w.attrs x

/-- What the watch sees of a deployer that has smoke tests. -/
def Watch.HasSmokeTests (w : Watch α μ) (a : α) : Prop :=
  ∃ x : Attributes, x.settings.smokeTestsConfig.isEmpty = false ∧ a = w.attrs x

/-- What a property of whole runs says along the way, and the proofs that are its own. -/
structure Account (env : Env) (w : Watch α μ) where
  /-- When the run begins. -/
  start : α → μ → Prop
  /-- After the steps up to the restart. -/
  advanced : α → μ → Prop
  /-- Where an exception leaves the block. -/
  left : Exn → α → μ → Prop
  /-- At the timeout handler. -/
  expired : α → μ → Prop
  /-- After a rollback, of its result. -/
  rolled : DeploymentResult → α → μ → Prop
  /-- After the previous state was restored, of what was done. -/
  restored : RestoreOutcome → α → μ → Prop
  /-- At the end, of the result. -/
  ended : DeploymentResult → α → μ → Prop
  /-- The property does not look at the record, or at which handler is entered. -/
  blind : .record ∉ w.reads ∧ .outcome ∉ w.reads
  start_init : start (w.attrs env.start.self) w.init
  start_left : ∀ f a m, start a m → left (.raised f) a m
  advance_spec : Spec w start (advance env) (fun _ => advanced) left
  advanced_left : ∀ e a m, advanced a m → left e a m
  rollback_spec : Spec w (fun a m => advanced a m ∧ w.HasPrevious a) (rollback env) rolled
    fun _ => left .deploymentTimeoutExpired
  rollback_expired : Spec w (fun a m => expired a m ∧ w.HasPrevious a) (rollback env) rolled
    fun _ _ _ => True
  build_spec : ∀ r old, Spec w (rolled r) (buildRollbackResult env r old) ended
    fun _ => left .deploymentTimeoutExpired
  buildTimeout_spec : ∀ r old message, Spec w (rolled r)
    (buildTimeoutRollbackResult env r old message) ended fun _ _ _ => True
  ended_left : ∀ r a m, ended r a m → left .deploymentTimeoutExpired a m
  halted : ∀ r a m, r.status = .failed → w.HasSmokeTests a → advanced a m →
    ended r a (w.step m .smokeTestsHalted)
  succeeded : ∀ r a m, r.status = .success → advanced a m → ended r a m
  unreverted : ∀ r x m, x.previousSha = none → r.status = .failed → expired (w.attrs x) m →
    ended r (w.attrs x) m
  restore_spec : ∀ f, Calm w (left (.raised f)) (restorePreviousState env f.keepServiceStopped)
    restored fun _ _ _ => True
  classified : ∀ o text r a m, r.status = (classifyFailure o text).1 → restored o a m → ended r a m

namespace Account

variable (A : Account env w)
include A

/-- What is watched does not look at the record. -/
theorem blind_record : ∀ a ∈ [Aspect.record], a ∉ w.reads := by
  simpa using A.blind.1

/-- What is watched does not look at the outcome. -/
theorem blind_outcome : ∀ a ∈ [Aspect.outcome], a ∉ w.reads := by
  simpa using A.blind.2

/-- A rollback that a step of the deploy ends in raises nothing but the timer's exception. -/
theorem rollback_left : Spec w (fun a m => A.advanced a m ∧ w.HasPrevious a) (rollback env)
    A.rolled A.left :=
  ((rollback_contained env _).spec A.rollback_spec).post (fun _ _ _ => id)
    fun _ _ _ ⟨he, h⟩ => he ▸ h

/-- Reporting a rollback keeps the account. -/
theorem build_left (r : DeploymentResult) (old : Option String) :
    Spec w (A.rolled r) (buildRollbackResult env r old) A.ended A.left :=
  ((buildRollbackResult_contained env _ _).spec (A.build_spec r old)).post (fun _ _ _ => id)
    fun _ _ _ ⟨he, h⟩ => he ▸ h

/-- The bookkeeping at the end of a deploy, during which the timer may go off. -/
theorem ended_frame {K : List Aspect} {β : Type} {p : Piece K β} (hp : Contained p)
    (hK : ∀ a ∈ K, a ∉ w.reads) (r : DeploymentResult) :
    Spec w (A.ended r) p (fun _ => A.ended r) A.left :=
  (hp.spec (Spec.frame hK)).post (fun _ _ _ => id) fun _ _ _ ⟨he, h⟩ => he ▸ A.ended_left r _ _ h

/-! ### The block -/

/-- What a step that may end the deploy leaves. -/
def EndedIfAny (r : Option DeploymentResult) (a : α) (m : μ) : Prop :=
  match r with
  | some r => A.ended r a m
  | none => A.advanced a m

/-- A rollback that a step of the deploy ends in. -/
theorem rollBackAndRecord_spec (dbPk : Option ℕ) (oldVersion : Option String) :
    Spec w (fun a m => A.advanced a m ∧ w.HasPrevious a)
      (do
        let rollbackResult ← rollback env
        let result ← buildRollbackResult env rollbackResult oldVersion
        completeDbRecord env dbPk result
        pure (some result) : Piece rollbackAspects (Option DeploymentResult))
      A.EndedIfAny A.left := by
  refine .lift_bind A.rollback_left fun r => .lift_bind (A.build_left r _) fun r' => ?_
  exact .lift_bind (A.ended_frame (completeDbRecord_contained env _ _) (by simp) r') fun _ =>
    .pure fun _ _ h => h

/-- The health check keeps the account. -/
theorem healthStep_spec (dbPk : Option ℕ) :
    Spec w A.advanced (healthStep env dbPk) A.EndedIfAny A.left := by
  refine .self_bind_any fun me => .ite (fun _ => ?_) fun _ => .pure fun _ _ h => h
  refine .frame_bind (by simp) A.advanced_left fun healthy => .ite (fun _ => .pure fun _ _ h => h) fun _ => ?_
  refine .self_bind fun me => ?_
  cases hp : me.previousSha with
  | none => exact .raise fun a m h => A.advanced_left _ a m h.1
  | some _ =>
    refine (A.rollBackAndRecord_spec dbPk _).pre fun a m h => ⟨h.1, me, ?_, h.2⟩
    rw [hp]
    rfl

/-- A halted run ends as it will, whatever its result says beside that it failed. -/
def Halted (a : α) (m : μ) : Prop := ∀ r : DeploymentResult, r.status = .failed → A.ended r a m

/-- What a halted run still does is looked at by nothing. -/
theorem halted_frame {K : List Aspect} {β : Type} {p : Piece K β} (hp : Contained p)
    (hK : ∀ a ∈ K, a ∉ w.reads) : Spec w A.Halted p (fun _ => A.Halted) A.left := by
  refine (hp.spec (Spec.frame hK)).post (fun _ _ _ => id) ?_
  rintro e a m ⟨rfl, h⟩
  exact A.ended_left { success := false, status := .failed } a m (h _ rfl)

/-- A deploy that stops at its smoke tests: the mark is set, and nothing that is looked at changes
from then on. -/
theorem haltAtSmokeTests_spec (dbPk : Option ℕ) (message : String) (error : Option Failure) :
    Spec w (fun a m => A.advanced a m ∧ w.HasSmokeTests a) (haltAtSmokeTests env dbPk message error)
      A.EndedIfAny A.left := by
  have hmark : Spec w (fun a m => A.advanced a m ∧ w.HasSmokeTests a) noteSmokeTestsHalted
      (fun _ => A.Halted) A.left := .note fun _ _ h r hr => A.halted r _ _ hr h.2 h.1
  refine .lift_bind hmark fun _ => ?_
  refine .lift_bind (A.halted_frame (writeStatus_contained env _) A.blind_record) fun _ => ?_
  refine .self_bind_any fun me =>
    .lift_bind (A.halted_frame (completeDbRecord_contained env _ _) (by simp)) fun _ => ?_
  exact .pure fun _ _ h => h _ rfl

/-- The smoke tests keep the account. -/
theorem runSmokeTestsOrHalt_spec (dbPk : Option ℕ) :
    Spec w A.advanced (runSmokeTestsOrHalt env dbPk) A.EndedIfAny A.left := by
  refine .self_bind fun me => .ite (fun _ => .pure fun _ _ h => h.1) fun hsome => ?_
  refine .ask_bind (fun e a m h => A.advanced_left e a m h.1) fun _ => ?_
  have hrun : Spec w (fun a m => A.advanced a m ∧ a = w.attrs me)
      (do resolveAndRun env me.settings.smokeTestsConfig; pure none : Piece rollbackAspects _)
      A.EndedIfAny fun _ a m => A.advanced a m ∧ a = w.attrs me :=
    .frame_bind (by simp) (fun _ _ _ => id) fun _ => .pure fun _ _ h => h.1
  refine .exceptFailure hrun (fun a m h => A.advanced_left _ a m h.1) fun f => ?_
  -- A failure of the tests halts the deploy or goes back, by the policy.
  have hhalt : ∀ error, Spec w (fun a m => A.advanced a m ∧ a = w.attrs me)
      (monadLift (haltAtSmokeTests env dbPk f.text error) : Piece rollbackAspects _)
      A.EndedIfAny A.left :=
    fun _ => (Spec.lift (A.haltAtSmokeTests_spec dbPk _ _)).pre fun _ _ h =>
      ⟨h.1, me, Bool.eq_false_iff.mpr hsome, h.2⟩
  refine .ite (fun _ => hhalt _) fun _ => ?_
  refine .ite (fun _ => .ite (fun hback => ?_) fun _ => hhalt _) fun _ =>
    .raise fun a m h => A.advanced_left _ a m h.1
  refine (A.rollBackAndRecord_spec dbPk _).pre fun a m h => ⟨h.1, me, ?_, h.2⟩
  exact ((Bool.and_eq_true _ _).mp hback).2

/-- A success keeps the account. -/
theorem succeed_spec (dbPk : Option ℕ) (newSha : String) :
    Spec w A.advanced (succeed env dbPk newSha) A.ended A.left := by
  refine .bind ((Spec.frame A.blind_record).post (fun _ _ _ => id) A.advanced_left) fun _ => ?_
  refine .self_bind_any fun me => .frame_bind (by simp) A.advanced_left fun _ => ?_
  exact .frame_bind (by simp) A.advanced_left fun _ => .pure fun a m => A.succeeded _ a m rfl

/-- The end of the block keeps the account. -/
theorem conclude_spec (dbPk : Option ℕ) (newSha : String) :
    Spec w A.advanced (conclude env dbPk newSha) A.ended A.left := by
  refine .bind (A.healthStep_spec dbPk) fun early => ?_
  cases early with
  | some r => exact .pure fun _ _ h => h
  | none =>
    refine .bind (A.runSmokeTestsOrHalt_spec dbPk) fun smoke => ?_
    cases smoke with
    | some r => exact .pure fun _ _ h => h
    | none => exact .lift (A.succeed_spec dbPk newSha)

/-- The block keeps the account. -/
theorem deploy_spec (dbPk : Option ℕ) : Spec w A.start (deploy env dbPk) A.ended A.left :=
  .lift_bind A.advance_spec fun newSha => .lift (A.conclude_spec dbPk newSha)

/-! ### The handlers -/

/-- The answer to the timer keeps the account. -/
theorem handleTimeout_spec : Spec w A.expired (handleTimeout env) A.ended fun _ _ _ => True := by
  refine .frame_bind A.blind_outcome (fun _ _ _ _ => trivial) fun _ => .self_bind fun me => ?_
  cases hp : me.previousSha with
  | none =>
    refine .frame_bind (by simp) (fun _ _ _ _ => trivial) fun _ => ?_
    refine .frame_bind A.blind_record (fun _ _ _ _ => trivial) fun _ => .pure ?_
    rintro _ m ⟨h, rfl⟩
    exact A.unreverted _ me m hp rfl h
  | some _ =>
    refine .lift_bind (A.rollback_expired.pre fun a m h => ⟨h.1, me, ?_, h.2⟩) fun r =>
      .lift (A.buildTimeout_spec r _ _)
    rw [hp]
    rfl

/-- The answer to a failure keeps the account. -/
theorem handleFailure_spec (dbPk : Option ℕ) (f : Failure) :
    Calm w (A.left (.raised f)) (handleFailure env dbPk f) A.ended fun _ _ _ => True := by
  have henter : Spec w (A.left (.raised f)) enterHandleFailure (fun _ => A.left (.raised f))
      fun _ _ _ => True :=
    (Spec.frame A.blind_outcome).post (fun _ _ _ => id) fun _ _ _ _ => trivial
  refine .bind henter.lift.calm fun _ => .bind (.lift (A.restore_spec f)) fun outcome => ?_
  -- the bookkeeping after it does not change what was restored
  refine Spec.calm (E := fun _ _ _ => True) ?_
  refine .frame_bind (by simp) (fun _ _ _ _ => trivial) fun _ => ?_
  refine .frame_bind A.blind_record (fun _ _ _ _ => trivial) fun _ => .self_bind_any fun me => ?_
  refine .frame_bind (by simp) (fun _ _ _ _ => trivial) fun _ => ?_
  exact .frame_bind (by simp) (fun _ _ _ _ => trivial) fun _ =>
    .pure fun a m => A.classified outcome f.text _ a m rfl

/-! ### The run -/

/-- Every run returns a result, of which `ended` holds. The alarm of the finished run gives the
deeds done before the timeout handler. -/
theorem ends (hexpired : ∀ t : Run, env.final.alarm.expiry = some [] →
      env.final.alarm.early = t.deeds →
      A.left .deploymentTimeoutExpired (w.attrs t.self) (w.mark t) →
      A.expired (w.attrs t.self) (w.mark t)) :
    ∃ r, env.outcome = (.ok r, env.final) ∧ A.ended r (w.attrs env.final.self) (w.mark env.final) := by
  have hopen : w.step w.init (.status { state := "deploying" }) = w.init :=
    w.step_eq _ _ A.blind.1
  refine Env.ends env w A.start_init (fun a h => hopen.symm ▸ h) A.deploy_spec A.ended_left
    A.start_left hexpired (fun dbPk => ?_) A.handleFailure_spec
  refine Spec.calm (E := fun _ _ _ => True) ?_
  exact .bind A.handleTimeout_spec fun r =>
    .frame_bind (by simp) (fun _ _ _ _ => trivial) fun _ => .pure fun _ _ h => h

end Account

end Fraisier.Deploy
