import Fraisier.Deploy.Outcome

/-!
# The record agrees with the result

Every terminal path of a deploy files a status record of its own: `succeed`, `haltAtSmokeTests`,
`recordOutcome`, `finalizeRollback`, `handleTimeout` and `handleFailure`. A timer that goes off
after one of them leads to another. `record_agrees` says that the record filed last names the
status of the result that the run returns.

The invariant is about what a function hands back: a result that is `Filed`. The functions between
the one that files and the end of the run write no record.
-/

namespace Fraisier.Deploy

open Fraisier.Lib

variable {β : Type} {K : List Aspect} {env : Env}

/-- The record that stands after a deed. -/
def Deed.file (last : Option StatusRecord) : Deed → Option StatusRecord
  | .status r => some r
  | _ => last

/-- The status record written last. -/
def Run.lastRecord (s : Run) : Option StatusRecord := s.deeds.foldl Deed.file none

/-- What the record looks at: the status writes. -/
def Watch.record : Watch Unit (Option StatusRecord) where
  attrs _ := ()
  init := none
  step := Deed.file
  reads := [.record]
  attrs_eq _ _ _ := rfl
  step_eq m d hd := by cases d <;> simp_all [Deed.aspect, Deed.file]

/-- The record names the status of the result. -/
def Filed (r : DeploymentResult) (last : Option StatusRecord) : Prop :=
  last.map (·.state) = some r.status.value

/-- A rollback's result is filed, and a success is a rollback that was made. -/
def RollbackFiled (r : DeploymentResult) (last : Option StatusRecord) : Prop :=
  Filed r last ∧ (r.success = true → r.status = .rolledBack)

/-- A piece that files what `Q` says, when the status file can be written. -/
abbrev Files (p : Piece K β) (Q : β → Option StatusRecord → Prop) : Prop :=
  Spec Watch.record (fun _ _ => True) p (fun b _ m => Q b m) fun _ _ _ => True

section

variable (hwrites : ∀ n, env.statusFails n = false)
include hwrites

/-- The status that is written is the last one filed. -/
theorem writeStatus_files (r : StatusRecord) :
    Files (writeStatus env r) fun _ last => last = some r := by
  refine .bind (.attempt (Q := fun _ _ m => m = some r) (fun _ _ _ => rfl) ?_ ?_) fun _ =>
    .pure fun _ _ => id
  · rintro ⟨n, hn⟩
    exact absurd hn (by simp [hwrites n])
  · exact fun _ _ _ => ⟨trivial, trivial⟩

/-- After a status write, a piece that writes none keeps the record. -/
theorem recordOutcome_files (r : DeploymentResult) (errorMessage : Option String) :
    Files (recordOutcome env r errorMessage) fun r' last => r' = r ∧ Filed r last := by
  refine .lift_bind (writeStatus_files hwrites _) fun _ => ?_
  refine .frame_bind (by decide) (fun _ _ _ _ => trivial) fun _ => .pure fun _ m hm => ⟨rfl, ?_⟩
  rw [Filed, hm]
  rfl

/-- The end of a rollback files its result. -/
theorem finalizeRollback_files (currentVersion : Option String) (target : String) :
    Files (finalizeRollback env currentVersion target) RollbackFiled := by
  refine .after fun _ => .after fun healthy => .ite (fun _ => ?_) fun _ => .after fun me => ?_
  · refine .lift_bind (writeStatus_files hwrites _) fun _ => .pure fun _ m hm => ⟨?_, fun _ => rfl⟩
    rw [Filed, hm]
    rfl
  · refine (Spec.lift (recordOutcome_files hwrites _ _)).post ?_ fun _ _ _ => id
    rintro _ _ last ⟨rfl, hfiled⟩
    exact ⟨hfiled, by simp⟩

/-- Going back files its result. -/
theorem revert_files (currentVersion : Option String) (target : String) (dbDetails : Option ℕ) :
    Files (revert env currentVersion target dbDetails) RollbackFiled :=
  .after fun _ => .after fun _ =>
    .lift_bind (finalizeRollback_files hwrites _ _) fun _ => .pure fun _ _ h => h

/-- A failed rollback is filed again, with the fuller message. -/
theorem recordFailure_files (r : DeploymentResult) (errorMessage : Option String) :
    Files (do let _ ← recordOutcome env r errorMessage; notify env r; pure r : Piece _ _) Filed := by
  refine .bind (recordOutcome_files hwrites _ _) fun _ => ?_
  exact .frame_bind (by decide) (fun _ _ _ _ => trivial) fun _ => .pure fun _ _ h => h.2

/-- The report of a rollback is the one on file. -/
theorem buildRollbackResult_files {r : DeploymentResult} (oldVersion : Option String) :
    Spec Watch.record (fun _ last => RollbackFiled r last) (buildRollbackResult env r oldVersion)
      (fun r' _ last => Filed r' last) fun _ _ _ => True := by
  refine .ite (fun hs => .pure fun _ last h => ?_) fun _ => ?_
  · have hr := h.1
    rwa [Filed, h.2 hs] at hr
  · exact (recordFailure_files hwrites _ _).pre fun _ _ _ => trivial

/-- The report of a rollback after the timer is the one on file. -/
theorem buildTimeoutRollbackResult_files {r : DeploymentResult} (oldVersion : Option String)
    (message : String) :
    Spec Watch.record (fun _ last => RollbackFiled r last)
      (buildTimeoutRollbackResult env r oldVersion message)
      (fun r' _ last => Filed r' last) fun _ _ _ => True := by
  refine .ite (fun hs => .pure fun _ last h => ?_) fun _ => ?_
  · have hr := h.1
    rwa [Filed, h.2 hs] at hr
  · exact (recordFailure_files hwrites _ _).pre fun _ _ _ => trivial

/-- A rollback to a version files its result. -/
theorem rollbackTo_files (currentVersion target : Option String) :
    Files (rollbackTo env currentVersion target) RollbackFiled := by
  cases target with
  | none => exact .raise fun _ _ _ => trivial
  | some target =>
    refine .after fun _ => .after fun _ => .after fun me => ?_
    refine .ite (fun _ => .after fun dbResult => ?_) fun _ => revert_files hwrites _ _ _
    refine .ite (fun _ => revert_files hwrites _ _ _) fun hfailed => ?_
    refine (Spec.lift (recordOutcome_files hwrites _ _)).post ?_ fun _ _ _ => id
    rintro _ _ last ⟨rfl, hfiled⟩
    exact ⟨hfiled, fun hs => absurd hs hfailed⟩

/-- A rollback files its result. -/
theorem rollback_files (toVersion : Option String) :
    Files (rollback env toVersion) RollbackFiled := by
  refine .after fun currentVersion => .after fun me => ?_
  refine .exceptFailure_after (.noteTimeout_after (rollbackTo_files hwrites _ _)) fun f => ?_
  refine (Spec.lift (recordOutcome_files hwrites _ _)).post ?_ fun _ _ _ => id
  rintro _ _ last ⟨rfl, hfiled⟩
  exact ⟨hfiled, by simp⟩

/-! ## The handlers -/

/-- A deploy the timer stopped files its result. -/
theorem handleTimeout_files : Files (handleTimeout env) Filed := by
  refine .after fun _ => .after fun me => ?_
  cases hp : me.previousSha with
  | none =>
    refine .after fun _ => .lift_bind (writeStatus_files hwrites _) fun _ => .pure fun _ m hm => ?_
    rw [Filed, hm]
    rfl
  | some _ =>
    exact .lift_bind (rollback_files hwrites _) fun r =>
      .lift (buildTimeoutRollbackResult_files hwrites _ _)

omit hwrites in
/-- The state that is written and the status that is returned are one classification. -/
theorem classifyFailure_agrees (outcome : RestoreOutcome) (deployError : String) :
    (classifyFailure outcome deployError).2.1 = (classifyFailure outcome deployError).1.value := by
  unfold classifyFailure
  split
  · split <;> rfl
  · split <;> rfl

/-- A deploy that failed files its result. -/
theorem handleFailure_files (dbPk : Option ℕ) (f : Failure) :
    Files (handleFailure env dbPk f) Filed := by
  refine .after fun _ => .after fun outcome => .after fun _ => ?_
  refine .lift_bind (writeStatus_files hwrites _) fun _ => .self_bind fun me => ?_
  refine .frame_bind (by decide) (fun _ _ _ _ => trivial) fun _ => ?_
  refine .frame_bind (by decide) (fun _ _ _ _ => trivial) fun _ => .pure fun _ m hm => ?_
  rw [Filed, hm.1]
  exact congrArg some (classifyFailure_agrees outcome f.text)

/-- A deploy that raised files its result. -/
theorem handle_files (dbPk : Option ℕ) (e : Exn) : Files (handle env dbPk e) Filed := by
  cases e with
  | deploymentTimeoutExpired =>
    exact .bind (handleTimeout_files hwrites) fun _ =>
      .frame_bind (by decide) (fun _ _ _ _ => trivial) fun _ => .pure fun _ _ h => h
  | raised f => exact handleFailure_files hwrites dbPk f

/-! ## The deploy -/

/-- A step that may end the deploy files what it returns. -/
def FiledIfAny (r : Option DeploymentResult) (last : Option StatusRecord) : Prop :=
  ∀ r' ∈ r, Filed r' last

omit hwrites in
/-- No result needs no record. -/
@[simp] theorem filedIfAny_none (last : Option StatusRecord) : FiledIfAny none last := by
  simp [FiledIfAny]

omit hwrites in
/-- A result needs its record. -/
@[simp] theorem filedIfAny_some (r : DeploymentResult) (last : Option StatusRecord) :
    FiledIfAny (some r) last ↔ Filed r last := by
  simp [FiledIfAny]

/-- A rollback that a step of the deploy ends in. -/
theorem rollBackAndRecord_files (dbPk : Option ℕ) (oldVersion : Option String) :
    Files
      (do
        let rollbackResult ← rollback env
        let result ← buildRollbackResult env rollbackResult oldVersion
        completeDbRecord env dbPk result
        pure (some result) : Piece rollbackAspects (Option DeploymentResult)) FiledIfAny := by
  refine .lift_bind (rollback_files hwrites _) fun r => ?_
  refine .lift_bind (buildRollbackResult_files hwrites _) fun r' => ?_
  exact .frame_bind (by decide) (fun _ _ _ _ => trivial) fun _ => .pure fun _ _ h => by simpa using h

/-- A failed health check files its result. -/
theorem healthStep_files (dbPk : Option ℕ) : Files (healthStep env dbPk) FiledIfAny := by
  refine .after fun me => .ite (fun _ => .after fun healthy => ?_) fun _ =>
    .pure fun _ _ _ => by simp
  refine .ite (fun _ => .pure fun _ _ _ => by simp) fun _ => .after fun me => ?_
  cases hp : me.previousSha with
  | none => exact .raise fun _ _ _ => trivial
  | some _ => exact rollBackAndRecord_files hwrites _ _

/-- A halt at the smoke tests files its result. -/
theorem haltAtSmokeTests_files (dbPk : Option ℕ) (message : String) (error : Option Failure) :
    Files (haltAtSmokeTests env dbPk message error) FiledIfAny := by
  refine .frame_bind (by decide) (fun _ _ _ _ => trivial) fun _ => ?_
  refine .lift_bind (writeStatus_files hwrites _) fun _ => .self_bind fun me => ?_
  refine .frame_bind (by decide) (fun _ _ _ _ => trivial) fun _ => .pure fun _ m hm => ?_
  rw [hm.1, filedIfAny_some]
  rfl

/-- The smoke tests file a result when they halt the deploy. -/
theorem runSmokeTestsOrHalt_files (dbPk : Option ℕ) :
    Files (runSmokeTestsOrHalt env dbPk) FiledIfAny := by
  refine .after fun me => .ite (fun _ => .pure fun _ _ _ => by simp) fun _ => .after fun _ => ?_
  refine .exceptFailure_after (.after fun _ => .pure fun _ _ _ => by simp) fun f => ?_
  refine .ite (fun _ => haltAtSmokeTests_files hwrites _ _ _) fun _ => ?_
  refine .ite (fun _ => .ite (fun _ => ?_) fun _ => ?_) fun _ => .raise fun _ _ _ => trivial
  · exact rollBackAndRecord_files hwrites _ _
  · exact haltAtSmokeTests_files hwrites _ _ _

/-- A deploy that succeeds files its result. -/
theorem succeed_files (dbPk : Option ℕ) (newSha : String) :
    Files (succeed env dbPk newSha) Filed := by
  refine .bind (writeStatus_files hwrites _) fun _ => .self_bind fun me => ?_
  refine .frame_bind (by decide) (fun _ _ _ _ => trivial) fun _ => ?_
  refine .frame_bind (by decide) (fun _ _ _ _ => trivial) fun _ => .pure fun _ m hm => ?_
  rw [Filed, hm.1]
  rfl

/-- A deploy files its result. -/
theorem deploy_files (dbPk : Option ℕ) : Files (deploy env dbPk) Filed := by
  refine .after fun newSha => .lift (.lift_bind (healthStep_files hwrites dbPk) fun early => ?_)
  cases early with
  | some r => exact .pure fun _ _ h => by simpa using h
  | none =>
    refine .lift_bind ((runSmokeTestsOrHalt_files hwrites dbPk).pre fun _ _ _ => trivial) ?_
    intro smoke
    cases smoke with
    | some r => exact .pure fun _ _ h => by simpa using h
    | none => exact (Spec.lift (succeed_files hwrites dbPk _)).pre fun _ _ _ => trivial

end

/-! ## The run -/

/-- Whatever fails and whenever the timer goes off, the record written last names the status of the
result that the run returns. -/
theorem record_agrees (env : Env) (hwrites : ∀ n, env.statusFails n = false) :
    ∃ r, env.outcome = (.ok r, env.final) ∧
      env.final.lastRecord.map (·.state) = some r.status.value :=
  Env.ends env Watch.record trivial (fun _ => id) (fun dbPk => deploy_files hwrites dbPk)
    (fun _ _ _ _ => trivial) (fun _ _ _ _ => trivial) (fun _ _ _ => id)
    (fun dbPk => (handle_files hwrites dbPk _).calm) fun dbPk _ => (handle_files hwrites dbPk _).calm

/-- A deploy stopped by the timer has its result on file. -/
theorem record_agrees_timed_out :
    ∃ r, ({ timer := some (40, .before) } : Env).outcome =
        (.ok r, ({ timer := some (40, .before) } : Env).final) ∧
      ({ timer := some (40, .before) } : Env).final.lastRecord.map (·.state) = some r.status.value :=
  record_agrees { timer := some (40, .before) } fun _ => rfl

end Fraisier.Deploy
