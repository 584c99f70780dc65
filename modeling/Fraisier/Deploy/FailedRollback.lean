import Mathlib
import Fraisier.Deploy.WayBack

/-!
# A failed database rollback is not reported

`migrate_down` puts the exception object of a failed run into the `errors` of its result, and
`_rollback_database` joins the errors as texts: the join raises `TypeError` before the incident file
is written and before a result is built. So no failed `migrate_down` is ever reported
(`failed_migrate_down_unreported`). Nor could the counts be right: the result of a failed run says
that none of its steps was reversed (`migrateDown_failed`).
-/

namespace Fraisier.Deploy

open Fraisier.Lib

variable {env : Env}

/-- The strategy that ran the migrations undoes them by `migrate_down`: it is `migrate`, or a restore
that took no template. -/
def Attributes.undoneByMigrateDown (x : Attributes) : Prop :=
  match x.executedStrategy with
  | some (.migrate _ _) => True
  | some (.restoreMigrate cfg _) => x.templateTaken.getD (cfg.templateMode = .always) = false
  | _ => False

/-- How many migrations are undone by the deeds. -/
def reversedIn (ds : List Deed) : ℕ :=
  (ds.map fun | .reversed n => n | _ => 0).sum

/-- A truthful report of a failed rollback of `applied` migrations, in which `ds` was done: a
`ROLLBACK_FAILED` result whose message has the errors and the counts of what the database holds, and
an incident file with that message. -/
def ReportedTruthfully (applied : ℕ) (ds : List Deed) (o : Except Exn DeploymentResult) : Prop :=
  ∃ r errors, o = .ok r ∧ r.status = .rollbackFailed ∧
    r.errorMessage = some (rollbackFailedMessage errors (reversedIn ds) applied) ∧
    .incident (rollbackFailedMessage errors (reversedIn ds) applied) ∈ ds

/-- What the report of a rollback looks at: how it is undone, and how often a rollback was reported
to have failed. -/
def Watch.reports : Watch (Option Strategy × Option Bool) ℕ where
  attrs x := (x.executedStrategy, x.templateTaken)
  init := 0
  step n d := n + if d.rollbackReport = some false then 1 else 0
  reads := [.rollback, .applied]
  attrs_eq x y h := by
    have ha := h .applied (by simp)
    simp only [Attributes.Agree] at ha
    simp only [ha]
  step_eq m d hd := by cases d <;> simp_all [Deed.aspect, Deed.rollbackReport]

/-- A failed `migrate_down` gives one error, an exception object, and counts no step. -/
theorem migrateDown_failed {μ α : Type} {w : Watch α μ} (hw : .database ∉ w.reads)
    {P : α → μ → Prop} (steps : ℕ) :
    Spec w P (migrateDown env steps)
      (fun r a m => P a m ∧ (r.success = false → r.stepsApplied = 0 ∧
        ∃ f : Failure, f.cls = .migrationError ∧ r.errors = [.error f])) fun _ => P := by
  have hw' : ∀ a ∈ [Aspect.database], a ∉ w.reads := by simpa using hw
  refine .bind (.frame hw') fun _ => .bind (.frame hw') fun result => ?_
  cases result with
  | complete => exact .pure fun _ _ h => ⟨h, nofun⟩
  | failed k error => exact .pure fun _ _ h => ⟨h, fun _ => ⟨rfl, _, rfl, rfl⟩⟩

/-- A strategy that undoes by `migrate_down` hands on what that reported. -/
theorem rollback_failed {x : Attributes} (hx : x.undoneByMigrateDown) {strategy : Strategy}
    (hs : x.executedStrategy = some strategy) (n steps : ℕ) :
    Spec Watch.reports (fun a m => m = n ∧ a = Watch.reports.attrs x) (strategy.rollback env steps)
      (fun r _ m => m = n ∧ (r.success = false → ∃ f, r.errors = [.error f])) fun _ _ m => m = n := by
  have hdown : Spec Watch.reports (fun a m => m = n ∧ a = Watch.reports.attrs x)
      (rollbackByMigrateDown env steps)
      (fun r _ m => m = n ∧ (r.success = false → ∃ f, r.errors = [.error f])) fun _ _ m => m = n := by
    refine .bind ((migrateDown_failed (by decide) steps).post (fun _ _ _ => id) fun _ _ _ h => h.1)
      fun r => .pure fun a m h => ⟨h.1.1, fun hf => ?_⟩
    obtain ⟨-, f, -, hf⟩ := h.2 hf
    exact ⟨f, hf⟩
  cases strategy with
  | migrate dump db => exact .ask_bind (fun _ _ _ h => h.1) fun _ => hdown
  | rebuild roles createTemplate => simp [Attributes.undoneByMigrateDown, hs] at hx
  | restoreMigrate cfg serviceName =>
    refine .self_bind fun me => .ite (fun ht => .of_pre fun a m h => ?_) fun _ =>
      hdown.pre fun _ _ h => h.1
    -- the template it would go back to was not taken
    have hme : me.templateTaken = x.templateTaken := by
      have := h.2.symm.trans h.1.2
      exact congrArg Prod.snd this
    rw [hme] at ht
    simp [Attributes.undoneByMigrateDown, hs, ht] at hx

/-- The report of a success is a result; a failure with an exception object among its errors
raises. -/
theorem reportRollbackDatabase_unreported (currentVersion : Option String) (applied n : ℕ)
    {dbResult : StrategyResult} (hf : dbResult.success = false → ∃ f, dbResult.errors = [.error f]) :
    Spec Watch.reports (fun _ m => m = n + if dbResult.success = false then 1 else 0)
      (reportRollbackDatabase env currentVersion applied dbResult)
      (fun r _ m => r.status = .rolledBack ∧ m = n)
      fun e _ m => m = n ∨ ∃ f : Failure, e = .raised f ∧ f.cls = .typeError := by
  refine .ite (fun hs => .pure fun _ m h => ⟨rfl, by simpa [hs] using h⟩) fun hs => ?_
  obtain ⟨f, hf⟩ := hf (by simpa using hs)
  rw [hf]
  have hjoin : Spec Watch.reports (fun _ m => m = n + if dbResult.success = false then 1 else 0)
      (joinErrors [.error f]) (fun _ _ _ => False)
      fun e _ m => m = n ∨ ∃ f : Failure, e = .raised f ∧ f.cls = .typeError :=
    .raise fun _ _ _ => .inr ⟨_, rfl, rfl⟩
  exact .lift_bind hjoin fun _ _ h => h.elim

/-- A rollback by `migrate down` that fails is not reported. -/
theorem rollbackDatabase_unreported {x : Attributes} (hx : x.undoneByMigrateDown)
    (currentVersion : Option String) (n : ℕ) :
    Spec Watch.reports (fun a m => m = n ∧ a = Watch.reports.attrs x)
      (rollbackDatabase env currentVersion)
      (fun r _ m => r.status = .rolledBack ∧ m = n)
      fun e _ m => m = n ∨ ∃ f : Failure, e = .raised f ∧ f.cls = .typeError := by
  refine .frame_bind (by decide) (fun _ _ _ h => .inl h.1) fun resolved => ?_
  refine .frame_bind (by decide) (fun _ _ _ h => .inl h.1) fun _ => .self_bind fun me => ?_
  refine .of_pre fun a m h => ?_
  -- The strategy is the one that was executed.
  have hme : me.executedStrategy = x.executedStrategy :=
    congrArg Prod.fst (h.2.symm.trans h.1.2)
  obtain ⟨strategy, hs⟩ : ∃ strategy, x.executedStrategy = some strategy := by
    cases hs : x.executedStrategy with
    | none => simp [Attributes.undoneByMigrateDown, hs] at hx
    | some strategy => exact ⟨strategy, rfl⟩
  rw [hme, hs, Option.getD_some]
  refine .lift_bind (((rollback_failed hx hs n _).pre ?_).post (fun _ _ _ => id)
    fun _ _ _ => .inl) fun dbResult => .of_pre fun a m hd => ?_
  · rintro a' m' ⟨rfl, rfl⟩
    exact h.1
  -- The report of the rollback is no failure.
  have hnote : Spec Watch.reports (fun a' m' => a' = a ∧ m' = m)
      (noteRolledBack me.migrationsApplied dbResult.success)
      (fun _ _ m => m = n + if dbResult.success = false then 1 else 0)
      fun e _ m => m = n ∨ ∃ f : Failure, e = .raised f ∧ f.cls = .typeError := by
    refine .note ?_
    rintro _ m' ⟨-, rfl⟩
    simp [Effect.deed, Watch.reports, Deed.rollbackReport, hd.1]
  exact .lift_bind hnote fun _ => .lift (reportRollbackDatabase_unreported _ _ n hd.2)

/-- A deed reported as a failure counts. -/
theorem reports_lt {s t : Run} {ds : List Deed} (ht : t.deeds = s.deeds ++ ds) {steps : ℕ}
    (hd : .rolledBack steps false ∈ ds) : Watch.reports.mark s < Watch.reports.mark t := by
  have hmono : ∀ (ds : List Deed) n, n ≤ ds.foldl Watch.reports.step n := by
    intro ds
    induction ds with
    | nil => simp
    | cons d ds ih => exact fun n => Nat.le_trans (Nat.le_add_right n _) (ih _)
  obtain ⟨before, after, rfl⟩ := List.append_of_mem hd
  rw [Watch.reports.mark_of_deeds ht, List.foldl_append, List.foldl_cons]
  exact Nat.lt_of_lt_of_le (Nat.lt_succ_of_le (hmono before _)) (hmono after _)

/-- Whatever a failed `migrate_down` reversed, `_rollback_database` does not report it truthfully: it
raises `TypeError`. -/
theorem failed_migrate_down_unreported (env : Env) (currentVersion : Option String) (s : Run)
    (hs : s.self.undoneByMigrateDown) {ds : List Deed} {steps : ℕ}
    (hds : ((rollbackDatabase env currentVersion).run s).2.deeds = s.deeds ++ ds)
    (hfailed : .rolledBack steps false ∈ ds) :
    ¬ReportedTruthfully s.self.migrationsApplied ds ((rollbackDatabase env currentVersion).run s).1 ∧
      ∃ f : Failure, f.cls = .typeError ∧
        ((rollbackDatabase env currentVersion).run s).1 = .error (.raised f) := by
  have h : (rollbackDatabase env currentVersion).Ends s
      (fun r t => r.status = .rolledBack ∧ Watch.reports.mark t = Watch.reports.mark s)
      fun e t => Watch.reports.mark t = Watch.reports.mark s ∨
        ∃ f : Failure, e = .raised f ∧ f.cls = .typeError :=
    rollbackDatabase_unreported hs currentVersion (Watch.reports.mark s) s ⟨rfl, rfl⟩
  have hlt := reports_lt hds hfailed
  unfold Program.Ends at h
  -- The count of reports has not moved, however the rollback ended.
  rcases hr : (rollbackDatabase env currentVersion).run s with ⟨e | r, t⟩ <;> rw [hr] at h hlt
  · obtain h | ⟨f, rfl, hf⟩ := h
    · exact absurd h (Nat.ne_of_gt hlt)
    · exact ⟨by simp [ReportedTruthfully], f, hf, rfl⟩
  · exact absurd h.2 (Nat.ne_of_gt hlt)

/-! ## A rollback that reverses one migration of two -/

/-- `migrate_down` reverses one migration and fails at the next. -/
def halfwayDown : Env where
  down _ := .failed 1 "relation does not exist"

/-- A deployer whose run has applied two migrations. -/
def twoApplied : Run where
  self :=
    { settings := { databaseConfig := some {} }
      migrationsApplied := 2
      executedStrategy := some (.migrate {} "app") }

set_option maxRecDepth 10000 in
/-- The rollback is reported to have failed, and no result tells of it. -/
theorem halfway_down_unreported :
    ((rollbackDatabase halfwayDown none).run twoApplied).2.deeds = [.reversed 1, .rolledBack 2 false] ∧
      ¬ReportedTruthfully 2 [.reversed 1, .rolledBack 2 false]
        ((rollbackDatabase halfwayDown none).run twoApplied).1 := by
  refine ⟨by decide, ?_⟩
  have hraised : ((rollbackDatabase halfwayDown none).run twoApplied).1.isOk = false := by decide
  rintro ⟨r, errors, hr, -⟩
  rw [hr] at hraised
  cases hraised

set_option maxRecDepth 10000 in
/-- The second of two migrations fails to go down and is not reported. -/
theorem failed_migrate_down_unreported_halfway :
    ¬ReportedTruthfully 2 [.reversed 1, .rolledBack 2 false]
        ((rollbackDatabase halfwayDown none).run twoApplied).1 ∧
      ∃ f : Failure, f.cls = .typeError ∧
        ((rollbackDatabase halfwayDown none).run twoApplied).1 = .error (.raised f) :=
  failed_migrate_down_unreported halfwayDown none twoApplied trivial (by decide)
    (List.mem_cons_of_mem _ (List.mem_singleton.mpr rfl))

end Fraisier.Deploy
