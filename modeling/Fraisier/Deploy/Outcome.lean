import Fraisier.Deploy.Api
import Fraisier.Deploy.Spec

/-!
# How a run ends

The two handlers of `_execute` raise nothing of their own, and outside the `deployment_timeout`
block there is no timer: every run returns a result (`execute_returns`). `Env.ends` is the rule
for a property of whole runs: it asks for one specification of the body of the block and one of
each handler, and gives back, at the timeout handler, that nothing was done between the moment the
timer went off and the handler.
-/

namespace Fraisier.Deploy

open Fraisier.Lib

variable {α β μ : Type} {K K' : List Aspect} (env : Env)

/-! ## The functions that raise nothing of their own -/

/-- Only the timer's exception leaves a write of the status. -/
theorem writeStatus_contained (r : StatusRecord) : Contained (writeStatus env r) :=
  .bind (.attempt rfl) fun _ => .pure

/-- Only the timer's exception leaves starting the database record. -/
theorem startDbRecord_contained : Contained (startDbRecord env) :=
  .bind (.attempt rfl) fun _ => .pure

/-- Only the timer's exception leaves completing the database record. -/
theorem completeDbRecord_contained (dbPk : Option ℕ) (result : DeploymentResult) :
    Contained (completeDbRecord env dbPk result) := by
  cases dbPk with
  | none => exact .pure
  | some n =>
    exact .self_bind fun _ =>
      .bind (.whenever (.exceptException fun _ => .pure)) fun _ => .assign rfl

/-- Only the timer's exception leaves notifying everyone. -/
theorem notifyAll_contained (n : ℕ) : Contained (notifyAll env n) := by
  induction n with
  | zero => exact .pure
  | succ n ih => exact .bind (.exceptException fun _ => .pure) fun _ => ih

/-- Only the timer's exception leaves a notification. -/
theorem notify_contained (result : DeploymentResult) : Contained (notify env result) :=
  notifyAll_contained env _

/-- Only the timer's exception leaves discarding the replaced configuration. -/
theorem discardReplacedConfig_contained : Contained (discardReplacedConfig env) := by
  refine .self_bind fun x => ?_
  cases x.configReplaced with
  | none => exact .pure
  | some _ => exact .bind (.assign rfl) fun _ => .bind (.attempt rfl) fun _ => .pure

/-- Only the timer's exception leaves restoring the configuration. -/
theorem restoreSyncedConfig_contained : Contained (restoreSyncedConfig env) := by
  refine .self_bind fun x => ?_
  cases x.configReplaced with
  | none => exact .pure
  | some _ => exact .bind (.assign rfl) fun _ => .exceptException fun _ => .pure

/-- Only the timer's exception leaves a question. -/
theorem query_contained (answer : ℕ → α) : Contained (query env answer : Piece K α) :=
  .bind (fun _ => trivial) fun _ => .bind (.assign rfl) fun _ => .pure

/-- Only the timer's exception leaves reading the worktree's commit. -/
theorem getWorktreeSha_contained : Contained (getWorktreeSha env) := by
  refine .bind (query_contained env _) fun sha => ?_
  cases sha with
  | none => exact query_contained env _
  | some _ => exact .pure

/-- Only the timer's exception leaves reading the current version. -/
theorem getCurrentVersion_contained : Contained (getCurrentVersion env) := by
  unfold getCurrentVersion
  cases env.fraise.appPath with
  | none => exact .pure
  | some _ => exact .bind (getWorktreeSha_contained env) fun _ => .pure

/-- Only the timer's exception leaves restoring the version file. -/
theorem restoreVersionJson_contained : Contained (restoreVersionJson env) :=
  .self_bind fun _ => .ite (.bind (.attempt rfl) fun _ => .pure) .pure

/-- Only the timer's exception leaves recording the outcome. -/
theorem recordOutcome_contained (result : DeploymentResult) (errorMessage : Option String) :
    Contained (recordOutcome env result errorMessage) :=
  .bind (.lift (writeStatus_contained env _)) fun _ =>
    .bind (.lift (discardReplacedConfig_contained env)) fun _ => .pure

/-- Only the timer's exception leaves reporting a rollback. -/
theorem buildRollbackResult_contained (r : DeploymentResult) (oldVersion : Option String) :
    Contained (buildRollbackResult env r oldVersion) :=
  .ite .pure <| .bind (recordOutcome_contained env _ _) fun _ =>
    .bind (.lift (notify_contained env _)) fun _ => .pure

/-- Only the timer's exception leaves reporting a rollback after the timer. -/
theorem buildTimeoutRollbackResult_contained (r : DeploymentResult) (oldVersion : Option String)
    (message : String) : Contained (buildTimeoutRollbackResult env r oldVersion message) :=
  .ite .pure <| .bind (recordOutcome_contained env _ _) fun _ =>
    .bind (.lift (notify_contained env _)) fun _ => .pure

/-- A rollback reports every failure but the timer's as a result. -/
theorem rollback_contained (toVersion : Option String) : Contained (rollback env toVersion) :=
  .bind (.lift (getCurrentVersion_contained env)) fun _ => .self_bind fun _ =>
    .exceptFailure .any (fun _ => rfl) fun _ _ => .lift (recordOutcome_contained env _ _)

/-- The restore after a failure catches everything. -/
theorem restorePreviousState_contained (keepServiceStopped : Bool) :
    Contained (restorePreviousState env keepServiceStopped) := by
  refine .self_bind fun x => ?_
  cases x.previousSha with
  | none => exact .pure
  | some _ =>
    exact .bind (.lift .note) fun _ => .exceptException fun _ => .bind (.lift .note) fun _ => .pure

/-- Only the timer's exception leaves the answer to the timer. -/
theorem handleTimeout_contained : Contained (handleTimeout env) := by
  refine .bind (.lift .note) fun _ => .self_bind fun x => ?_
  cases x.previousSha with
  | none =>
    exact .bind (.lift (restoreVersionJson_contained env)) fun _ =>
      .bind (.lift (writeStatus_contained env _)) fun _ => .pure
  | some _ =>
    exact .bind (.lift (rollback_contained env _)) fun _ =>
      .lift (buildTimeoutRollbackResult_contained env _ _ _)

/-- Only the timer's exception leaves the answer to a failure. -/
theorem handleFailure_contained (dbPk : Option ℕ) (f : Failure) :
    Contained (handleFailure env dbPk f) :=
  .bind (.lift .note) fun _ =>
    .bind (.lift (restorePreviousState_contained env _)) fun _ =>
      .bind (.lift (restoreVersionJson_contained env)) fun _ =>
        .bind (.lift (writeStatus_contained env _)) fun _ => .self_bind fun _ =>
          .bind (.lift (completeDbRecord_contained env _ _)) fun _ =>
            .bind (.lift (notify_contained env _)) fun _ => .pure

/-- The handlers of a run raise nothing of their own. -/
theorem handle_contained (dbPk : Option ℕ) (e : Exn) : Contained (handle env dbPk e) := by
  cases e with
  | deploymentTimeoutExpired =>
    exact .bind (handleTimeout_contained env) fun _ =>
      .bind (.lift (completeDbRecord_contained env _ _)) fun _ => .pure
  | raised f => exact handleFailure_contained env dbPk f

/-! ## The block -/

/-- The run is outside the `deployment_timeout` block and every clause that could hold the timer's
exception back. -/
def Run.Outside (s : Run) : Prop := s.armed = false ∧ s.handlers = []

/-- A piece that starts outside the block leaves the run there, and leaves the timer alone. -/
theorem Obeys.outside {s t : Run} {e : Option Exn} (h : Obeys K s e t) (hs : s.Outside) :
    t.Outside ∧ e ≠ some .deploymentTimeoutExpired ∧ t.alarm.expiry = s.alarm.expiry ∧
      (s.alarm.expiry.isSome → t.alarm.early = s.alarm.early) := by
  refine ⟨⟨h.armed.trans hs.1, h.handlers.trans hs.2⟩, ?_⟩
  cases h.timer with
  | spent _ same early exit => exact ⟨exit, same, fun _ => early⟩
  | quiet before after exit => exact ⟨exit, after.trans before.symm, by simp [before]⟩
  | wentOff armed => simp [hs.1] at armed

/-- How the timer stands when the `try` of `_execute` is left with `e`: its exception is the one
that gets out exactly when no clause held it back, and then nothing was done after it. -/
structure Run.Left (t : Run) (e : Option Exn) : Prop where
  outside : t.Outside
  exit : e = some .deploymentTimeoutExpired ↔ t.alarm.expiry = some []
  late : t.alarm.expiry = some [] → t.alarm.late = []

/-- What the law says of a block that starts outside every other. -/
theorem Obeys.left {s t : Run} {e : Option Exn} (hs : s.Outside) (hx : s.alarm.expiry = none)
    (h : Obeys K (s.arm true) e t) : (t.arm false).Left e := by
  have hh : t.handlers = [] := h.handlers.trans hs.2
  cases h.timer with
  | spent before => simp [hx] at before
  | quiet _ after exit => exact ⟨⟨rfl, hh⟩, by simp [exit, after], by simp [after]⟩
  | wentOff _ _ inner after exit late =>
    have ha : t.alarm.expiry = some inner := by simpa [hs.2] using after
    exact ⟨⟨rfl, hh⟩, by simp [exit, ha], by simpa [ha] using late⟩

variable {w : Watch α μ} {P : α → μ → Prop} {Q : DeploymentResult → α → μ → Prop}
  {E : Exn → α → μ → Prop}

/-- The block: the specification of its body, and what the law says of it. -/
theorem deploymentTimeout_ends {body : Piece K DeploymentResult} (hb : Spec w P body Q E)
    (hQ : ∀ r a m, Q r a m → E .deploymentTimeoutExpired a m) {s : Run} (hs : s.Outside)
    (hx : s.alarm.expiry = none) (hP : P (w.attrs s.self) (w.mark s)) :
    (deploymentTimeout env body).Ends s
      (fun r t => Q r (w.attrs t.self) (w.mark t) ∧ t.Left none)
      fun e t => E e (w.attrs t.self) (w.mark t) ∧ t.Left (some e) := by
  -- the last point at which the timer may go off is after the body
  have hq : Spec w P (do let a ← body; quiet env; pure a : Piece K DeploymentResult) Q E :=
    hb.bind fun r => Spec.bind
      (.assign (Q := fun _ => Q r) (fun _ _ h => h) (hQ r) fun _ _ h => hQ r _ _ h)
      fun _ => .pure fun _ _ h => h
  have h := (hq (s.arm true) hP).and (Program.ends_lawful _ (s.arm true))
  unfold Program.Ends at h ⊢
  rcases hr : (do let a ← body; quiet env; pure a : Piece K DeploymentResult).run
    (s.arm true) with ⟨e | r, t⟩
  all_goals
    rw [hr] at h
    simp only [deploymentTimeout, hr]
    exact ⟨h.1, Obeys.left hs hx h.2⟩

/-- The `try` of `_execute`: the checks before the block touch nothing and raise what they
raise. -/
theorem guarded_ends {dbPk : Option ℕ} (hb : Spec w P (deploy env dbPk) Q E)
    (hQ : ∀ r a m, Q r a m → E .deploymentTimeoutExpired a m)
    (hP : ∀ f a m, P a m → E (.raised f) a m) {s : Run} (hs : s.Outside)
    (hx : s.alarm.expiry = none) (hs' : P (w.attrs s.self) (w.mark s)) :
    (guarded env dbPk).Ends s (fun r t => Q r (w.attrs t.self) (w.mark t) ∧ t.Left none)
      fun e t => E e (w.attrs t.self) (w.mark t) ∧ t.Left (some e) := by
  -- a check that ends normally leaves everything as it was; one that raises ends the `try`
  have hcheck : ∀ (p : Piece [] Unit) (s : Run), s.Outside → s.alarm.expiry = none →
      P (w.attrs s.self) (w.mark s) → (monadLift p : Whole Unit).Ends s
        (fun _ t => t.Outside ∧ t.alarm.expiry = none ∧ P (w.attrs t.self) (w.mark t))
        fun e t => E e (w.attrs t.self) (w.mark t) ∧ t.Left (some e) := by
    intro p s hs hx hP'
    refine ((Spec.frame (p := p) (by simp) s hP').and (Program.ends_lawful p s)).mono
      (fun _ t ht => ?_) fun e t ht => ?_
    · obtain ⟨ho, -, hx', -⟩ := Obeys.outside ht.2 hs
      exact ⟨ho, hx'.trans hx, ht.1⟩
    · obtain ⟨ho, he, hx', -⟩ := Obeys.outside ht.2 hs
      cases e with
      | deploymentTimeoutExpired => exact absurd rfl he
      | raised f => exact ⟨hP f _ _ ht.1, ho, by simp [hx', hx], by simp [hx', hx]⟩
  refine Program.ends_bind.2 ((hcheck _ s hs hx hs').mono (fun _ t ht => ?_) fun _ _ => id)
  refine Program.ends_bind.2 ((hcheck _ t ht.1 ht.2.1 ht.2.2).mono (fun _ u hu => ?_) fun _ _ => id)
  exact deploymentTimeout_ends env hb hQ hu.1 hu.2.1 hu.2.2

/-! ## A whole run -/

/-- A run up to the `try`: it writes its first record, and nothing else has happened. -/
theorem execute_ends (w : Watch α μ) (P : α → μ → Prop) (h0 : P (w.attrs env.start.self) w.init)
    (hopen : ∀ a, P a w.init → P a (w.step w.init (.status { state := "deploying" })))
    {R : DeploymentResult → Run → Prop} {F : Exn → Run → Prop}
    (h : ∀ dbPk s, s.Outside → s.alarm.expiry = none → P (w.attrs s.self) (w.mark s) →
      (guarded env dbPk).Ends s R fun e t => (handle env dbPk e).Ends t R F) :
    (execute env).Ends env.start R F := by
  have hstart : env.start.Outside := ⟨rfl, rfl⟩
  -- The first record may fail to be written, which stops nothing.
  have hstatus : Spec w (fun a m => P a m ∧ m = w.init) (writeStatus env { state := "deploying" })
      (fun _ => P) fun _ => P := by
    refine .bind (.attempt (Q := fun _ => P) ?_ ?_ ?_) fun _ => .pure fun _ _ => id
    · rintro x m ⟨hm, rfl⟩
      exact hopen _ hm
    · rintro - x m ⟨hm, rfl⟩
      exact ⟨hm, hopen _ hm⟩
    · rintro x m ⟨hm, rfl⟩
      exact ⟨hm, hopen _ hm⟩
  -- Before the `try` no timer is armed and no handler is open.
  refine Program.ends_bind.2 (((writeStatus_contained env _).returns hstatus.calm hstart.1
    ⟨h0, rfl⟩).mono (fun _ s hs => ?_) fun _ _ => False.elim)
  obtain ⟨hso, -, hsx, -⟩ := hs.2.outside hstart
  refine Program.ends_bind.2 (((startDbRecord_contained env).returns
    (Spec.frame (by simp)).calm hso.1 hs.1).mono (fun dbPk t ht => ?_) fun _ _ => False.elim)
  obtain ⟨hto, -, htx, -⟩ := ht.2.outside hso
  exact Program.ends_tryCatch.2 (h dbPk t hto (htx.trans hsx) ht.1)

/-- The rule for whole runs. `P` holds when the run begins; the body of the block takes it to `Q`,
or to `E` at an exception. At the timeout handler, the alarm of the finished run gives the deeds
done so far, which turns `E` into `E'`. -/
theorem Env.ends (w : Watch α μ) {P : α → μ → Prop} {Q : DeploymentResult → α → μ → Prop}
    {E : Exn → α → μ → Prop} {E' : α → μ → Prop} (h0 : P (w.attrs env.start.self) w.init)
    (hopen : ∀ a, P a w.init → P a (w.step w.init (.status { state := "deploying" })))
    (hb : ∀ dbPk, Spec w P (deploy env dbPk) Q E)
    (hQ : ∀ r a m, Q r a m → E .deploymentTimeoutExpired a m)
    (hP : ∀ f a m, P a m → E (.raised f) a m)
    (hexpired : ∀ t : Run, env.final.alarm.expiry = some [] → env.final.alarm.early = t.deeds →
      E .deploymentTimeoutExpired (w.attrs t.self) (w.mark t) → E' (w.attrs t.self) (w.mark t))
    (htimeout : ∀ dbPk, Calm w E' (handle env dbPk .deploymentTimeoutExpired) Q fun _ _ _ => True)
    (hfailure : ∀ dbPk f, Calm w (E (.raised f)) (handle env dbPk (.raised f)) Q fun _ _ _ => True) :
    ∃ r, env.outcome = (.ok r, env.final) ∧ Q r (w.attrs env.final.self) (w.mark env.final) := by
  -- what the handler is entered with depends on the end of the run, which is `env.final`
  suffices h : (execute env).Ends env.start
      (fun r t => t = env.final → Q r (w.attrs t.self) (w.mark t)) fun _ _ => False by
    unfold Program.Ends at h
    rcases hr : (execute env).run env.start with ⟨e | r, t⟩ <;> rw [hr] at h
    · exact h.elim
    · have ht : t = env.final := by rw [Env.final, Env.outcome, hr]
      exact ⟨r, by rw [Env.outcome, hr, ht], ht ▸ h ht⟩
  refine execute_ends env w P h0 hopen fun dbPk s hs hx hPs => ?_
  refine (guarded_ends env (hb dbPk) hQ hP hs hx hPs).mono (fun r t ht _ => ht.1) ?_
  rintro e t ⟨hE, hleft⟩
  cases e with
  | raised f =>
    exact ((handle_contained env dbPk _).returns (hfailure dbPk f) hleft.outside.1 hE).mono
      (fun r u hu _ => hu.1) fun _ _ => id
  | deploymentTimeoutExpired =>
    have hx : t.alarm.expiry = some [] := hleft.exit.1 rfl
    have hearly : t.alarm.early = t.deeds := by
      have hsplit := t.sorts.split
      rwa [hleft.late hx, List.append_nil] at hsplit
    have hreturns := (handle_contained env dbPk .deploymentTimeoutExpired).returns
      (Spec.any : Spec w (fun _ _ => True) _ _ _).calm hleft.outside.1 trivial
    unfold Program.Ends at hreturns ⊢
    rcases hr : (handle env dbPk .deploymentTimeoutExpired).run t with ⟨e | r, u⟩ <;>
      rw [hr] at hreturns
    · exact hreturns.elim
    rintro rfl
    obtain ⟨-, -, hux, hue⟩ := hreturns.2.outside hleft.outside
    have hE' := hexpired t (hux.trans hx) ((hue (by simp [hx])).trans hearly) hE
    have hQu := htimeout dbPk t hleft.outside.1 hE'
    unfold Program.Ends at hQu
    rw [hr] at hQu
    exact hQu.2

end Fraisier.Deploy
