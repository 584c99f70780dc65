import Mathlib.Data.List.Induction
import Fraisier.Deploy.Account
import Fraisier.Deploy.WayBack

/-!
# A failed physical restore stays closed

Once the root helper has answered that the cluster is stopped, whatever fails in `_refresh` is turned
into a `RestoreFailedClosed`, the one exception for which the failure handler leaves the service
down. `failed_restore_stays_closed` follows that exception to the end of the run. The fact that the
restore failed closed travels on it alone: `Deed.losesFailure` are the places where another
exception takes its place.
-/

namespace Fraisier.Deploy

open Fraisier.Lib

variable {env : Env} {K : List Aspect}

/-! ## What the trace says -/

/-- The deed starts the application service. -/
def Deed.startsService : Deed → Bool
  | .service .start | .service .restart => true
  | _ => false

/-- Another exception takes the place of the one that keeps the service down. -/
def Deed.losesFailure : Deed → Bool
  | .stopRaised | .replaced => true
  | _ => false

/-- What is known of a physical restore. -/
structure Closure where
  /-- The cluster was stopped, and the restore has not passed its checks since. -/
  closed : Bool := false
  /-- The service was started while it was closed. -/
  started : Bool := false
  /-- The exception that keeps the service down was lost. -/
  lost : Bool := false
  deriving DecidableEq

/-- One more deed. -/
def Closure.see (m : Closure) : Deed → Closure
  | .stopAnswered => { m with closed := true }
  | .restorePassed => { m with closed := false }
  | d =>
    { m with
      started := m.started || (m.closed && d.startsService)
      lost := m.lost || (m.closed && d.losesFailure) }

/-- What the deeds say of a physical restore. -/
def Closure.ofDeeds (ds : List Deed) : Closure := ds.foldl see {}

/-- What staying closed looks at. -/
def Watch.closure : Watch Unit Closure where
  attrs _ := ()
  init := {}
  step := Closure.see
  reads := [.cluster, .service]
  attrs_eq _ _ _ := rfl
  step_eq m d hd := by
    cases d <;> simp_all [Deed.aspect, Closure.see, Deed.startsService, Deed.losesFailure]

/-- One more deed is seen after the others. -/
theorem Closure.ofDeeds_concat (ds : List Deed) (d : Deed) :
    ofDeeds (ds ++ [d]) = (ofDeeds ds).see d := by
  simp [ofDeeds]

/-- An exception was lost at a deed that did so. -/
theorem Closure.lost_at {ds : List Deed} (h : (ofDeeds ds).lost = true) :
    ∃ before d after, ds = before ++ d :: after ∧ d.losesFailure = true ∧
      (ofDeeds before).closed = true := by
  induction ds using List.reverseRecOn with
  | nil => cases h
  | append_singleton ds d ih =>
    rw [ofDeeds_concat] at h
    have hsee : (ofDeeds ds).lost = true ∨ (ofDeeds ds).closed = true ∧ d.losesFailure = true := by
      cases d <;> simp_all [see, Deed.losesFailure]
    obtain hlost | ⟨hclosed, hd⟩ := hsee
    · obtain ⟨before, d', after, rfl, hd', hclosed⟩ := ih hlost
      exact ⟨before, d', after ++ [d], by simp, hd', hclosed⟩
    · exact ⟨ds, d, [], rfl, hd, hclosed⟩

/-- A start of the service while it was closed is in the record. -/
theorem Closure.started_of {before after : List Deed} {d : Deed} (hd : d.startsService = true)
    (hclosed : (ofDeeds before).closed = true) : (ofDeeds (before ++ d :: after)).started = true := by
  have hmono : ∀ (ds : List Deed) (m : Closure), m.started = true → (ds.foldl see m).started = true := by
    intro ds
    induction ds with
    | nil => exact fun _ => id
    | cons d ds ih => exact fun m hm => ih _ (by cases d <;> simp [see, hm])
  rw [ofDeeds, List.foldl_append, List.foldl_cons]
  refine hmono after _ ?_
  have hbefore : (before.foldl see {}).closed = true := hclosed
  cases d with
  | service v => simp [see, hbefore, hd]
  | _ => cases hd

/-! ## The invariants -/

/-- No restore is under way. -/
def Closure.Open (_ : Unit) (m : Closure) : Prop :=
  m.lost = true ∨ (m.closed = false ∧ m.started = false)

/-- The service has not been started, whatever became of the restore. -/
def Closure.Shut (_ : Unit) (m : Closure) : Prop := m.lost = true ∨ m.started = false

/-- Where an exception is on its way: after a restore that failed, it keeps the service down. -/
def Closure.Left (e : Exn) (_ : Unit) (m : Closure) : Prop :=
  m.lost = true ∨
    (m.started = false ∧ (m.closed = true → ∀ f, e = .raised f → f.keepServiceStopped = true))

/-- An open service covers one that may be shut. -/
theorem Closure.Open.shut {a : Unit} {m : Closure} (h : Open a m) : Shut a m :=
  Or.imp_right And.right h

/-- An open service may be left by any exception. -/
theorem Closure.Open.left {a : Unit} {m : Closure} (h : Open a m) (e : Exn) : Left e a m :=
  Or.imp_right (fun h => ⟨h.2, fun hc => by simp [h.1] at hc⟩) h

/-- A shut service may be left by the timer. -/
theorem Closure.Shut.expired {a : Unit} {m : Closure} (h : Shut a m) :
    Left .deploymentTimeoutExpired a m :=
  Or.imp_right (fun h => ⟨h, fun _ _ => nofun⟩) h

/-- A shut service may be left by a failure that keeps it stopped. -/
theorem Closure.Shut.keeps {a : Unit} {m : Closure} {f : Failure} (h : Shut a m)
    (hf : f.keepServiceStopped = true) : Left (.raised f) a m :=
  Or.imp_right (fun h => ⟨h, fun _ _ he => by cases he; exact hf⟩) h

/-- However it was left, the service may be shut. -/
theorem Closure.Left.shut {a : Unit} {m : Closure} {e : Exn} (h : Left e a m) : Shut a m :=
  Or.imp_right And.left h

/-- An exception that does not keep the service down comes from no failed restore. -/
theorem Closure.Left.open {a : Unit} {m : Closure} {f : Failure} (h : Left (.raised f) a m)
    (hf : f.keepServiceStopped = false) : Open a m := by
  refine Or.imp_right (fun ⟨hs, hc⟩ => ⟨?_, hs⟩) h
  exact (Bool.not_eq_true _).mp fun hclosed => by simp [hf] at hc; simp [hc] at hclosed

/-- While no restore is under way, the service may do what it likes. -/
theorem open_frame {β : Type} {p : Piece K β} (hK : .cluster ∉ K) :
    Spec Watch.closure Closure.Open p (fun _ => Closure.Open) Closure.Left := by
  have h : Spec Watch.closure Closure.Open p (fun _ => Closure.Open) fun _ => Closure.Open := by
    refine .invariant (fun a m d hd h => ?_) fun _ _ _ _ h => h
    have hne : d.aspect ≠ .cluster := fun he => hK (he ▸ hd)
    have hsee : (m.see d).closed = m.closed ∧ (m.closed = false → (m.see d).started = m.started) ∧
        (m.see d).lost = m.lost := by
      cases d <;> simp_all [Deed.aspect, Closure.see, Deed.losesFailure]
    obtain ⟨hc, hs, hl⟩ := hsee
    obtain hlost | ⟨hclosed, hstarted⟩ := h
    · exact .inl (hl.trans hlost)
    · exact .inr ⟨hc.trans hclosed, (hs hclosed).trans hstarted⟩
  exact h.post (fun _ _ _ => id) fun e _ _ h => h.left e

/-! ## The physical restore -/

/-- The helper answers a stop, or the request fails. -/
theorem helperStop_closure {P : Unit → Closure → Prop} (hP : ∀ a m, P a m → Closure.Shut a m) :
    Spec Watch.closure P (helperStop env) (fun _ => Closure.Shut) fun _ => P := by
  have hasked : ∀ a m, P a m → P a (Watch.closure.step m .stopAsked) := by
    intro a m h
    have hsee : m.see .stopAsked = m := by simp [Closure.see, Deed.startsService, Deed.losesFailure]
    change P a (m.see .stopAsked)
    rwa [hsee]
  refine .call (fun n x m h => ?_) fun n e x m _ h => ⟨h, hasked _ _ h⟩
  have hshut : Closure.Shut () (m.see .stopAsked) := hP _ _ (hasked _ _ h)
  exact hshut

/-- The second stop. -/
theorem stopAgain_closure :
    Spec Watch.closure Closure.Shut (stopAgain env) (fun _ => Closure.Shut) Closure.Left := by
  have hbody : Spec Watch.closure Closure.Shut
      (do helperStop env; pure "" : Piece [.cluster] String) (fun _ => Closure.Shut)
      fun _ => Closure.Shut :=
    .bind (helperStop_closure fun _ _ => id) fun _ => .pure fun _ _ h => h
  refine .exceptFailure hbody (fun _ _ h => h.expired) fun f => .ite (fun _ => ?_) fun _ => ?_
  · exact .pure fun _ _ h => h
  -- an exception that nobody expects here takes the place of the failure
  have hnote : Spec Watch.closure Closure.Shut noteStopRaised (fun _ => Closure.Open)
      Closure.Left := by
    refine .note fun x m h => ?_
    cases hc : m.closed with
    | true => exact .inl (by simp [Effect.deed, Watch.closure, Closure.see, hc, Deed.losesFailure])
    | false =>
      obtain hl | hs := h
      · exact .inl (by simp [Effect.deed, Watch.closure, Closure.see, hl])
      · exact .inr (by simp [Effect.deed, Watch.closure, Closure.see, hc, hs])
  exact .bind hnote fun _ => .raise fun _ _ h => h.left _

/-- Failing closed raises a failure that keeps the service stopped. -/
theorem failClosed_closure (reason : String) :
    Spec Watch.closure Closure.Shut (failClosed env reason) (fun _ => Closure.Open) Closure.Left :=
  .bind stopAgain_closure fun _ => .raise fun _ _ h => h.keeps rfl

/-- A failed refresh opens the service or keeps it stopped. -/
theorem onRefreshFailed_closure (e : Exn) :
    Spec Watch.closure Closure.Shut (onRefreshFailed env e) (fun _ => Closure.Open)
      Closure.Left := by
  cases e with
  | deploymentTimeoutExpired => exact failClosed_closure _
  | raised f =>
    refine .ite (fun hf => .raise fun _ _ h => h.keeps ?_) fun _ => failClosed_closure _
    simpa [Failure.keepServiceStopped] using hf

/-- A refresh that returns leaves the service open. -/
theorem refresh_closure (cfg : RestoreConfig) (spec : PgBackRestSpec) :
    Spec Watch.closure Closure.Shut (refresh env cfg spec) (fun _ => Closure.Open)
      fun _ => Closure.Shut := by
  have hpassed : ∀ a m, Closure.Shut a m → Closure.Open a (Watch.closure.step m .restorePassed) :=
    fun _ _ => Or.imp_right fun hs => ⟨rfl, hs⟩
  have hE : ∀ (e : Exn) a m, Closure.Shut a m → Closure.Shut a m := fun _ _ _ => id
  refine .ask_bind hE fun _ => .ask_bind hE fun _ => .ask_bind hE fun _ => .ask_bind hE fun _ => ?_
  refine .frame_bind (by simp) hE fun _ => .frame_bind (by simp) hE fun _ => ?_
  refine .ask_bind hE fun tviews => .bind (.whenever (fun _ => .ask) fun _ _ _ => id) fun _ => ?_
  exact .assign (fun _ m h => hpassed _ m h) (fun _ _ => id) fun _ m h => (hpassed _ m h).shut

/-- A physical restore that does not pass leaves the exception that keeps the service down. -/
theorem restorePgBackRest_closure (cfg : RestoreConfig) (spec : PgBackRestSpec)
    (serviceName : Option String) :
    Spec Watch.closure Closure.Open (restorePgBackRest env cfg spec serviceName)
      (fun _ => Closure.Open) Closure.Left := by
  refine .lift_bind (open_frame (by decide)) fun _ => .lift_bind (Q := fun _ => Closure.Shut) ?_ fun _ => ?_
  · refine .exceptFailure (helperStop_closure fun _ _ h => h.shut) (fun _ _ h => h.left _) fun f => ?_
    exact .ite (fun _ => .raise fun _ _ h => h.left _) fun _ => .raise fun _ _ h => h.left _
  · exact .lift (.exceptException (refresh_closure cfg spec) onRefreshFailed_closure)

/-! ## The steps of a deploy -/

/-- A restore leaves the service open, or keeps it stopped. -/
theorem restoreSource_closure (cfg : RestoreConfig) (serviceName : Option String) :
    Spec Watch.closure Closure.Open (restoreSource env cfg serviceName) (fun _ => Closure.Open)
      Closure.Left := by
  unfold restoreSource
  cases cfg.pgbackrest with
  | none => exact .lift (open_frame (by decide))
  | some spec => exact restorePgBackRest_closure cfg spec serviceName

/-- A strategy leaves the service open, or keeps it stopped. -/
theorem execute_closure (strategy : Strategy) (allowIrreversible preVerify : Bool) :
    Spec Watch.closure Closure.Open (strategy.execute env allowIrreversible preVerify)
      (fun _ => Closure.Open) Closure.Left := by
  -- Only the strategy that restores stops the service.
  cases strategy with
  | migrate dump db => exact .lift (open_frame (by decide))
  | rebuild roles createTemplate => exact .lift (open_frame (by simp))
  | restoreMigrate cfg serviceName =>
    have hE : ∀ e a m, Closure.Open a m → Closure.Left e a m := fun e _ _ h => h.left e
    refine .ask_bind hE fun _ => .lift_bind (open_frame (by simp)) fun _ => ?_
    refine .lift_bind (open_frame (by simp)) fun _ => ?_
    refine .lift_bind (restoreSource_closure cfg serviceName) fun _ => ?_
    refine .lift_bind (open_frame (by simp)) fun take => ?_
    refine .bind (.whenever (fun _ => .lift (open_frame (by simp))) fun _ _ _ h => h) fun _ => ?_
    refine .lift_bind (open_frame (by decide)) fun _ => .lift_bind (open_frame (by decide)) fun _ => ?_
    refine .lift_bind (open_frame (by decide)) fun _ => ?_
    exact .ask_bind hE fun _ => .pure fun _ _ h => h

/-- The clause that keeps the count raises the same exception again. -/
theorem executeStrategy_closure (strategy : Strategy) (allowIrreversible preVerify : Bool) :
    Spec Watch.closure Closure.Open (executeStrategy env strategy allowIrreversible preVerify)
      (fun _ => Closure.Open) Closure.Left := by
  refine .exceptFailure (execute_closure strategy _ _) (fun _ _ => id) fun f => ?_
  refine .ite (fun _ => ?_) fun _ => .raise fun _ _ h => h
  -- Keeping the count may only be cut short by the timer.
  have hset : Spec Watch.closure (Closure.Left (.raised f)) (setStepsApplied env f.stepsApplied)
      (fun _ => Closure.Left (.raised f)) Closure.Left := by
    have hcontained : Contained (setStepsApplied env f.stepsApplied) := by
      unfold setStepsApplied
      split
      · exact .pure
      · exact .pure
      · exact .assign rfl
    refine (hcontained.spec (Spec.frame (by decide))).post (fun _ _ _ => id) ?_
    rintro e a m ⟨rfl, h⟩
    exact h.shut.expired
  exact .lift_bind hset fun _ => .raise fun _ _ h => h

/-- Running the strategy leaves the service open, or keeps it stopped. -/
theorem runStrategy_closure :
    Spec Watch.closure Closure.Open (runStrategy env) (fun _ => Closure.Open) Closure.Left := by
  refine .lift_bind (open_frame (by simp)) fun strategy => .lift_bind (open_frame (by simp)) fun _ => ?_
  refine .lift_bind (open_frame (by simp)) fun _ => .lift_bind (open_frame (by simp)) fun db => ?_
  refine .lift_bind (open_frame (by simp)) fun _ => .lift_bind (open_frame (by simp)) fun _ => ?_
  refine .lift_bind (open_frame (by decide)) fun _ => .self_bind_any fun me => ?_
  -- The strategy is executed in its directory, which is left whatever happens.
  refine .bind (.ensuring_lost (executeStrategy_closure strategy _ _) (fun _ => Program.ends_true _ _)
    (fun _ e _ _ _ h => h.left e) (fun _ _ _ _ h => h.shut.expired) ?_) fun result => ?_
  · -- a directory that cannot be entered again takes the place of the failure
    intro e f x m _ h
    cases hc : m.closed with
    | true =>
      exact .inl (by simp [Effect.widen, Effect.deed, Watch.closure, Closure.see, hc, Deed.losesFailure])
    | false =>
      obtain hl | hs := h.shut
      · exact .inl (by simp [Effect.widen, Effect.deed, Watch.closure, Closure.see, hl])
      · exact .inr ⟨by simp [Effect.widen, Effect.deed, Watch.closure, Closure.see, hc, hs],
          by simp [Effect.widen, Effect.deed, Watch.closure, Closure.see, hc]⟩
  refine .lift_bind (open_frame (by decide)) fun _ => .ite (fun _ => .pure fun _ _ h => h) fun _ => ?_
  exact .lift_bind (open_frame (by simp)) fun _ => .raise fun _ _ h => h.left _

/-- The migration step leaves the service open, or keeps it stopped. -/
theorem migrateStep_closure :
    Spec Watch.closure Closure.Open (migrateStep env) (fun _ => Closure.Open) Closure.Left := by
  refine .self_bind_any fun me => .whenever (fun _ => ?_) fun _ _ _ h => h
  refine .lift_bind (open_frame (by decide)) fun _ => .lift_bind (Q := fun _ => Closure.Open) ?_ fun _ => ?_
  · refine .lift_bind (open_frame (by simp)) fun db => ?_
    refine .bind (.whenever (fun _ => .lift (open_frame (by decide))) fun _ _ _ h => h) fun _ => ?_
    exact runStrategy_closure
  · exact .lift_bind (open_frame (by simp)) fun _ => .lift_bind (open_frame (by simp)) fun _ =>
      .lift (open_frame (by simp))

/-- Advancing leaves the service open, or keeps it stopped. -/
theorem advance_closure :
    Spec Watch.closure Closure.Open (advance env) (fun _ => Closure.Open) Closure.Left := by
  refine .lift_bind (open_frame (by decide)) fun _ => .lift_bind (open_frame (by decide)) fun _ => ?_
  refine .lift_bind (open_frame (by decide)) fun _ => .lift_bind (open_frame (by decide)) fun r => ?_
  refine .lift_bind (open_frame (by decide)) fun _ => .lift_bind (open_frame (by decide)) fun _ => ?_
  refine .lift_bind (open_frame (by decide)) fun _ => .lift_bind (open_frame (by decide)) fun _ => ?_
  refine .lift_bind (open_frame (by decide)) fun _ => .lift_bind (open_frame (by decide)) fun _ => ?_
  refine .lift_bind migrateStep_closure fun _ => .lift_bind (open_frame (by decide)) fun _ => ?_
  exact .pure fun _ _ h => h

/-! ## The failure handler -/

/-- A failure that closed leaves the service down. -/
theorem restoreTree_closure (sha : String) (attempted : Bool) :
    Spec Watch.closure Closure.Shut (restoreTree env sha attempted true) (fun _ => Closure.Shut)
      fun _ => Closure.Shut := by
  refine .frame_bind (by decide) (fun _ _ _ => id) fun _ => ?_
  refine .frame_bind (by decide) (fun _ _ _ => id) fun _ => .self_bind_any fun me => ?_
  refine .bind (.whenever (fun hr => ?_) fun _ _ _ h => h) fun _ => .pure fun _ _ h => h
  simp at hr

/-- Restoring the previous state starts no service that was to stay stopped. -/
theorem restorePreviousState_closure (f : Failure) :
    Calm Watch.closure (Closure.Left (.raised f)) (restorePreviousState env f.keepServiceStopped)
      (fun _ => Closure.Shut) fun _ _ _ => True := by
  -- A service that may be started is started by no way back that was not entered.
  cases hf : f.keepServiceStopped with
  | false =>
    exact (open_frame (by decide)).calm.mono (fun _ _ h => h.open hf) (fun _ _ _ h => h.shut)
      fun _ _ _ _ => trivial
  | true =>
    have hgo : ∀ (a : Unit) m, Closure.Shut a m →
        Closure.Shut a (Watch.closure.step m (.goingBack .restore)) :=
      fun a m h => (Watch.closure.step_eq m (.goingBack .restore) (by decide)).symm ▸ h
    have hraised : ∀ (a : Unit) m, Closure.Shut a m →
        Closure.Shut a (Watch.closure.step m .restoreRaised) :=
      fun a m h => (Watch.closure.step_eq m .restoreRaised (by decide)).symm ▸ h
    refine (restorePreviousState_spec (fun _ => Closure.Shut) (fun _ _ => Closure.Shut) true
      (fun _ _ _ => id) (fun _ m _ => hgo _ m) (fun cv => ?_) (fun _ _ _ _ => id)
      restoreTree_closure (fun _ _ _ => id) fun _ _ _ a m => hraised a m).mono (fun _ _ h => h.shut)
      (fun _ _ _ => id) fun _ _ _ => id
    refine rollbackDatabase_spec (R := fun _ => Closure.Shut) (by decide) (fun _ _ _ h => h.1)
      (fun x resolved => ?_) (fun _ _ _ _ => id) cv
    refine (Spec.frame (by decide)).post (fun r a m h => ?_) fun _ _ _ h => h.1.1
    exact (Watch.closure.step_eq m (.rolledBack _ r.success) (by simp [Deed.aspect, Watch.closure]))
      |>.symm ▸ h.1.1

/-! ## The run -/

/-- The account of staying closed. -/
def Closure.account (env : Env) : Account env Watch.closure where
  start := Open
  advanced := Open
  left := Left
  expired := Open
  rolled _ := Open
  restored _ := Shut
  ended _ := Shut
  blind := by decide
  start_init := .inr ⟨rfl, rfl⟩
  start_left _ _ _ h := h.left _
  advance_spec := advance_closure
  advanced_left e _ _ h := h.left e
  rollback_spec := ((open_frame (by decide)).pre fun _ _ h => h.1).post (fun _ _ _ => id)
    fun _ _ _ h => h.shut.expired
  rollback_expired := ((open_frame (by decide)).pre fun _ _ h => h.1).post (fun _ _ _ => id)
    fun _ _ _ _ => trivial
  build_spec r old := (open_frame (by decide)).post (fun _ _ _ h => h.shut)
    fun _ _ _ h => h.shut.expired
  buildTimeout_spec r old message := (open_frame (by decide)).post (fun _ _ _ h => h.shut)
    fun _ _ _ _ => trivial
  ended_left _ _ _ h := h.expired
  halted _ a m _ _ h := (Watch.closure.step_eq m .smokeTestsHalted (by decide)).symm ▸ h.shut
  succeeded _ _ _ _ h := h.shut
  unreverted _ _ _ _ _ h := h.shut
  restore_spec := restorePreviousState_closure
  classified _ _ _ _ _ _ h := h

/-- Once the helper has answered that the cluster is stopped, and unless the restore then passed its
checks, no later step of the run starts the service: provided that no other exception took the place
of the one that keeps it down, and that the timer's did not get out to the run's handler. -/
theorem failed_restore_stays_closed (env : Env)
    (htimer : env.final.alarm.expiry = some [] →
      (Closure.ofDeeds env.final.alarm.early).closed = false)
    (hlost : ∀ before d after, env.final.deeds = before ++ d :: after → d.losesFailure = true →
      (Closure.ofDeeds before).closed = false) :
    ∀ before d after, env.final.deeds = before ++ d :: after → d.startsService = true →
      (Closure.ofDeeds before).closed = false := by
  obtain ⟨r, -, hshut⟩ := (Closure.account env).ends fun t hx hearly hleft => by
    have hshut : Closure.Shut () (Watch.closure.mark t) := Closure.Left.shut hleft
    refine Or.imp_right (fun hs => ⟨?_, hs⟩) hshut
    have hclosed := htimer hx
    rwa [hearly] at hclosed
  -- No deed that loses the closure was done while it stood.
  have hkept : (Closure.ofDeeds env.final.deeds).lost = false := (Bool.not_eq_true _).mp fun hl => by
    obtain ⟨before, d, after, hds, hd, hclosed⟩ := Closure.lost_at hl
    exact nomatch hclosed.symm.trans (hlost before d after hds hd)
  have hstarted : (Closure.ofDeeds env.final.deeds).started = false :=
    hshut.resolve_left fun hl => nomatch hkept.symm.trans hl
  intro before d after hds hd
  refine (Bool.not_eq_true _).mp fun hclosed => ?_
  -- A start under the closure would have been counted.
  have hstarts : (Closure.ofDeeds (before ++ d :: after)).started = true :=
    Closure.started_of hd hclosed
  rw [← hds, hstarted] at hstarts
  cases hstarts

/-! ## A stop that is refused, and a check that fails -/

/-- A deploy that restores from pgBackRest. The helper's first stop is the statement numbered 107,
and the check of the data directory after the restore the one numbered 114. -/
def physicalRestore : Env where
  fraise :=
    { settings :=
        { systemdService := some "api.service"
          databaseConfig := some
            { strategy := .restoreMigrate
              name := "app"
              adminUrl := some "postgresql:///postgres"
              restore := some { dbName := "app", pgbackrest := some {} } } } }
  sha _ := some "0a1b2c3d"
  text n := if n == 103 then "" else "4e5f6a7b"

set_option maxRecDepth 10000 in
/-- The helper refuses the first stop, which it was asked for: nothing has been touched, and the
service is restarted on the previous commit. -/
theorem refused_stop_restarts :
    let env := { physicalRestore with
      fault := fun n => if n == 107 then some { cls := .helperUnavailableError } else none }
    (env.final.deeds.dropWhile (· != .stopAsked)).any Deed.startsService = true ∧
      .stopAsked ∈ env.final.deeds ∧ .restorePassed ∉ env.final.deeds := by
  decide

set_option maxRecDepth 10000 in
/-- The restored cluster is not the helper's, and the service stays down. -/
theorem failed_restore_stays_closed_wrong_cluster :
    let env := { physicalRestore with flag := fun n => n != 114 }
    (Closure.ofDeeds env.final.deeds).closed = true ∧
      ∀ before d after, env.final.deeds = before ++ d :: after → d.startsService = true →
        (Closure.ofDeeds before).closed = false := by
  refine ⟨by decide, failed_restore_stays_closed { physicalRestore with flag := fun n => n != 114 }
    (by decide) fun before d after hds hd => ?_⟩
  have hmem : d ∈ ({ physicalRestore with flag := fun n => n != 114 } : Env).final.deeds := by
    rw [hds]
    simp
  have hnone : ({ physicalRestore with flag := fun n => n != 114 } : Env).final.deeds.all
      (fun d => !d.losesFailure) = true := by decide
  simpa [hd] using List.all_eq_true.mp hnone d hmem

end Fraisier.Deploy
