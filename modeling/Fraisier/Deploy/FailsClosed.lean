import Fraisier.Deploy.Account
import Fraisier.Deploy.WayBack

/-!
# A failed database rollback fails closed

Both ways back undo the migrations before they touch the tree, and stop when that is reported to
have failed: old code against a half-migrated schema is worse than leaving the tree. A timer that
goes off in the first rollback starts a second one, which begins at the database again, because the
count of migrations is still there. `failed_rollback_fails_closed` says so of every later step of a
run.
-/

namespace Fraisier.Deploy

open Fraisier.Lib

variable {env : Env}

/-- What the last rollback of the database reported. -/
def lastReport (ds : List Deed) : Option Bool :=
  ds.foldl (fun report d => d.rollbackReport.or report) none

/-- What is known of the database while deeds are done. -/
structure Ward where
  /-- What the last rollback of the database reported. -/
  report : Option Bool := none
  /-- Old code was put back after a failed one. -/
  breached : Bool := false

/-- One more deed. -/
def Ward.see (m : Ward) (d : Deed) : Ward where
  report := d.rollbackReport.or m.report
  breached := m.breached || (d.putsBack && m.report == some false)

/-- What failing closed looks at. -/
def Watch.ward : Watch (Bool × Bool) Ward where
  attrs x := (x.owesRollback, x.previousSha.isSome)
  init := {}
  step := Ward.see
  reads := [.rollback, .worktree, .service, .settings, .applied, .previous]
  attrs_eq x y h := by
    have hs := h .settings (by simp)
    have ha := h .applied (by simp)
    have hp := h .previous (by simp)
    simp only [Attributes.Agree] at hs ha hp
    simp only [Attributes.owesRollback, hs, ha.1, hp.1]
  step_eq m d hd := by
    cases d <;> simp_all [Deed.aspect, Ward.see, Deed.rollbackReport, Deed.putsBack]

/-- The ward of a run says what the trace says. -/
theorem Ward.foldl_report (ds : List Deed) (m : Ward) :
    (ds.foldl Ward.see m).report = ds.foldl (fun report d => d.rollbackReport.or report) m.report := by
  induction ds generalizing m with
  | nil => rfl
  | cons d ds ih => rw [List.foldl_cons, ih, List.foldl_cons, Ward.see]

/-- What is breached stays breached. -/
theorem Ward.foldl_breached (ds : List Deed) (m : Ward) (h : m.breached = true) :
    (ds.foldl Ward.see m).breached = true := by
  induction ds generalizing m with
  | nil => exact h
  | cons d ds ih => exact ih _ (by simp [Ward.see, h])

/-- In an unbreached run, nothing that follows a failed rollback puts old code back. -/
theorem Ward.unbreached {ds : List Deed} (h : (ds.foldl Ward.see {}).breached = false)
    {before after : List Deed} {d : Deed} (hds : ds = before ++ d :: after)
    (hd : d.putsBack = true) : lastReport before ≠ some false := by
  intro hfailed
  have hm : ((before.foldl Ward.see {}).see d).breached = true := by
    have hr : (before.foldl Ward.see {}).report = some false :=
      (Ward.foldl_report before {}).trans hfailed
    simp [Ward.see, hd, hr]
  have hb := Ward.foldl_breached after _ hm
  rw [hds, List.foldl_append, List.foldl_cons, hb] at h
  cases h

/-- What holds whenever a rollback may begin: a failed one can only be followed by another, which
the count of migrations and the previous commit still call for. -/
def Ward.Kept (a : Bool × Bool) (m : Ward) : Prop :=
  m.breached = false ∧ (m.report = some false → a = (true, true))

/-- Before the first rollback. -/
def Ward.Fresh (_ : Bool × Bool) (m : Ward) : Prop := m.breached = false ∧ m.report = none

/-- Before the first rollback one may begin. -/
theorem Ward.Fresh.kept {a : Bool × Bool} {m : Ward} (h : Fresh a m) : Kept a m :=
  ⟨h.1, by simp [h.2]⟩

/-- A deed that reports nothing and puts nothing back is not noticed. -/
theorem Ward.see_quiet (m : Ward) {d : Deed} (hr : d.rollbackReport = none)
    (hp : d.putsBack = false) : m.see d = m := by
  simp [see, hr, hp]

/-- Entering a way back is no breach. -/
theorem Ward.Kept.goingBack {a : Bool × Bool} {m : Ward} (h : Kept a m) (way : Way) :
    Kept a (m.see (.goingBack way)) :=
  (m.see_quiet (d := .goingBack way) rfl rfl).symm ▸ h

/-- The database is not known to be half-migrated. -/
def Ward.Sound (_ : Bool × Bool) (m : Ward) : Prop := m.breached = false ∧ m.report ≠ some false

/-- Where the database is not known to be half-migrated, a rollback may begin. -/
theorem Ward.Sound.kept {a : Bool × Bool} {m : Ward} (h : Sound a m) : Kept a m :=
  ⟨h.1, fun hf => absurd hf h.2⟩

/-- Whatever makes no rollback of the database leaves the ward as it was, unless it is a breach. -/
theorem Ward.see_sound {m : Ward} {d : Deed} (hd : d.aspect ≠ .rollback)
    (h : m.breached = false ∧ m.report ≠ some false) :
    (m.see d).breached = false ∧ (m.see d).report = m.report := by
  cases d <;> simp_all [Deed.aspect, Ward.see, Deed.rollbackReport]

/-- A piece that rolls nothing back leaves the first rollback to come. -/
theorem fresh_invariant {β : Type} {K : List Aspect} {p : Piece K β} (hK : .rollback ∉ K) :
    Spec Watch.ward Ward.Fresh p (fun _ => Ward.Fresh) fun _ => Ward.Fresh := by
  refine .invariant (fun a m d hd h => ?_) fun _ _ _ _ h => h
  obtain ⟨hb, hr⟩ := Ward.see_sound (d := d) (fun he => hK (he ▸ hd)) ⟨h.1, by simp [h.2]⟩
  exact ⟨hb, hr.trans h.2⟩

/-- A piece that rolls nothing back leaves the database as sound as it was. -/
theorem sound_invariant {β : Type} {K : List Aspect} {p : Piece K β} (hK : .rollback ∉ K) :
    Spec Watch.ward Ward.Sound p (fun _ => Ward.Sound) fun _ => Ward.Sound := by
  refine .invariant (fun a m d hd h => ?_) fun _ _ _ _ h => h
  obtain ⟨hb, hr⟩ := Ward.see_sound (d := d) (fun he => hK (he ▸ hd)) h
  exact ⟨hb, fun hf => h.2 (hr.symm.trans hf)⟩

/-! ## The ways back -/

/-- After the database's turn. -/
def Ward.Turned : Bool → Bool × Bool → Ward → Prop
  | true => Sound
  | false => fun a m => m.breached = false ∧ m.report = some false ∧ a = (true, true)

/-- After the database's turn another rollback may begin. -/
theorem Ward.Turned.kept {b : Bool} {a : Bool × Bool} {m : Ward} (h : Turned b a m) : Kept a m := by
  cases b
  · exact ⟨h.1, fun _ => h.2.2⟩
  · exact Sound.kept h

/-- After a rollback, of its result. -/
def Ward.Rolled (r : DeploymentResult) (a : Bool × Bool) (m : Ward) : Prop :=
  Kept a m ∧ (m.report = some false → statusAfter r = .rollbackFailed)

/-- A failed rollback of the database is told, and no old code is put back after it. -/
theorem rollbackDatabase_ward (currentVersion : Option String) :
    Spec Watch.ward (fun a m => Ward.Kept a m ∧ a = (true, true))
      (rollbackDatabase env currentVersion)
      (fun r a m => (r.success = false → r.status = .rollbackFailed) ∧ Ward.Turned r.success a m)
      fun _ => Ward.Kept := by
  refine rollbackDatabase_spec (by decide) (fun _ _ _ h => h.1) (fun x resolved => ?_)
    (fun b _ a m h => h.kept) currentVersion
  refine (Spec.frame (by decide)).post ?_ fun _ _ _ h => h.1.1
  rintro r a m ⟨⟨hkept, ha⟩, -⟩
  cases hs : r.success
  · exact ⟨by simp [Watch.ward, Ward.see, Deed.putsBack, hkept.1], rfl, ha⟩
  · exact ⟨by simp [Watch.ward, Ward.see, Deed.putsBack, hkept.1], nofun⟩

/-- A deployer that owes no rollback of the database has not failed at one. -/
theorem Ward.Kept.sound {x : Attributes} {m : Ward} (h : Kept (Watch.ward.attrs x) m)
    (hfree : x.owesRollback = false) : Sound (Watch.ward.attrs x) m :=
  ⟨h.1, fun hf => by simpa [Watch.ward, hfree] using h.2 hf⟩

/-- A failed rollback of the database is told by the rollback it is part of. -/
theorem rollback_ward :
    Spec Watch.ward (fun a m => Ward.Kept a m ∧ Watch.ward.HasPrevious a) (rollback env) Ward.Rolled
      fun _ => Ward.Kept := by
  have hP : ∀ a m, Ward.Kept a m ∧ Watch.ward.HasPrevious a → Ward.Kept a m ∧ a.2 = true := by
    rintro _ m ⟨h, x, hx, rfl⟩
    exact ⟨h, hx⟩
  -- The way back is entered with a version to go to, and its outcome is recorded last.
  refine (rollback_spec Ward.Turned (fun _ => Ward.Kept) (by decide) (fun _ _ _ h => h.1)
    (fun _ _ h => ⟨h.1.goingBack _, h.2⟩) (fun cv => ?_) ?_ ?_ ?_ ?_).pre hP
  · refine (rollbackDatabase_ward cv).pre ?_
    rintro _ m ⟨⟨h, hp⟩, x, howes, rfl⟩
    exact ⟨h, Prod.ext howes hp⟩
  · exact fun x m hfree h => h.1.sound hfree
  · intro cv target details
    exact (sound_invariant (by decide)).post
      (fun r a m h => ⟨h.kept, fun hf => absurd hf h.2⟩) fun _ _ _ h => h.kept
  -- The record says how the way back ended.
  · intro r hs hstatus
    refine (recordOutcome_spec (by decide) r none).post ?_ fun _ _ _ h => h.kept
    rintro _ a m ⟨rfl, h⟩
    exact ⟨h.kept, fun _ => by simp [statusAfter, hs]⟩
  · intro f r hs hstatus
    refine (recordOutcome_spec (by decide) r none).post ?_ fun _ _ _ h => h
    rintro _ a m ⟨rfl, h⟩
    exact ⟨h, fun _ => by simp [statusAfter, hs]⟩

/-- After the previous state was restored: a database rollback that failed is told. -/
def Ward.Restored (o : RestoreOutcome) (a : Bool × Bool) (m : Ward) : Prop :=
  Kept a m ∧
    (m.report = some false → o.dbRollbackAttempted = true ∧ o.dbRollbackSucceeded = false)

/-- Without a previous commit, no rollback of the database was made. -/
theorem Ward.Kept.sound_of_first {x : Attributes} {m : Ward} (h : Kept (Watch.ward.attrs x) m)
    (hp : x.previousSha = none) : m.report ≠ some false :=
  fun hf => by simpa [Watch.ward, hp] using h.2 hf

/-- A failed rollback of the database is told by what restores the previous state. -/
theorem restorePreviousState_ward (keepServiceStopped : Bool) :
    Calm Watch.ward Ward.Kept (restorePreviousState env keepServiceStopped) Ward.Restored
      fun _ _ _ => True := by
  refine restorePreviousState_spec Ward.Turned
    (fun attempted _ a m => Ward.Kept a m ∧ (m.report = some false → attempted = true))
    keepServiceStopped (fun x m hp h => ⟨h, fun hf => absurd hf (h.sound_of_first hp)⟩)
    (fun _ _ _ h => h.goingBack _)
    (fun cv => ?_) (fun x m hfree _ h => h.sound hfree) (fun sha attempted => ?_)
    (fun message a m h => ⟨h.kept, fun _ => ⟨rfl, rfl⟩⟩)
    fun attempted message e a m h => ?_
  -- A failed rollback of the database turns the ward before the exception leaves.
  · refine ((rollbackDatabase_ward cv).pre ?_).post (fun _ _ _ => id) fun _ a m h =>
      ⟨h, fun _ => rfl⟩
    rintro _ m ⟨h, x, howes, hp, rfl⟩
    exact ⟨h, Prod.ext howes hp⟩
  · exact (sound_invariant (by decide)).post (fun o a m h => ⟨h.kept, fun hf => absurd hf h.2⟩)
      fun _ a m h => ⟨h.kept, fun hf => absurd hf h.2⟩
  · rw [show Watch.ward.step m .restoreRaised = m from m.see_quiet rfl rfl]
    exact ⟨h.1, fun hf => ⟨h.2 hf, rfl⟩⟩

/-! ## The run -/

/-- At the end of a run, of its result. -/
def Ward.Ended (r : DeploymentResult) (a : Bool × Bool) (m : Ward) : Prop :=
  Kept a m ∧ (m.report = some false → r.status = .rollbackFailed)

/-- Before the first rollback, a run may end with any result. -/
theorem Ward.Fresh.ended {r : DeploymentResult} {a : Bool × Bool} {m : Ward} (h : Fresh a m) :
    Ended r a m :=
  ⟨h.kept, by simp [h.2]⟩

/-- A run may end with the result its rollback's state gives. -/
theorem Ward.Rolled.ended {r r' : DeploymentResult} {a : Bool × Bool} {m : Ward}
    (hr : r'.status = statusAfter r) (h : Rolled r a m) : Ended r' a m :=
  ⟨h.1, fun hf => hr.trans (h.2 hf)⟩

/-- A run may end with the result classified by what was restored. -/
theorem Ward.Restored.ended {o : RestoreOutcome} {text : String} {r : DeploymentResult}
    {a : Bool × Bool} {m : Ward} (hr : r.status = (classifyFailure o text).1)
    (h : Restored o a m) : Ended r a m := by
  refine ⟨h.1, fun hf => ?_⟩
  obtain ⟨hattempted, hfailed⟩ := h.2 hf
  simp [hr, classifyFailure, hattempted, hfailed]

/-- The account of failing closed. -/
def Ward.account (env : Env) : Account env Watch.ward where
  start := Fresh
  advanced := Fresh
  left _ := Kept
  expired := Kept
  rolled := Rolled
  restored := Restored
  ended := Ended
  blind := by decide
  start_init := ⟨rfl, rfl⟩
  start_left _ _ _ h := h.kept
  advance_spec := (fresh_invariant (by decide)).post (fun _ _ _ => id) fun _ _ _ h => h.kept
  advanced_left _ _ _ h := h.kept
  rollback_spec := rollback_ward.pre fun _ _ h => ⟨h.1.kept, h.2⟩
  rollback_expired := rollback_ward.post (fun _ _ _ => id) fun _ _ _ _ => trivial
  build_spec r old := (buildRollbackResult_spec (by decide) r old).post
    (fun _ _ _ h => Rolled.ended h.1 h.2) fun _ _ _ h => h.1
  buildTimeout_spec r old message := (buildTimeoutRollbackResult_spec (by decide) r old message).post
    (fun _ _ _ h => Rolled.ended h.1 h.2) fun _ _ _ _ => trivial
  ended_left _ _ _ h := h.1
  halted _ _ m _ _ h := by
    rw [show Watch.ward.step m .smokeTestsHalted = m from m.see_quiet rfl rfl]
    exact h.ended
  succeeded _ _ _ _ h := h.ended
  unreverted _ x m hp _ h := ⟨h, fun hf => absurd hf (h.sound_of_first hp)⟩
  restore_spec f := restorePreviousState_ward _
  classified _ _ _ _ _ hr h := h.ended hr

/-- After a strategy's rollback reported failure, no later step of the run checks the worktree out
at the previous commit or starts the service, unless a later rollback reported success first. A run
whose last such report is a failure ends as `ROLLBACK_FAILED`. -/
theorem failed_rollback_fails_closed (env : Env) :
    ∃ r, env.outcome = (.ok r, env.final) ∧
      (∀ before d after, env.final.deeds = before ++ d :: after → d.putsBack = true →
        lastReport before ≠ some false) ∧
      (lastReport env.final.deeds = some false → r.status = .rollbackFailed) := by
  obtain ⟨r, hr, ⟨hunbreached, -⟩, hstatus⟩ := (Ward.account env).ends fun _ _ _ h => h
  refine ⟨r, hr, fun before d after hds hd => Ward.unbreached hunbreached hds hd, fun hf => ?_⟩
  exact hstatus ((Ward.foldl_report _ {}).trans hf)

end Fraisier.Deploy
