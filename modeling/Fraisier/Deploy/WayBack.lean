import Fraisier.Deploy.Outcome

/-!
# The two ways back

`rollback` and `restorePreviousState` share their order: the database when it owes a rollback, then
the tree, then the service. The rules here walk through both once, for any property that looks at
neither the incident file nor the flag of an interrupted rollback. They are stated over `R`: what
holds after the database's turn, `R true` when the tree may follow and `R false` when the
database rollback was reported to have failed.
-/

namespace Fraisier.Deploy

open Fraisier.Lib

variable {α μ : Type} {env : Env} {w : Watch α μ} {P : α → μ → Prop}

/-- What a strategy's rollback reported. -/
def Deed.rollbackReport : Deed → Option Bool
  | .rolledBack _ success => some success
  | _ => none

/-- The deed puts old code back: it checks the worktree out at the previous commit, or starts the
service. -/
def Deed.putsBack : Deed → Bool
  | .checkout _ | .reverted _ | .service .restart | .service .start => true
  | _ => false

/-- The report of a database rollback says whether it succeeded, and a failed one fails the
deploy. -/
theorem reportRollbackDatabase_spec (hw : .incident ∉ w.reads) (currentVersion : Option String)
    (applied : ℕ) (dbResult : StrategyResult) :
    Spec w P (reportRollbackDatabase env currentVersion applied dbResult)
      (fun r a m => (r.success = dbResult.success ∧ (r.success = false → r.status = .rollbackFailed)) ∧
        P a m) fun _ => P := by
  have hw' : ∀ a ∈ [Aspect.incident], a ∉ w.reads := by simpa using hw
  refine .ite (fun hs => .pure fun a m h => ⟨⟨hs.symm, by simp⟩, h⟩) fun hs => ?_
  refine .frame_bind (by simp) (fun _ _ _ => id) fun errors => ?_
  refine .bind (.frame hw') fun _ => .pure fun a m h => ⟨⟨?_, ?_⟩, h⟩
  · simpa using hs
  · exact fun _ => rfl

/-- What `_rollback_database` comes to: what the strategy's rollback does, and its report. -/
theorem rollbackDatabase_spec {R : Bool → α → μ → Prop} {E : Exn → α → μ → Prop}
    (hw : .incident ∉ w.reads)
    (hP : ∀ e a m, P a m → E e a m)
    (hstrategy : ∀ (x : Attributes) (resolved : Strategy),
      Spec w (fun a m => P a m ∧ a = w.attrs x)
        ((x.executedStrategy.getD resolved).rollback env x.migrationsApplied)
        (fun r a m => R r.success a (w.step m (.rolledBack x.migrationsApplied r.success))) E)
    (hR : ∀ b e a m, R b a m → E e a m) (currentVersion : Option String) :
    Spec w P (rollbackDatabase env currentVersion)
      (fun r a m => (r.success = false → r.status = .rollbackFailed) ∧ R r.success a m) E := by
  refine .frame_bind (by simp) hP fun resolved => .frame_bind (by simp) hP fun _ => ?_
  refine .self_bind fun me => .lift_bind (hstrategy me _) fun dbResult => ?_
  -- What is told of the rollback does not change what is looked at.
  have hnote : Spec w
      (fun a m => R dbResult.success a
        (w.step m (.rolledBack me.migrationsApplied dbResult.success)))
      (noteRolledBack me.migrationsApplied dbResult.success)
      (fun _ => R dbResult.success) E := .note fun _ _ h => h
  refine .lift_bind hnote fun _ => ?_
  refine (Spec.lift (reportRollbackDatabase_spec hw _ _ _)).post ?_ (hR dbResult.success)
  rintro r a m ⟨⟨hs, hf⟩, h⟩
  exact ⟨hf, hs ▸ h⟩

/-! ## Properties that do not look at the record or the configuration -/

/-- Filing an outcome gives back the result. -/
theorem recordOutcome_spec (hw : ∀ a ∈ [Aspect.record, .config], a ∉ w.reads)
    (r : DeploymentResult) (errorMessage : Option String) :
    Spec w P (recordOutcome env r errorMessage) (fun r' a m => r' = r ∧ P a m) fun _ => P := by
  have hrecord : ∀ a ∈ [Aspect.record], a ∉ w.reads := by simpa using hw .record (by simp)
  have hconfig : ∀ a ∈ [Aspect.config], a ∉ w.reads := by simpa using hw .config (by simp)
  refine .frame_bind hrecord (fun _ _ _ => id) fun _ => ?_
  exact .frame_bind hconfig (fun _ _ _ => id) fun _ => .pure fun _ _ h => ⟨rfl, h⟩

/-- A failed rollback is filed again, and sent to the notifiers. -/
theorem recordFailure_spec (hw : ∀ a ∈ [Aspect.record, .config], a ∉ w.reads)
    (r : DeploymentResult) (errorMessage : Option String) :
    Spec w P (do let _ ← recordOutcome env r errorMessage; notify env r; pure r : Piece _ _)
      (fun r' a m => r' = r ∧ P a m) fun _ => P := by
  refine .bind (recordOutcome_spec hw _ _) fun _ => ?_
  exact .frame_bind (by simp) (fun _ _ _ h => h.2) fun _ => .pure fun _ _ h => ⟨rfl, h.2⟩

/-- The status of a run that ended in a rollback. -/
def statusAfter (rollbackResult : DeploymentResult) : DeploymentStatus :=
  if rollbackResult.success then .rolledBack else .rollbackFailed

/-- Reporting a rollback changes nothing that is watched. -/
theorem buildRollbackResult_spec (hw : ∀ a ∈ [Aspect.record, .config], a ∉ w.reads)
    (r : DeploymentResult) (oldVersion : Option String) :
    Spec w P (buildRollbackResult env r oldVersion)
      (fun r' a m => r'.status = statusAfter r ∧ P a m) fun _ => P := by
  refine .ite (fun hs => .pure fun a m h => ⟨by simp [statusAfter, hs], h⟩) fun hs => ?_
  refine (recordFailure_spec hw _ _).post ?_ fun _ _ _ => id
  rintro _ a m ⟨rfl, h⟩
  exact ⟨by simp [statusAfter, hs], h⟩

/-- Reporting a rollback after the timer changes nothing that is watched. -/
theorem buildTimeoutRollbackResult_spec (hw : ∀ a ∈ [Aspect.record, .config], a ∉ w.reads)
    (r : DeploymentResult) (oldVersion : Option String) (message : String) :
    Spec w P (buildTimeoutRollbackResult env r oldVersion message)
      (fun r' a m => r'.status = statusAfter r ∧ P a m) fun _ => P := by
  refine .ite (fun hs => .pure fun a m h => ⟨by simp [statusAfter, hs], h⟩) fun hs => ?_
  refine (recordFailure_spec hw _ _).post ?_ fun _ _ _ => id
  rintro _ a m ⟨rfl, h⟩
  exact ⟨by simp [statusAfter, hs], h⟩

/-! ## The ways back -/

/-- `rollback`: the database, then the tree; a failure of either is recorded. `P` holds before the
way back is entered, and `P'` from then on. `T` is what is known of the commit it goes back to. -/
theorem rollback_spec_target (P' : α → μ → Prop) (R : Bool → α → μ → Prop) (T : String → Prop)
    {F : DeploymentResult → α → μ → Prop} (E : Exn → α → μ → Prop) (hw : .interrupted ∉ w.reads)
    (hP : ∀ a m, P a m → E .deploymentTimeoutExpired a m)
    (hnone : ∀ (x : Attributes) f m, x.previousSha = none → P (w.attrs x) m →
      E (.raised f) (w.attrs x) m)
    (hgo : ∀ a m, P a m → P' a (w.step m (.goingBack .rollback)))
    (hP' : ∀ e a m, P' a m → E e a m)
    (htarget : ∀ (x : Attributes) m target, x.previousSha = some target → P (w.attrs x) m → T target)
    (hdatabase : ∀ currentVersion, Spec w
      (fun a m => P' a m ∧ ∃ x : Attributes, x.owesRollback = true ∧ a = w.attrs x)
      (rollbackDatabase env currentVersion)
      (fun r a m => (r.success = false → r.status = .rollbackFailed) ∧ R r.success a m) E)
    (hfree : ∀ (x : Attributes) m, x.owesRollback = false → P' (w.attrs x) m → R true (w.attrs x) m)
    (hrevert : ∀ currentVersion target details, T target →
      Spec w (R true) (revert env currentVersion target details) F E)
    (hfailed : ∀ r, r.success = false → r.status = .rollbackFailed →
      Spec w (R false) (recordOutcome env r) F E)
    (hraised : ∀ f r, r.success = false → r.status = .rollbackFailed →
      Spec w (E (.raised f)) (recordOutcome env r) F fun _ => E .deploymentTimeoutExpired) :
    Spec w P (rollback env) F fun _ => E .deploymentTimeoutExpired := by
  have hto : ∀ currentVersion (me : Attributes), Spec w (fun a m => P a m ∧ a = w.attrs me)
      (rollbackTo env currentVersion me.previousSha) F E := by
    intro currentVersion me
    cases hp : me.previousSha with
    | none =>
      refine .raise ?_
      rintro _ m ⟨h, rfl⟩
      exact hnone me _ m hp h
    | some target =>
      refine .of_pre fun a₀ m₀ h₀ => ?_
      have ht : T target := htarget me m₀ target hp (h₀.2 ▸ h₀.1)
      refine .pre (P := fun a m => P a m ∧ a = w.attrs me) ?_ fun a m h => h.1 ▸ h.2 ▸ h₀
      refine .lift_bind (Q := fun _ => P') (.note fun x m h => hgo _ m h.1) fun _ => ?_
      refine .frame_bind (by simp) hP' fun _ => .self_bind fun me => ?_
      refine .ite (fun howes => ?_) fun hfreed => ?_
      · refine .lift_bind ((hdatabase _).pre fun a m h => ⟨h.1, me, howes, h.2⟩) fun r => ?_
        refine .ite (fun hs => ?_) fun hs => ?_
        · exact (Spec.lift (hrevert _ _ _ ht)).pre fun a m h => hs ▸ h.2
        · have hs' : r.success = false := by simpa using hs
          exact .of_pre fun a m h => (Spec.lift (hfailed r hs' (h.1 hs'))).pre fun a' m' h' =>
            h'.1 ▸ h'.2 ▸ hs' ▸ h.2
      · refine (Spec.lift (hrevert _ _ _ ht)).pre ?_
        rintro a m ⟨h, rfl⟩
        exact hfree me m (by simpa using hfreed) h
  have hversion : Spec w P (getCurrentVersion env) (fun _ => P) fun _ => E .deploymentTimeoutExpired :=
    ((getCurrentVersion_contained env).spec (Spec.frame (by simp))).post (fun _ _ _ h => h)
      fun _ a m h => hP a m h.2
  refine .lift_bind hversion fun currentVersion => .self_bind fun me => ?_
  refine .exceptFailure (.noteTimeout (hto _ me) (fun x m h => ?_) fun _ _ _ => id) (fun _ _ => id)
    fun f => .lift (hraised f _ rfl rfl)
  -- the flag that is set is not looked at
  have hx : w.attrs { x with rollbackInterrupted := true } = w.attrs x :=
    w.attrs_eq _ _ fun a ha => by
      cases a <;> first | exact absurd ha hw | simp [Attributes.Agree]
  exact hx ▸ h

/-- `rollback`, when it does not matter what it goes back to. -/
theorem rollback_spec_entered (P' : α → μ → Prop) (R : Bool → α → μ → Prop)
    {F : DeploymentResult → α → μ → Prop} (E : Exn → α → μ → Prop) (hw : .interrupted ∉ w.reads)
    (hP : ∀ a m, P a m → E .deploymentTimeoutExpired a m)
    (hnone : ∀ (x : Attributes) f m, x.previousSha = none → P (w.attrs x) m →
      E (.raised f) (w.attrs x) m)
    (hgo : ∀ a m, P a m → P' a (w.step m (.goingBack .rollback)))
    (hP' : ∀ e a m, P' a m → E e a m)
    (hdatabase : ∀ currentVersion, Spec w
      (fun a m => P' a m ∧ ∃ x : Attributes, x.owesRollback = true ∧ a = w.attrs x)
      (rollbackDatabase env currentVersion)
      (fun r a m => (r.success = false → r.status = .rollbackFailed) ∧ R r.success a m) E)
    (hfree : ∀ (x : Attributes) m, x.owesRollback = false → P' (w.attrs x) m → R true (w.attrs x) m)
    (hrevert : ∀ currentVersion target details,
      Spec w (R true) (revert env currentVersion target details) F E)
    (hfailed : ∀ r, r.success = false → r.status = .rollbackFailed →
      Spec w (R false) (recordOutcome env r) F E)
    (hraised : ∀ f r, r.success = false → r.status = .rollbackFailed →
      Spec w (E (.raised f)) (recordOutcome env r) F fun _ => E .deploymentTimeoutExpired) :
    Spec w P (rollback env) F fun _ => E .deploymentTimeoutExpired :=
  rollback_spec_target P' R (fun _ => True) E hw hP hnone hgo hP' (fun _ _ _ _ _ => trivial) hdatabase
    hfree (fun currentVersion target details _ => hrevert currentVersion target details) hfailed hraised

/-- `rollback`, when it does not matter whether it was entered. -/
theorem rollback_spec (R : Bool → α → μ → Prop) {F : DeploymentResult → α → μ → Prop}
    (E : Exn → α → μ → Prop) (hw : .interrupted ∉ w.reads) (hP : ∀ e a m, P a m → E e a m)
    (hgo : ∀ a m, P a m → P a (w.step m (.goingBack .rollback)))
    (hdatabase : ∀ currentVersion, Spec w
      (fun a m => P a m ∧ ∃ x : Attributes, x.owesRollback = true ∧ a = w.attrs x)
      (rollbackDatabase env currentVersion)
      (fun r a m => (r.success = false → r.status = .rollbackFailed) ∧ R r.success a m) E)
    (hfree : ∀ (x : Attributes) m, x.owesRollback = false → P (w.attrs x) m → R true (w.attrs x) m)
    (hrevert : ∀ currentVersion target details,
      Spec w (R true) (revert env currentVersion target details) F E)
    (hfailed : ∀ r, r.success = false → r.status = .rollbackFailed →
      Spec w (R false) (recordOutcome env r) F E)
    (hraised : ∀ f r, r.success = false → r.status = .rollbackFailed →
      Spec w (E (.raised f)) (recordOutcome env r) F fun _ => E .deploymentTimeoutExpired) :
    Spec w P (rollback env) F fun _ => E .deploymentTimeoutExpired :=
  rollback_spec_entered P R E hw (hP _) (fun _ f _ _ => hP (.raised f) _ _) hgo hP hdatabase hfree
    hrevert hfailed hraised

/-- `restorePreviousState`: the database, then the tree; everything is caught. It runs outside the
block. `P` holds before it is entered, and `P'` from then on; `T` is what is known of the commit that it
goes back to. -/
theorem restorePreviousState_spec_target (P' : α → μ → Prop) (T : String → Prop) (R : Bool → α → μ → Prop) {O : RestoreOutcome → α → μ → Prop}
    (E : Bool → Exn → α → μ → Prop) (keepServiceStopped : Bool)
    (hnone : ∀ (x : Attributes) m, x.previousSha = none → P (w.attrs x) m → O {} (w.attrs x) m)
    (hgo : ∀ (x : Attributes) m, x.previousSha.isSome = true → P (w.attrs x) m →
      P' (w.attrs x) (w.step m (.goingBack .restore)))
    (htarget : ∀ (x : Attributes) m target, x.previousSha = some target → P (w.attrs x) m → T target)
    (hdatabase : ∀ currentVersion, Spec w
      (fun a m => P' a m ∧ ∃ x : Attributes,
        x.owesRollback = true ∧ x.previousSha.isSome = true ∧ a = w.attrs x)
      (rollbackDatabase env currentVersion)
      (fun r a m => (r.success = false → r.status = .rollbackFailed) ∧ R r.success a m) (E true))
    (hfree : ∀ (x : Attributes) m, x.owesRollback = false → x.previousSha.isSome = true →
      P' (w.attrs x) m → R true (w.attrs x) m)
    (htree : ∀ sha attempted, T sha →
      Spec w (R true) (restoreTree env sha attempted keepServiceStopped) O (E attempted))
    (hfailed : ∀ message a m, R false a m →
      O { dbRollbackAttempted := true, errorMessage := message } a m)
    (hcaught : ∀ attempted message f a m, E attempted (.raised f) a m →
      O { dbRollbackAttempted := attempted, errorMessage := message } a
        (w.step m .restoreRaised)) :
    Calm w P (restorePreviousState env keepServiceStopped) O fun _ _ _ => True := by
  refine .self_bind fun me => ?_
  cases hp : me.previousSha with
  -- Without a previous commit nothing is gone back to.
  | none =>
    refine Spec.calm (E := fun _ _ _ => True) (.pure ?_)
    rintro _ m ⟨h, rfl⟩
    exact hnone me m hp h
  | some sha =>
    refine .of_pre fun a₀ m₀ h₀ => ?_
    have ht : T sha := htarget me m₀ sha hp (h₀.2 ▸ h₀.1)
    -- The database goes first, then the tree.
    have hbody : Spec w (fun a m => P' a m ∧ a = w.attrs me)
        (if me.owesRollback then do
          let dbResult ← rollbackDatabase env none
          if dbResult.success then restoreTree env sha true keepServiceStopped
          else pure { dbRollbackAttempted := true, errorMessage := dbResult.errorMessage }
        else restoreTree env sha false keepServiceStopped : Piece rollbackAspects RestoreOutcome)
        O (E me.owesRollback) := by
      refine .ite (fun howes => ?_) fun hfreed => ?_
      · rw [howes]
        refine .lift_bind ((hdatabase _).pre fun a m h => ⟨h.1, me, howes, by simp [hp], h.2⟩) fun r => ?_
        refine .ite (fun hs => ?_) fun hs => .pure fun a m h => hfailed _ a m ?_
        · exact (Spec.lift (htree _ _ ht)).pre fun a m h => hs ▸ h.2
        · have hs' : r.success = false := by simpa using hs
          exact hs' ▸ h.2
      · have hfreed' : me.owesRollback = false := by simpa using hfreed
        rw [hfreed']
        refine (Spec.lift (htree _ _ ht)).pre ?_
        rintro a m ⟨h, rfl⟩
        exact hfree me m hfreed' (by simp [hp]) h
    have hgo' : Spec w (fun a m => a = a₀ ∧ m = m₀) (goBack .restore)
        (fun _ a m => P' a m ∧ a = w.attrs me) fun _ _ _ => True := by
      have hgone : P' a₀ (w.step m₀ (.goingBack .restore)) :=
        h₀.2 ▸ hgo me m₀ (by simp [hp]) (h₀.2 ▸ h₀.1)
      refine .note ?_
      rintro x m ⟨rfl, rfl⟩
      exact ⟨hgone, h₀.2⟩
    refine .bind hgo'.lift.calm fun _ => .exceptException hbody.calm fun f => ?_
    refine Spec.calm (E := fun _ _ _ => True) ?_
    exact .lift_bind (.note fun x m h => hcaught _ _ f _ m h) fun _ => .pure fun _ _ h => h

/-- `restorePreviousState`, when it does not matter whether it was entered, or what it goes back to. -/
theorem restorePreviousState_spec (R : Bool → α → μ → Prop) {O : RestoreOutcome → α → μ → Prop}
    (E : Bool → Exn → α → μ → Prop) (keepServiceStopped : Bool)
    (hnone : ∀ (x : Attributes) m, x.previousSha = none → P (w.attrs x) m → O {} (w.attrs x) m)
    (hgo : ∀ (x : Attributes) m, x.previousSha.isSome = true → P (w.attrs x) m →
      P (w.attrs x) (w.step m (.goingBack .restore)))
    (hdatabase : ∀ currentVersion, Spec w
      (fun a m => P a m ∧ ∃ x : Attributes,
        x.owesRollback = true ∧ x.previousSha.isSome = true ∧ a = w.attrs x)
      (rollbackDatabase env currentVersion)
      (fun r a m => (r.success = false → r.status = .rollbackFailed) ∧ R r.success a m) (E true))
    (hfree : ∀ (x : Attributes) m, x.owesRollback = false → x.previousSha.isSome = true →
      P (w.attrs x) m → R true (w.attrs x) m)
    (htree : ∀ sha attempted,
      Spec w (R true) (restoreTree env sha attempted keepServiceStopped) O (E attempted))
    (hfailed : ∀ message a m, R false a m →
      O { dbRollbackAttempted := true, errorMessage := message } a m)
    (hcaught : ∀ attempted message f a m, E attempted (.raised f) a m →
      O { dbRollbackAttempted := attempted, errorMessage := message } a
        (w.step m .restoreRaised)) :
    Calm w P (restorePreviousState env keepServiceStopped) O fun _ _ _ => True :=
  restorePreviousState_spec_target P (fun _ => True) R E keepServiceStopped hnone hgo
    (fun _ _ _ _ _ => trivial) hdatabase hfree (fun sha attempted _ => htree sha attempted) hfailed hcaught

end Fraisier.Deploy
