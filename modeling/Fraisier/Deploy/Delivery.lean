import Fraisier.Deploy.WayBack

/-!
# Where the timer's exception goes

`DeploymentTimeoutExpired` is an `Exception`, so every `except Exception` between the running
statement and `_execute` takes it for a failure of its own: the configuration sync before the
checkout, the version file, a health-check attempt, and the others in `Handler`. The law of a piece
says when the exception leaves it (`Timer.exit`); read at the block, it says which runs end through
the timeout handler: exactly those in which no such clause was open when the timer went off
(`timeout_reported_iff`). The way back after a failed health check is where the code does otherwise
on purpose: `rollback` lets the timer's exception out.
-/

namespace Fraisier.Deploy

open Fraisier.Lib

variable {env : Env}

/-- What a run owes its timeout: it ends through `_handle_timeout`, its result is no success, and no
step of the deploy begins after the timer went off. -/
structure Env.TimeoutReported (env : Env) : Prop where
  handled : .handleTimeout ∈ env.final.deeds
  failed : ∃ r, env.outcome = (.ok r, env.final) ∧ r.status ≠ .success
  stopped : ∀ d, .step d ∉ env.final.alarm.late

/-- Which handler was entered. -/
def Watch.outcome : Watch Unit Bool where
  attrs _ := ()
  init := false
  step handled d := handled || d == .handleTimeout
  reads := [.outcome]
  attrs_eq _ _ _ := rfl
  step_eq m d hd := by cases d <;> simp_all [Deed.aspect]

/-- The mark is set when the timer's answer was given. -/
theorem Watch.outcome_mark (s : Run) :
    Watch.outcome.mark s = true ↔ .handleTimeout ∈ s.deeds := by
  suffices h : ∀ (ds : List Deed) (m : Bool),
      ds.foldl Watch.outcome.step m = true ↔ m = true ∨ .handleTimeout ∈ ds from
    (h s.deeds false).trans (by simp)
  intro ds
  induction ds with
  | nil => simp
  | cons d ds ih =>
    intro m
    rw [List.foldl_cons, ih, List.mem_cons]
    simp only [Watch.outcome, Bool.or_eq_true, beq_iff_eq, or_assoc]
    exact or_congr_right (or_congr_left eq_comm)

/-- The timeout handler is entered, and its result is no success. -/
theorem handle_timeout_outcome (dbPk : Option ℕ) :
    Spec Watch.outcome (fun _ _ => True) (handle env dbPk .deploymentTimeoutExpired)
      (fun r _ handled => handled = true ∧ r.status ≠ .success) fun _ _ _ => True := by
  -- No status after a rollback is a success.
  have hstatus : ∀ r : DeploymentResult, statusAfter r ≠ .success := by
    intro r
    unfold statusAfter
    split <;> decide
  have hhandle : Spec Watch.outcome (fun _ _ => True) (handleTimeout env)
      (fun r _ handled => handled = true ∧ r.status ≠ .success) fun _ _ _ => True := by
    have henter : Spec Watch.outcome (fun _ _ => True) enterHandleTimeout
        (fun _ _ handled => handled = true) fun _ _ _ => True :=
      .note fun _ _ _ => by simp [Effect.deed, Watch.outcome]
    refine .lift_bind henter fun _ => .self_bind_any fun me => ?_
    -- With a previous commit it is a rollback's result, without one a failure.
    cases me.previousSha with
    | none =>
      refine .frame_bind (by decide) (fun _ _ _ _ => trivial) fun _ => ?_
      refine .frame_bind (by decide) (fun _ _ _ _ => trivial) fun _ => ?_
      exact .pure fun _ _ h => ⟨h, nofun⟩
    | some _ =>
      refine .frame_bind (by decide) (fun _ _ _ _ => trivial) fun r => ?_
      refine (Spec.lift (buildTimeoutRollbackResult_spec (by decide) r _ _)).post ?_
        fun _ _ _ _ => trivial
      exact fun r' a m h => ⟨h.2, h.1 ▸ hstatus r⟩
  exact .bind hhandle fun r => .frame_bind (by decide) (fun _ _ _ _ => trivial) fun _ =>
    .pure fun _ _ h => h

/-- The handler of the other failures is not the timeout handler. -/
theorem handle_failure_outcome (dbPk : Option ℕ) (f : Failure) :
    Spec Watch.outcome (fun _ handled => handled = false) (handle env dbPk (.raised f))
      (fun _ _ handled => handled = false) fun _ _ _ => True := by
  have henter : Spec Watch.outcome (fun _ handled => handled = false) enterHandleFailure
      (fun _ _ handled => handled = false) fun _ _ _ => True :=
    .note fun _ m h => by simp [Effect.deed, Watch.outcome, h]
  refine .lift_bind henter fun _ => .frame_bind (by decide) (fun _ _ _ _ => trivial) fun _ => ?_
  refine .frame_bind (by decide) (fun _ _ _ _ => trivial) fun _ => ?_
  refine .frame_bind (by decide) (fun _ _ _ _ => trivial) fun _ => .self_bind_any fun _ => ?_
  refine .frame_bind (by decide) (fun _ _ _ _ => trivial) fun _ => ?_
  exact .frame_bind (by decide) (fun _ _ _ _ => trivial) fun _ => .pure fun _ _ h => h

/-- Nothing is done between the moment the timer went off and the handler, and the handler takes no
step of the deploy. -/
theorem late_of_handled {t u : Run} {e : Option Exn} (ht : t.Outside)
    (hx : t.alarm.expiry = some []) (hlate : t.alarm.late = []) (h : Obeys handlerAspects t e u) :
    ∀ d, .step d ∉ u.alarm.late := by
  obtain ⟨-, -, -, hearly⟩ := h.outside ht
  obtain ⟨ds, hds, hin⟩ := h.touches.deeds
  have hlate' : u.alarm.late = ds := by
    have hu := u.sorts.split
    rw [hearly (by simp [hx]), hds, ← t.sorts.split, hlate, List.append_nil] at hu
    exact List.append_cancel_left hu
  intro d hd
  have := hin _ (hlate' ▸ hd)
  simp [Deed.aspect] at this

/-- In a run in which the timer goes off, its exception reaches the timeout handler exactly when no
clause that could hold it back was open. -/
theorem timeout_reported_iff (env : Env) (handlers : List Handler)
    (hexpired : env.final.alarm.expiry = some handlers) :
    env.TimeoutReported ↔ handlers = [] := by
  -- The block is run, and then what the exception meets outside it.
  suffices h : (execute env).Ends env.start
      (fun r t => ∀ hs, t.alarm.expiry = some hs →
        (.handleTimeout ∈ t.deeds ∧ r.status ≠ .success ∧ (∀ d, .step d ∉ t.alarm.late) ↔ hs = []))
      fun _ _ => False by
    unfold Program.Ends at h
    rcases hr : (execute env).run env.start with ⟨e | r, t⟩ <;> rw [hr] at h
    · exact h.elim
    have ho : env.outcome = (.ok r, t) := hr
    have ht : env.final = t := congrArg Prod.snd ho
    rw [← h handlers (ht ▸ hexpired)]
    constructor
    · rintro ⟨hh, ⟨r', hr', hs⟩, hl⟩
      have hrr : r' = r := by simpa [ho, ht] using hr'.symm
      exact ⟨ht ▸ hh, hrr ▸ hs, ht ▸ hl⟩
    · rintro ⟨hh, hs, hl⟩
      exact ⟨ht ▸ hh, ⟨r, by rw [ho, ht], hs⟩, ht ▸ hl⟩
  have hdeploy : ∀ dbPk, Spec Watch.outcome (fun _ handled => handled = false) (deploy env dbPk)
      (fun _ _ handled => handled = false) fun _ _ handled => handled = false :=
    fun _ => .frame (by decide)
  refine execute_ends env Watch.outcome (fun _ handled => handled = false) rfl (fun _ _ => rfl) fun dbPk s hs hx hm => ?_
  refine (guarded_ends env (hdeploy dbPk) (fun _ _ _ => id) (fun _ _ _ => id) hs hx hm).mono
    (fun r t hblock hs hhs => ?_) fun e t hblock => ?_ <;> obtain ⟨hm, hleft⟩ := hblock
  · -- the block ended normally: the exception was held back, or never raised
    have hnot : .handleTimeout ∉ t.deeds := by
      rw [← Watch.outcome_mark, hm]
      decide
    have hne : hs ≠ [] := by
      rintro rfl
      exact absurd (hleft.exit.2 hhs) (by simp)
    exact ⟨fun h => absurd h.1 hnot, fun h => absurd h hne⟩
  cases e with
  -- The timer's exception left the block, so no clause held it back.
  | deploymentTimeoutExpired =>
    have hx : t.alarm.expiry = some [] := hleft.exit.1 rfl
    refine ((handle_contained env dbPk _).returns (handle_timeout_outcome dbPk).calm
      hleft.outside.1 trivial).mono (fun r u hended hs hhs => ?_) fun _ _ => id
    obtain ⟨⟨hh, hstatus⟩, hlaw⟩ := hended
    have hsx : hs = [] := by
      have := (hlaw.outside hleft.outside).2.2.1
      simpa [hx, hhs] using this
    refine ⟨fun _ => hsx, fun _ => ⟨(Watch.outcome_mark u).1 hh, hstatus, ?_⟩⟩
    exact late_of_handled hleft.outside hx (hleft.late hx) hlaw
  -- Another exception left the block, so the timer's was held back before.
  | raised f =>
    refine ((handle_contained env dbPk _).returns (handle_failure_outcome dbPk f).calm
      hleft.outside.1 hm).mono (fun r u hended hs hhs => ?_) fun _ _ => id
    obtain ⟨hh, hlaw⟩ := hended
    have hnot : .handleTimeout ∉ u.deeds := by
      rw [← Watch.outcome_mark, hh]
      decide
    have hne : hs ≠ [] := by
      rintro rfl
      have hux := (hlaw.outside hleft.outside).2.2.1
      have := hleft.exit.2 (hux ▸ hhs)
      simp at this
    exact ⟨fun h => absurd h.1 hnot, fun h => absurd h hne⟩

/-! ## A timer that goes off in the configuration sync -/

/-- The sync before the checkout takes the timer's exception for a failure of its own, and the deploy
goes on to its end. -/
def timedOutSync : Env where
  timer := some (8, .before)
  text _ := "4e5f6a7b"

set_option maxRecDepth 10000 in
/-- A timer that goes off in the sync before the pull is not reported. -/
theorem timeout_swallowed :
    timedOutSync.final.alarm.expiry = some [.prePullSync] ∧
      timedOutSync.outcome.1.toOption.map (·.status) = some .success ∧
        ¬timedOutSync.TimeoutReported :=
  ⟨by decide, by decide, fun h => absurd h.handled (by decide)⟩

set_option maxRecDepth 10000 in
/-- A timer that goes off in the pull is reported. -/
theorem timeout_reported_iff_in_pull :
    ({ timedOutSync with timer := some (40, .before) } : Env).TimeoutReported ↔
      ([] : List Handler) = [] :=
  timeout_reported_iff { timedOutSync with timer := some (40, .before) } [] (by decide)

end Fraisier.Deploy
