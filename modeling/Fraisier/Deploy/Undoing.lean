import Fraisier.Deploy.Account
import Fraisier.Deploy.Counting
import Fraisier.Deploy.WayBack

/-!
# How often migrations are undone

The steps up to the restart leave a count of migrations that is right, or none at all
(`advance_ledger`), and a strategy's rollback undoes what it is asked to when it reports success
(`Strategy.rollback_ledger`). A way back does not reset the count. So a timer that goes off when a
rollback has undone the migrations starts a second rollback that undoes as many again;
`undone_at_most_once` says that this is the only way in which more is undone than was applied.
-/

namespace Fraisier.Deploy

open Fraisier.Lib

variable {env : Env} {K : List Aspect}

/-- The ledger of a list of deeds. -/
def Ledger.ofDeeds (ds : List Deed) : Ledger := ds.foldl see {}

/-- The ledger of a run. -/
def Run.ledger (s : Run) : Ledger := .ofDeeds s.deeds

/-! ## Up to the restart -/

/-- Before the migrations. -/
def Ledger.Unbegun (a : View) (m : Ledger) : Prop := a.applied = 0 ∧ m = {}

/-- A run starts with nothing migrated. -/
theorem Ledger.unbegun_start (env : Env) :
    Unbegun (Watch.ledger.attrs env.start.self) Watch.ledger.init := ⟨rfl, rfl⟩

/-- After the migrations, if there were any: the count is right, or none was stored. -/
def Ledger.Advanced (a : View) (m : Ledger) : Prop :=
  ∃ n b, m = { committed := n, uncounted := b } ∧ a.applied ≤ n ∧
    (b = false → a.applied = n ∧ (0 < n → a.undoable = true ∧ a.database = true))

/-- Before the first migration no way back was entered. -/
theorem Ledger.Unbegun.advanced {a : View} {m : Ledger} (h : Unbegun a m) : Advanced a m :=
  ⟨0, false, h.2, Nat.le_of_eq h.1, fun _ => ⟨h.1, nofun⟩⟩

/-- A piece that neither migrates, nor counts, nor goes back. -/
theorem unbegun_frame {β : Type} {p : Piece K β}
    (hK : ∀ a ∈ K, a ∉ [Aspect.rollback, .database, .applied, .worktree, .service]) :
    Spec Watch.ledger Ledger.Unbegun p (fun _ => Ledger.Unbegun) fun _ => Ledger.Advanced := by
  have h : Spec Watch.ledger Ledger.Unbegun p (fun _ => Ledger.Unbegun) fun _ => Ledger.Unbegun := by
    refine .invariant (fun a m d hd ⟨ha, hm⟩ => ⟨ha, ?_⟩) fun x y hxy m ⟨ha, hm⟩ => ⟨?_, hm⟩
    · have := hK _ hd
      cases d <;> simp_all [Deed.aspect, Watch.ledger, Ledger.see]
    · have hx : y.migrationsApplied = x.migrationsApplied :=
        (hxy .applied fun hk => by simpa using hK _ hk).1
      exact hx.trans ha
  exact h.post (fun _ _ _ => id) fun _ _ _ => Ledger.Unbegun.advanced

/-- The deploy's own checkout is no way back. -/
theorem gitPull_ledger :
    Spec Watch.ledger Ledger.Unbegun (gitPull env) (fun _ => Ledger.Unbegun)
      fun _ => Ledger.Advanced := by
  have hpulled : ∀ sha, Spec Watch.ledger Ledger.Unbegun
      (call env (fun _ => ()) fun _ => Effect.deed (.pulled sha) : Piece [.worktree] Unit)
      (fun _ => Ledger.Unbegun) fun _ => Ledger.Advanced :=
    fun _ => .call (fun _ _ _ h => h) fun _ _ _ _ _ h => ⟨h.advanced, h.advanced⟩
  refine .bind (.whenever (fun _ => .lift (unbegun_frame (by simp))) fun _ _ _ h => h) fun _ => ?_
  -- Without a worktree there is nothing to pull.
  cases env.fraise.appPath with
  | none => exact .raise fun _ _ h => h.advanced
  | some appPath =>
    refine .lift_bind (Q := fun _ => Ledger.Unbegun) ?_ fun r => ?_
    · refine .lift_bind (unbegun_frame (by simp)) fun oldSha => ?_
      refine .ask_bind (fun _ _ _ h => h.advanced) fun _ => ?_
      refine .ask_bind (fun _ _ _ h => h.advanced) fun newSha => .bind (hpulled _) fun _ => ?_
      refine .ask_bind (fun _ _ _ h => h.advanced) fun _ => ?_
      exact .lift_bind (unbegun_frame (by simp)) fun _ => .pure fun _ _ h => h
    · exact .lift_bind (unbegun_frame (by simp)) fun _ => .pure fun _ _ h => h

/-- Whatever follows the migrations up to the restart. -/
theorem advanced_frame {β : Type} {p : Piece K β}
    (hK : ∀ a ∈ K, a = .service ∨ a ∉ Watch.ledger.reads) :
    Spec Watch.ledger Ledger.Advanced p (fun _ => Ledger.Advanced) fun _ => Ledger.Advanced :=
  ledger_frame hK fun a m ⟨n, b, hm, _⟩ => by rw [hm]

/-- A batch of which no count was stored. -/
theorem Ledger.Cut.advanced {a₀ a : View} {m : Ledger} {e : Exn} {undoes : Bool}
    (h₀ : a₀.applied = 0) (h : Cut a₀ undoes e a m) : Advanced a m := by
  obtain ⟨n, rfl, rfl, -, -⟩ := h
  refine ⟨n, decide (0 < n), rfl, h₀ ▸ n.zero_le, fun hn => ?_⟩
  have hn' : n = 0 := by simpa using hn
  exact ⟨h₀.trans hn'.symm, fun hpos => absurd hpos (by simp [hn'])⟩

/-- The count of a batch is stored. -/
theorem setApplied_ledger {a₀ : View} {n : ℕ} {E : Exn → View → Ledger → Prop}
    (h₀ : a₀.applied = 0) (hd : a₀.database = true) (hu : 0 < n → a₀.undoable = true)
    (hE : ∀ a m, Ledger.Advanced a m → E .deploymentTimeoutExpired a m) :
    Spec Watch.ledger (Ledger.Applied a₀ n) (setApplied env n) (fun _ => Ledger.Advanced) E := by
  have hset : ∀ x m, Ledger.Applied a₀ n (Watch.ledger.attrs x) m →
      Ledger.Advanced (Watch.ledger.attrs { x with migrationsApplied := n })
        (Watch.ledger.step m (.counted n)) := by
    rintro x m ⟨ha, rfl⟩
    refine ⟨n, false, rfl, Nat.le_refl n, fun _ => ⟨rfl, fun hn => ⟨?_, ?_⟩⟩⟩
    · exact (congrArg View.undoable ha).trans (hu hn)
    · exact (congrArg View.database ha).trans hd
  have hcut : ∀ a m, Ledger.Applied a₀ n a m → Ledger.Advanced a m := by
    intro a m h
    exact Ledger.Cut.advanced (e := .deploymentTimeoutExpired) h₀ (h.cut trivial)
  exact .assign hset (fun a m h => hE a m (hcut a m h)) fun x m h => hE _ _ (hset x m h)

/-- `strategy.execute` with the clause that keeps the count of a `DatabaseError`. -/
theorem executeStrategy_ledger {a₀ : View} (strategy : Strategy) (h₀ : a₀.applied = 0)
    (hd : a₀.database = true) (hu : a₀.undoable = strategy.undoes)
    (allowIrreversible preVerify : Bool) :
    Spec Watch.ledger (Ledger.Clean a₀) (executeStrategy env strategy allowIrreversible preVerify)
      (Ledger.Executed a₀ strategy.undoes) fun _ => Ledger.Advanced := by
  refine .exceptFailure (execute_ledger strategy _ _) (fun _ _ h => h.advanced h₀) fun f => ?_
  refine .ite (fun _ => ?_) fun _ => .raise fun _ _ h => h.advanced h₀
  refine .bind (R := fun _ => Ledger.Advanced) ?_ fun _ => .raise fun _ _ h => h
  -- the count of the exception, when it has one, is that of the batch
  cases hf : f.stepsApplied with
  | none => exact .pure fun _ _ h => h.advanced h₀
  | some k =>
    cases k with
    | zero => exact .pure fun _ _ h => h.advanced h₀
    | succ k =>
      refine .of_pre fun a m ⟨n, ha, hm, hn, hpos⟩ => ?_
      obtain rfl : k + 1 = n := hn _ hf
      refine (setApplied_ledger h₀ hd (fun _ => hu.trans (hpos k.succ_pos)) fun _ _ => id).lift.pre ?_
      rintro a' m' ⟨rfl, rfl⟩
      exact ⟨ha, hm⟩

/-- The strategy counts the migrations it applies. -/
theorem runStrategy_ledger :
    Spec Watch.ledger (fun a m => Ledger.Unbegun a m ∧ a.database = true) (runStrategy env)
      (fun _ => Ledger.Advanced) fun _ => Ledger.Advanced := by
  have hE : ∀ (e : Exn) a m, Ledger.Unbegun a m ∧ a.database = true → Ledger.Advanced a m :=
    fun _ _ _ h => h.1.advanced
  refine .frame_bind (by simp) hE fun strategy => .frame_bind (by simp) hE fun _ => ?_
  refine .frame_bind (by simp) hE fun _ => .frame_bind (by simp) hE fun db => ?_
  refine .frame_bind (by simp) hE fun _ => .frame_bind (by simp) hE fun _ => ?_
  -- The count is zero before the strategy begins.
  have hset : Spec Watch.ledger (fun a m => Ledger.Unbegun a m ∧ a.database = true)
      (setExecutedStrategy env strategy)
      (fun _ a m => Ledger.Unbegun a m ∧ a.database = true ∧ a.undoable = strategy.undoes)
      fun _ => Ledger.Advanced :=
    .assign (fun _ _ h => ⟨h.1, h.2, rfl⟩) (fun _ _ h => h.1.advanced) fun _ _ h =>
      Ledger.Unbegun.advanced h.1
  refine .lift_bind hset fun _ => .self_bind_any fun me => .of_pre fun a₀ m₀ ⟨⟨h₀, hm⟩, hd, hu⟩ => ?_
  -- What the strategy applied is counted, or more is owed.
  have hexecuted : ∀ r a m, Ledger.Executed a₀ strategy.undoes r a m → Ledger.Advanced a m :=
    fun r a m ⟨ha, hm, hpos⟩ => Ledger.Cut.advanced (e := .deploymentTimeoutExpired) h₀
      ⟨_, ha, hm, trivial, hpos⟩
  refine .bind (.ensuring_lost ((executeStrategy_ledger strategy h₀ hd hu _ _).pre ?_)
    (fun _ => Program.ends_true _ _) (fun r _ a m _ => hexecuted r a m) (fun _ _ _ _ => id)
    fun _ _ _ _ _ => id) fun result => ?_
  · rintro a m ⟨rfl, rfl⟩
    exact ⟨rfl, hm⟩
  refine .bind (R := fun _ => Ledger.Advanced) ?_ fun _ => ?_
  -- The count that is kept is the strategy's.
  · refine .of_pre fun a m ⟨ha, hm, hpos⟩ => ?_
    refine (setApplied_ledger h₀ hd (fun hn => hu.trans (hpos hn)) fun _ _ => id).lift.pre ?_
    rintro a' m' ⟨rfl, rfl⟩
    exact ⟨ha, hm⟩
  refine .ite (fun _ => .pure fun _ _ h => h) fun _ => ?_
  exact .lift_bind (advanced_frame (by simp)) fun _ => .raise fun _ _ h => h

/-- The migration step counts the migrations it applies. -/
theorem migrateStep_ledger :
    Spec Watch.ledger Ledger.Unbegun (migrateStep env) (fun _ => Ledger.Advanced)
      fun _ => Ledger.Advanced := by
  refine .self_bind fun me => .whenever (fun hd => ?_) fun _ _ _ h => h.1.advanced
  have hready : Spec Watch.ledger (fun a m => Ledger.Unbegun a m ∧ a = Watch.ledger.attrs me)
      (beginStep .migrate) (fun _ a m => Ledger.Unbegun a m ∧ a.database = true)
      fun _ => Ledger.Advanced := by
    refine .note ?_
    rintro x m ⟨h, ha⟩
    exact ⟨h, (congrArg View.database ha).trans hd⟩
  -- The strategy runs when the database is set up, and its steps are counted.
  refine .lift_bind hready fun _ => .lift_bind (Q := fun _ => Ledger.Advanced) ?_ fun _ => ?_
  · refine .frame_bind (by simp) (fun _ _ _ h => h.1.advanced) fun db => ?_
    refine .bind (.whenever (fun _ => .lift ?_) fun _ _ _ h => h) fun _ => runStrategy_ledger
    exact (ledger_frame (by simp) fun _ _ h => by rw [h.1.2]).post (fun _ _ _ => id)
      fun _ _ _ h => h.1.advanced
  · exact .lift_bind (advanced_frame (by simp)) fun _ => .lift_bind (advanced_frame (by simp)) fun _ =>
      .lift (advanced_frame (by simp))

/-- The steps up to the restart leave the right count, or none. -/
theorem advance_ledger :
    Spec Watch.ledger Ledger.Unbegun (advance env) (fun _ => Ledger.Advanced)
      fun _ => Ledger.Advanced := by
  refine .lift_bind (unbegun_frame (by decide)) fun _ => ?_
  refine .lift_bind (unbegun_frame (by decide)) fun _ => ?_
  refine .lift_bind (unbegun_frame (by decide)) fun _ => .lift_bind gitPull_ledger fun r => ?_
  refine .lift_bind (unbegun_frame (by decide)) fun _ => ?_
  refine .lift_bind (unbegun_frame (by decide)) fun _ => ?_
  refine .lift_bind (unbegun_frame (by decide)) fun _ => ?_
  refine .lift_bind (unbegun_frame (by decide)) fun _ => ?_
  refine .lift_bind (unbegun_frame (by decide)) fun _ => ?_
  refine .lift_bind (unbegun_frame (by decide)) fun _ => .lift_bind migrateStep_ledger fun _ => ?_
  exact .lift_bind (advanced_frame (by decide)) fun _ => .pure fun _ _ h => h

/-! ## The rollback of a strategy -/

/-- Nothing happened but that migrations were undone. -/
def Ledger.Undoing (a₀ : View) (m₀ : Ledger) (a : View) (m : Ledger) : Prop :=
  a = a₀ ∧ ∃ u, m = { m₀ with undone := m₀.undone + u }

/-- A question leaves the migrations as they were. -/
theorem undoing_ask {β : Type} {answer : ℕ → β} {a₀ : View} {m₀ : Ledger} :
    Spec Watch.ledger (Ledger.Undoing a₀ m₀) (call env answer : Piece K β)
      (fun _ => Ledger.Undoing a₀ m₀) fun _ => Ledger.Undoing a₀ m₀ :=
  .ask

/-- Undoing some more. -/
theorem Ledger.Undoing.more {a₀ a : View} {m₀ m : Ledger} (h : Undoing a₀ m₀ a m) (k : ℕ) :
    Undoing a₀ m₀ a { m with undone := m.undone + k } := by
  obtain ⟨ha, u, rfl⟩ := h
  exact ⟨ha, u + k, by simp [Nat.add_assoc]⟩

/-- A `migrate_down` that succeeds has undone its steps. -/
theorem rollbackByMigrateDown_ledger {a₀ : View} {m₀ : Ledger} (steps : ℕ) :
    Spec Watch.ledger (Ledger.Undoing a₀ m₀) (rollbackByMigrateDown env steps)
      (fun r a m => Ledger.Undoing a₀ m₀ a m ∧ (r.success = true → steps ≤ m.undone))
      fun _ => Ledger.Undoing a₀ m₀ := by
  have hdown : Spec Watch.ledger (Ledger.Undoing a₀ m₀)
      (call env env.down fun r => Effect.deed (.reversed (r.reversed steps)) :
        Piece [.database] DownRun)
      (fun r a m => Ledger.Undoing a₀ m₀ a m ∧ (r = .complete → steps ≤ m.undone))
      fun _ => Ledger.Undoing a₀ m₀ := by
    refine .call (fun n x m h => ⟨h.more _, fun hr => ?_⟩) fun n e x m _ h => ⟨h, h.more _⟩
    rw [hr]
    exact Nat.le_add_left steps m.undone
  -- What is undone is counted before it is told whether all of it was.
  refine .bind (R := fun r a m => Ledger.Undoing a₀ m₀ a m ∧ (r.success = true → steps ≤ m.undone))
    ?_ fun r => .pure fun _ _ h => h
  refine .bind undoing_ask fun _ => .bind (withMigrator_spec (.bind undoing_ask fun _ => hdown)
    (fun _ _ _ _ => id) (fun _ _ _ _ _ h => h.1) fun _ _ _ _ _ => id) fun r => ?_
  cases r with
  | complete => exact .pure fun _ _ h => ⟨h.1, fun _ => h.2 rfl⟩
  | failed k error => exact .pure fun _ _ h => ⟨h.1, nofun⟩

/-- The template has none of the migrations of the run. -/
theorem resetFromTemplate_ledger {a₀ : View} {m₀ : Ledger} (cfg : RestoreConfig) :
    Spec Watch.ledger (Ledger.Undoing a₀ m₀) (resetFromTemplate env cfg)
      (fun r a m => Ledger.Undoing a₀ m₀ a m ∧ (r.success = true → m.committed ≤ m.undone))
      fun _ => Ledger.Undoing a₀ m₀ := by
  -- A database made of the template has every migration undone.
  have hrestored : ∀ a m, Ledger.Undoing a₀ m₀ a m →
      Ledger.Undoing a₀ m₀ a (Watch.ledger.step m .templateRestored) := by
    intro a m h
    have hmax : m.undone + (m.committed - m.undone) = max m.undone m.committed := by omega
    simpa [Watch.ledger, Ledger.see, hmax] using h.more (m.committed - m.undone)
  -- It is made, or the call fails.
  have hcreate : Spec Watch.ledger (Ledger.Undoing a₀ m₀)
      (call env env.flag fun ok => if ok then Effect.deed .templateRestored else .none :
        Piece [.database] Bool)
      (fun ok a m => Ledger.Undoing a₀ m₀ a m ∧ (ok = true → m.committed ≤ m.undone))
      fun _ => Ledger.Undoing a₀ m₀ := by
    refine .call (fun n x m h => ?_) fun n e x m _ h => ⟨h, ?_⟩
    · cases env.flag n
      · exact ⟨h, fun hf => absurd hf (by decide)⟩
      · exact ⟨hrestored _ _ h, fun _ => Nat.le_max_right _ _⟩
    · cases env.flag n
      · exact h
      · exact hrestored _ _ h
  refine .bind undoing_ask fun _ => .bind undoing_ask fun dropped => .ite (fun _ => ?_) fun _ => ?_
  · refine .bind undoing_ask fun _ => .bind hcreate fun created => .ite (fun hc => ?_) fun _ => ?_
    · exact .pure fun _ _ h => ⟨h.1, fun _ => h.2 hc⟩
    · exact .ask_bind (fun _ _ _ h => h.1) fun _ => .pure fun _ _ h =>
        ⟨h.1, fun hf => absurd hf Bool.false_ne_true⟩
  · exact .bind undoing_ask fun _ => .pure fun _ _ h => ⟨h, fun hf => absurd hf Bool.false_ne_true⟩

/-- A strategy's rollback undoes migrations, and when one that can undo them succeeds at all that
were committed, all are undone. -/
theorem rollback_ledger {a₀ : View} {m₀ : Ledger} (strategy : Strategy) (steps : ℕ) :
    Spec Watch.ledger (Ledger.Undoing a₀ m₀) (strategy.rollback env steps)
      (fun r a m => Ledger.Undoing a₀ m₀ a m ∧ (r.success = true → strategy.undoes = true →
        m.committed ≤ steps → m.committed ≤ m.undone)) fun _ => Ledger.Undoing a₀ m₀ := by
  have hdown : Spec Watch.ledger (Ledger.Undoing a₀ m₀) (rollbackByMigrateDown env steps)
      (fun r a m => Ledger.Undoing a₀ m₀ a m ∧ (r.success = true → strategy.undoes = true →
        m.committed ≤ steps → m.committed ≤ m.undone)) fun _ => Ledger.Undoing a₀ m₀ :=
    (rollbackByMigrateDown_ledger steps).post
      (fun _ _ _ h => ⟨h.1, fun hs _ hle => Nat.le_trans hle (h.2 hs)⟩) fun _ _ _ => id
  -- A strategy that rebuilds undoes nothing, and the one that restores may bring the template back.
  cases strategy with
  | migrate dump db => exact .bind undoing_ask fun _ => hdown
  | rebuild roles createTemplate =>
    exact (Spec.lift (Spec.frame (by simp))).post (fun _ _ _ h => ⟨h, fun _ => nofun⟩) fun _ _ _ => id
  | restoreMigrate cfg serviceName =>
    refine .self_bind_any fun me => .ite (fun _ => ?_) fun _ => hdown
    exact (resetFromTemplate_ledger cfg).post (fun _ _ _ h => ⟨h.1, fun hs _ _ => h.2 hs⟩)
      fun _ _ _ => id

/-! ## The run -/

/-- A rollback of what is counted would not undo more than was applied. -/
def Ledger.Owing (a : View) (m : Ledger) : Prop := m.requested + a.applied ≤ m.committed

/-- No more was undone than applied. -/
def Ledger.Settled (a : View) (m : Ledger) : Prop :=
  m.requested ≤ m.committed ∧ a.applied ≤ m.committed

/-- A ledger that owes what it counts is settled. -/
theorem Ledger.Owing.settled {a : View} {m : Ledger} (h : Owing a m) : Settled a m := by
  unfold Owing at h
  exact ⟨by omega, by omega⟩

/-- A run that has undone nothing owes what it has applied. -/
theorem Ledger.Settled.owing {a : View} {m : Ledger} (h : Settled a m) (hm : m.requested = 0) :
    Owing a m := by
  unfold Owing
  rw [hm, Nat.zero_add]
  exact h.2

/-- Before the first way back the ledger owes what it counts. -/
theorem Ledger.Advanced.owing {a : View} {m : Ledger} (h : Advanced a m) : Owing a m := by
  obtain ⟨n, b, rfl, hle, -⟩ := h
  simpa [Owing] using hle

/-- What leaves the database alone leaves both sums alone. -/
theorem sums_frame {β : Type} {p : Piece K β} (R : ℕ → ℕ → ℕ → Prop)
    (hK : ∀ a ∈ K, a ∉ [Aspect.rollback, .database, .applied]) :
    Spec Watch.ledger (fun a m => R a.applied m.requested m.committed) p
      (fun _ a m => R a.applied m.requested m.committed)
      fun _ a m => R a.applied m.requested m.committed := by
  -- Neither a step nor what the deploy knows touches the sums.
  refine .invariant (fun a m d hd h => ?_) fun x y hxy m h => ?_
  · have := hK _ hd
    have hsee : (m.see d).requested = m.requested ∧ (m.see d).committed = m.committed := by
      cases d with
      | service v => cases v <;> simp [Ledger.see]
      | _ => simp_all [Deed.aspect, Ledger.see]
    change R a.applied (m.see d).requested (m.see d).committed
    rwa [hsee.1, hsee.2]
  · have hx : y.migrationsApplied = x.migrationsApplied :=
      (hxy .applied fun hk => by simpa using hK _ hk).1
    change R y.migrationsApplied m.requested m.committed
    rwa [hx]

/-- What leaves the database alone leaves the ledger settled. -/
theorem settled_frame {β : Type} {p : Piece K β}
    (hK : ∀ a ∈ K, a ∉ [Aspect.rollback, .database, .applied]) :
    Spec Watch.ledger Ledger.Settled p (fun _ => Ledger.Settled) fun _ => Ledger.Settled :=
  sums_frame (fun applied requested committed => requested ≤ committed ∧ applied ≤ committed) hK

/-- A rollback of the database asks once for what is counted. -/
theorem rollbackDatabase_sums (currentVersion : Option String) :
    Spec Watch.ledger Ledger.Owing (rollbackDatabase env currentVersion)
      (fun r a m => (r.success = false → r.status = .rollbackFailed) ∧ Ledger.Settled a m)
      fun _ => Ledger.Settled := by
  refine rollbackDatabase_spec (R := fun _ => Ledger.Settled) (by decide)
    (fun _ _ _ h => h.settled) (fun x resolved => .of_pre fun a₀ m₀ ⟨h, ha⟩ => ?_)
    (fun _ _ _ _ => id) currentVersion
  -- Up to the end of the strategy's rollback only requests are counted.
  have hundoing : ∀ a m, Ledger.Undoing a₀ m₀ a m → Ledger.Owing a m ∧ a = a₀ := by
    rintro a m ⟨rfl, u, rfl⟩
    exact ⟨h, rfl⟩
  refine ((rollback_ledger _ _).pre ?_).post ?_ fun _ a m hu => (hundoing a m hu).1.settled
  · rintro a m ⟨rfl, rfl⟩
    exact ⟨rfl, 0, rfl⟩
  · rintro r a m ⟨hu, -⟩
    obtain ⟨howing, rfl⟩ := hundoing a m hu
    have hx : a.applied = x.migrationsApplied := congrArg View.applied ha
    have hsum : m.requested + a.applied ≤ m.committed := howing
    -- A rollback that succeeds has settled what was applied.
    cases r.success
    · exact howing.settled
    · exact ⟨by simp [Watch.ledger, Ledger.see]; omega, by simp [Watch.ledger, Ledger.see]; omega⟩

/-- `rollback` asks once for what is counted. -/
theorem rollback_sums :
    Spec Watch.ledger Ledger.Owing (rollback env) (fun _ => Ledger.Settled)
      fun _ => Ledger.Settled := by
  refine rollback_spec (fun _ => Ledger.Settled) (fun _ => Ledger.Settled) (by decide)
    (fun _ _ _ h => h.settled) (fun _ _ h => h)
    (fun cv => (rollbackDatabase_sums cv).pre fun _ _ h => h.1) (fun _ _ _ h => h.settled)
    (fun _ _ _ => settled_frame (by decide)) (fun r _ _ => ?_) fun f r _ _ => ?_
  all_goals exact settled_frame (by decide)

/-- So does the restore of the previous state. -/
theorem restorePreviousState_sums (keepServiceStopped : Bool) :
    Calm Watch.ledger Ledger.Owing (restorePreviousState env keepServiceStopped)
      (fun _ => Ledger.Settled) fun _ _ _ => True :=
  restorePreviousState_spec (fun _ => Ledger.Settled) (fun _ _ => Ledger.Settled)
    keepServiceStopped (fun _ _ _ h => h.settled) (fun _ _ _ h => h)
    (fun cv => (rollbackDatabase_sums cv).pre fun _ _ h => h.1) (fun _ _ _ _ h => h.settled)
    (fun _ _ => settled_frame (by decide)) (fun _ _ _ => id) fun _ _ _ _ _ => id

/-- Where an exception leaves the block: only the timer's comes out of a rollback. -/
def Ledger.Leaving : Exn → View → Ledger → Prop
  | .deploymentTimeoutExpired => Settled
  | .raised _ => Owing

/-- A ledger that owes what it counts may be left by any exception. -/
theorem Ledger.Owing.leaving {a : View} {m : Ledger} (h : Owing a m) (e : Exn) : Leaving e a m := by
  cases e with
  | deploymentTimeoutExpired => exact h.settled
  | raised f => exact h

/-- The account of the migrations asked to be undone. -/
def Ledger.sums (env : Env) : Account env Watch.ledger where
  start := Unbegun
  advanced := Owing
  left := Leaving
  expired := Owing
  rolled _ := Settled
  restored _ := Settled
  ended _ := Settled
  blind := Watch.ledger_blind
  start_init := unbegun_start env
  start_left _ _ _ h := h.advanced.owing
  advance_spec := advance_ledger.post (fun _ _ _ h => h.owing) fun e _ _ h => h.owing.leaving e
  advanced_left e _ _ h := h.leaving e
  rollback_spec := rollback_sums.pre fun _ _ h => h.1
  rollback_expired := (rollback_sums.pre fun _ _ h => h.1).post (fun _ _ _ => id)
    fun _ _ _ _ => trivial
  build_spec r old := settled_frame (by decide)
  buildTimeout_spec r old message := (settled_frame (by decide)).post (fun _ _ _ => id)
    fun _ _ _ _ => trivial
  ended_left _ _ _ h := h
  halted _ _ _ _ _ h := h.settled
  succeeded _ _ _ _ h := h.settled
  unreverted _ _ _ _ _ h := h.settled
  restore_spec f := restorePreviousState_sums _
  classified _ _ _ _ _ _ h := h

/-- Over a whole run, no more migrations are asked to be undone, by rollbacks that succeed, than the
run applied, unless the timer's exception gets out to the run's own handler when a rollback has
already undone some. -/
theorem undone_at_most_once (env : Env)
    (h : env.final.alarm.expiry = some [] →
      (Ledger.ofDeeds env.final.alarm.early).requested = 0) :
    env.final.ledger.requested ≤ env.final.ledger.committed := by
  obtain ⟨r, -, hsettled⟩ := (Ledger.sums env).ends fun t hx hearly hleft =>
    Ledger.Settled.owing hleft (by have := h hx; rwa [hearly] at this)
  exact hsettled.1

/-! ## A timer that goes off in the restart of a rollback -/

/-- Two migrations are applied and the health check fails. The statements that matter are the failed
check, numbered 109, the database rollback, which ends at 120, and the restart on the previous
commit, numbered 126. -/
def unhealthy : Env where
  fraise :=
    { settings :=
        { systemdService := some "api.service"
          healthCheckUrl := some "http://localhost/health"
          healthCheckRetries := 1
          databaseConfig := some {} } }
  sha _ := some "0a1b2c3d"
  text _ := "4e5f6a7b"
  up _ := .returned 2 none
  flag n := n != 109

set_option maxRecDepth 10000 in
/-- The timeout handler undoes the two migrations again. -/
theorem undone_twice :
    let env := { unhealthy with timer := some (126, .inside .passed) }
    ¬env.final.ledger.requested ≤ env.final.ledger.committed ∧
      env.final.ledger.requested = 4 ∧ env.final.ledger.committed = 2 := by
  decide

set_option maxRecDepth 10000 in
/-- A timer that goes off when the first rollback enters the strategy does no harm. -/
theorem undone_at_most_once_unhealthy :
    ({ unhealthy with timer := some (115, .before) } : Env).final.ledger.requested ≤
      ({ unhealthy with timer := some (115, .before) } : Env).final.ledger.committed :=
  undone_at_most_once { unhealthy with timer := some (115, .before) } (by decide)

end Fraisier.Deploy
