import Mathlib.Data.Int.Order.Basic
import Fraisier.Lib.System

/-!
# The database deployment lock

`DatabaseDeploymentLock` of `locking.py` is a lease: a row of a table, keyed by the fraise, that
`acquire` reclaims when it is older than the ttl. `release` deletes the row of the fraise, whoever
holds it. Here any number of processes enter and leave their sections on one table, in any order.
A process reads the clock before its transaction begins (`now = time.time()`), and may die, or fail
to reach the table, at any point.

`exclusive_iff` says which runs exclude: those in which no process leaves while another is inside on
a lock that is still live. A process that leaves late can break that.
-/

namespace Fraisier.Locking

open Fraisier.Lib

variable {P F : Type}

/-! ## The lock -/

/-- A row of `deployment_locks`, less its key. Times are in ticks of the clock. -/
structure LockRow (P : Type) where
  holder : P
  acquiredAt : ℤ
  deriving DecidableEq, Repr

/-- `deployment_locks`: the row of each fraise. -/
abbrev LockTable (P F : Type) := F → Option (LockRow P)

/-- The transaction of `acquire`, with the time read before it: whether the lock was taken, and the
table it leaves. -/
def acquire [DecidableEq F] (ttl now : ℤ) (holder : P) (fraise : F) (table : LockTable P F) :
    Bool × LockTable P F :=
  let insert := Function.update table fraise (some { holder, acquiredAt := now })
  match table fraise with
  | some row => if now - row.acquiredAt < ttl then (false, table) else (true, insert)
  | none => (true, insert)

/-- `release`: the row is deleted by its key. -/
def release [DecidableEq F] (fraise : F) (table : LockTable P F) : LockTable P F :=
  Function.update table fraise none

/-! ## Processes -/

/-- Where a process is with a fraise. -/
inductive Section
  | outside
  /-- In `acquire`, having read the clock. -/
  | acquiring (now : ℤ)
  /-- In its critical section, on a lock of this time. -/
  | inside (acquiredAt : ℤ)
  deriving DecidableEq, Repr

/-- The table, and the processes that use it. -/
structure Leases (P F : Type) where
  clock : ℤ
  table : LockTable P F
  stage : P × F → Section

/-- What happens next. -/
inductive Lease (P F : Type)
  /-- Time passes. -/
  | tick (d : ℕ)
  /-- A process calls `acquire`, and reads the clock. -/
  | call (p : P) (f : F)
  /-- It runs the transaction. -/
  | transact (p : P) (f : F)
  /-- It leaves its section, and runs `release`. -/
  | leave (p : P) (f : F)
  /-- It ends without changing the table: it dies, or the table cannot be reached. -/
  | fail (p : P) (f : F)
  deriving DecidableEq, Repr

section Steps

variable [DecidableEq P] [DecidableEq F]

/-- One step of the processes. -/
def Leases.next (ttl : ℤ) (s : Leases P F) : Lease P F → Option (Leases P F)
  | .tick d => some { s with clock := s.clock + d }
  | .call p f => match s.stage (p, f) with
    | .outside => some { s with stage := Function.update s.stage (p, f) (.acquiring s.clock) }
    | _ => none
  | .transact p f => match s.stage (p, f) with
    | .acquiring now =>
      let (taken, table) := acquire ttl now p f s.table
      some { s with
        table
        stage := Function.update s.stage (p, f) (if taken then .inside now else .outside) }
    | _ => none
  | .leave p f => match s.stage (p, f) with
    | .inside _ => some { s with
        table := release f s.table
        stage := Function.update s.stage (p, f) .outside }
    | _ => none
  | .fail p f => some { s with stage := Function.update s.stage (p, f) .outside }

/-- The system of the processes that share a table. -/
def leases (ttl : ℤ) : System (Leases P F) (Lease P F) := ⟨Leases.next ttl⟩

end Steps

/-! ## Exclusion -/

/-- The process is in its section, on a lock taken at `t` that is younger than the ttl. -/
def Leases.Live (ttl : ℤ) (s : Leases P F) (p : P) (f : F) (t : ℤ) : Prop :=
  s.stage (p, f) = .inside t ∧ s.clock - t < ttl

instance (ttl : ℤ) (s : Leases P F) (p : P) (f : F) (t : ℤ) : Decidable (s.Live ttl p f t) :=
  inferInstanceAs (Decidable (_ ∧ _))

/-- At most one process is in a section on a live lock, and its lock is still in the table. -/
structure Leases.Exclusive (ttl : ℤ) (s : Leases P F) : Prop where
  one : ∀ f p q t u, s.Live ttl p f t → s.Live ttl q f u → p = q
  kept : ∀ f p t, s.Live ttl p f t → s.table f = some { holder := p, acquiredAt := t }

/-- A process leaves only when no other is inside on a live lock. -/
def Leases.Timely (ttl : ℤ) (s : Leases P F) : Lease P F → Prop
  | .leave p f => ∀ q t, q ≠ p → ¬s.Live ttl q f t
  | _ => True

/-- Nobody has entered. -/
def Leases.Idle (s : Leases P F) : Prop := ∀ k, s.stage k = .outside

/-- What timely runs preserve: a live lock is in the table, and no time read is ahead of the
clock. -/
structure Leases.Sound (ttl : ℤ) (s : Leases P F) : Prop where
  kept : ∀ f p t, s.Live ttl p f t → s.table f = some { holder := p, acquiredAt := t }
  read : ∀ k t, s.stage k = .acquiring t → t ≤ s.clock

/-- Sound leases are exclusive. -/
theorem Leases.Sound.exclusive {ttl : ℤ} {s : Leases P F} (h : s.Sound ttl) : s.Exclusive ttl where
  one f p q t u hp hq := by
    have hrow := (h.kept f p t hp).symm.trans (h.kept f q u hq)
    exact congrArg LockRow.holder (Option.some.inj hrow)
  kept := h.kept

/-- Idle leases are sound. -/
theorem Leases.Idle.sound {ttl : ℤ} {s : Leases P F} (h : s.Idle) : s.Sound ttl where
  kept f p t hl := by
    have hin := hl.1
    rw [h] at hin
    cases hin
  read k t hk := by
    rw [h] at hk
    cases hk

/-- A table after `acquire`: as it was, or with the caller's row where there was none, or an
expired one. -/
theorem acquire_cases [DecidableEq F] (ttl now : ℤ) (p : P) (f : F) (table : LockTable P F) :
    (acquire ttl now p f table = (false, table)) ∨
    (acquire ttl now p f table =
        (true, Function.update table f (some { holder := p, acquiredAt := now })) ∧
      ∀ row, table f = some row → ttl ≤ now - row.acquiredAt) := by
  unfold acquire
  cases hrow : table f with
  | none => exact .inr ⟨rfl, nofun⟩
  | some row =>
    dsimp only
    split
    · exact .inl rfl
    · refine .inr ⟨rfl, ?_⟩
      rintro _ ⟨rfl⟩
      omega

variable [DecidableEq P] [DecidableEq F]

/-- One process moves, and the table changes with it. -/
theorem Leases.Sound.move {ttl : ℤ} {s : Leases P F} (h : s.Sound ttl) (p : P) (f : F) (x : Section)
    (table : LockTable P F) (hread : ∀ now, x = .acquiring now → now ≤ s.clock)
    (hin : ∀ t, x = .inside t → s.clock - t < ttl → table f = some { holder := p, acquiredAt := t })
    (hother : ∀ g q t, (q, g) ≠ (p, f) → s.Live ttl q g t →
      table g = some { holder := q, acquiredAt := t }) :
    ({ s with table, stage := Function.update s.stage (p, f) x } : Leases P F).Sound ttl := by
  -- By whether it is this process and lock that is asked about.
  refine ⟨fun g q t hl => ?_, fun k t hk => ?_⟩
  · obtain ⟨hstage, hlive⟩ := hl
    by_cases hk : (q, g) = (p, f)
    · obtain ⟨rfl, rfl⟩ := Prod.mk.inj hk
      dsimp only at hstage
      rw [Function.update_self] at hstage
      exact hin t hstage hlive
    · dsimp only at hstage
      rw [Function.update_of_ne hk] at hstage
      exact hother g q t hk ⟨hstage, hlive⟩
  · dsimp only at hk
    by_cases hkp : k = (p, f)
    · rw [hkp, Function.update_self] at hk
      exact hread t hk
    · rw [Function.update_of_ne hkp] at hk
      exact h.read k t hk

/-- One timely step. -/
theorem Leases.Sound.next {ttl : ℤ} {s t : Leases P F} {i : Lease P F} (h : s.Sound ttl)
    (hi : s.Timely ttl i) (hn : s.next ttl i = some t) : t.Sound ttl := by
  -- A live lease is the one in the table.
  have hsame : ∀ g q u, s.Live ttl q g u → s.table g = some { holder := q, acquiredAt := u } :=
    fun g q u hl => h.kept g q u hl
  cases i with
  -- Time passes, and leases can only end by it.
  | tick d =>
    obtain rfl := Option.some.inj hn
    refine ⟨fun f p u hl => h.kept f p u ⟨hl.1, ?_⟩, fun k u hk => ?_⟩
    · have hlive : s.clock + d - u < ttl := hl.2
      omega
    · have hread := h.read k u hk
      show u ≤ s.clock + d
      omega
  | call p f =>
    simp only [Leases.next] at hn
    split at hn
    · obtain rfl := Option.some.inj hn
      refine h.move p f (.acquiring s.clock) s.table ?_ nofun fun g q u _ => hsame g q u
      rintro _ ⟨rfl⟩
      exact le_rfl
    · cases hn
  -- The lock is free, or its lease has run out.
  | transact p f =>
    simp only [Leases.next] at hn
    split at hn
    · rename_i now hstage
      have hnow := h.read _ _ hstage
      obtain hrefused | ⟨htaken, hstale⟩ := acquire_cases ttl now p f s.table
      · rw [hrefused] at hn
        obtain rfl := Option.some.inj hn
        exact h.move p f .outside s.table nofun nofun fun g q u _ => hsame g q u
      · rw [htaken] at hn
        obtain rfl := Option.some.inj hn
        refine h.move p f (.inside now) _ nofun ?_ fun g q u hne hl => ?_
        · rintro _ ⟨rfl⟩ _
          exact Function.update_self ..
        · -- a live lock of the same fraise would have been read, and not reclaimed
          have hrow := hsame g q u hl
          have hg : g ≠ f := by
            rintro rfl
            have hexpired := hstale _ hrow
            have hlive : s.clock - u < ttl := hl.2
            dsimp only at hexpired
            omega
          dsimp only
          rwa [Function.update_of_ne hg]
    · cases hn
  -- A process that leaves in time removes its own lease.
  | leave p f =>
    simp only [Leases.next] at hn
    split at hn
    · obtain rfl := Option.some.inj hn
      refine h.move p f .outside _ nofun nofun fun g q u hne hl => ?_
      have hg : g ≠ f := by
        rintro rfl
        exact hi q u (fun hq => hne (by rw [hq])) hl
      unfold release
      rw [Function.update_of_ne hg]
      exact hsame g q u hl
    · cases hn
  | fail p f =>
    obtain rfl := Option.some.inj hn
    exact h.move p f .outside s.table nofun nofun fun g q u _ => hsame g q u

/-- An untimely step breaks exclusion at once: the live lock of another process is gone. -/
theorem Leases.exclusive_next_iff {ttl : ℤ} {s t : Leases P F} {i : Lease P F} (h : s.Sound ttl)
    (hn : s.next ttl i = some t) : t.Exclusive ttl ↔ s.Timely ttl i := by
  refine ⟨fun ht => ?_, fun hi => (h.next hi hn).exclusive⟩
  -- Only a step that takes the lease away can break exclusion.
  cases i with
  | leave p f =>
    intro q u hq hl
    simp only [Leases.next] at hn
    split at hn
    · obtain rfl := Option.some.inj hn
      have hstage : Function.update s.stage (p, f) .outside (q, f) = .inside u := by
        rw [Function.update_of_ne (by simpa using hq)]
        exact hl.1
      have hrow := ht.kept f q u ⟨hstage, hl.2⟩
      simp [release] at hrow
    · cases hn
  | _ => trivial

/-- A run that nobody has entered before excludes, after each of its steps, exactly when no process
leaves while another is inside on a live lock. -/
theorem exclusive_iff (ttl : ℤ) {s : Leases P F} (hs : s.Idle) (is : List (Lease P F))
    (t : Leases P F) :
    (leases ttl).Runs (fun s i => ∀ t, s.next ttl i = some t → t.Exclusive ttl) s is t ↔
      (leases ttl).Runs (Leases.Timely ttl) s is t := by
  refine System.Runs.congr (I := Leases.Sound ttl) (fun _ _ _ h hi hn => h.next hi hn)
    (fun s i t h hn => ⟨fun hall => ?_, fun hi u hu => ?_⟩) hs.sound
  · exact (Leases.exclusive_next_iff h hn).mp (hall t hn)
  · exact (Leases.exclusive_next_iff h hu).mpr hi

/-! ## A process that leaves late -/

/-- An empty table that nobody has used. -/
def unused : Leases ℕ ℕ where
  clock := 0
  table _ := none
  stage _ := .outside

/-- Process 0 stays past its ttl of 10, process 1 reclaims the lock, and process 0 leaves. Process 2
then enters beside process 1, which is within its ttl. -/
def lateLeave : List (Lease ℕ ℕ) :=
  [.call 0 0, .transact 0 0, .tick 10, .call 1 0, .transact 1 0, .tick 1, .leave 0 0, .call 2 0,
    .transact 2 0]

/-- Two processes are inside on live locks at the end. -/
theorem late_leave_lets_two_in :
    ∃ t, (leases 10).Runs System.Any unused lateLeave t ∧
      t.Live 10 1 0 10 ∧ t.Live 10 2 0 11 ∧ ¬t.Exclusive 10 := by
  have hrun : ((leases 10).run unused lateLeave).any
      (fun t => decide (t.Live 10 1 0 10 ∧ t.Live 10 2 0 11)) = true := by decide
  obtain ⟨t, hr, h1, h2⟩ := System.exists_run hrun
  exact ⟨t, hr, h1, h2, fun h => absurd (h.one 0 1 2 10 11 h1 h2) (by decide)⟩

/-- Process 1 is refused while process 0 is inside, and enters after it has left. -/
def oneAfterOther : List (Lease ℕ ℕ) :=
  [.call 0 0, .transact 0 0, .tick 5, .call 1 0, .transact 1 0, .leave 0 0, .call 1 0, .transact 1 0,
    .tick 3, .leave 1 0]

/-- A run of two processes that exclude each other. -/
theorem exclusive_iff_in_turn : ∃ t, (leases 10).Runs
    (fun s i => ∀ t, s.next 10 i = some t → t.Exclusive 10) unused oneAfterOther t := by
  -- a process that leaves while the others are outside is timely
  have hothers : ∀ (s : Leases ℕ ℕ) (p : ℕ), (∀ q, q ≠ p → s.stage (q, 0) = .outside) →
      s.Timely 10 (.leave p 0) := by
    intro s p h q t hq hl
    cases (h q hq).symm.trans hl.1
  refine ⟨_, (exclusive_iff 10 (fun _ => rfl) _ _).mpr (.cons trivial rfl (.cons trivial rfl
    (.cons trivial rfl (.cons trivial rfl (.cons trivial rfl (.cons (hothers _ 0 fun q hq => ?_) rfl
      (.cons trivial rfl (.cons trivial rfl (.cons trivial rfl
        (.cons (hothers _ 1 fun q hq => ?_) rfl (.nil _)))))))))))⟩
  · by_cases hq1 : q = 1 <;> simp [unused, hq, hq1]
  · by_cases hq0 : q = 0 <;> simp [unused, hq, hq0]

end Fraisier.Locking
