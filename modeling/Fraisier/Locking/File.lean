import Mathlib.Data.Nat.Notation
import Fraisier.Lib.System

/-!
# The file deployment lock and its probes

`file_deployment_lock` of `locking.py` holds a deploy's lock as a `flock` on `{fraise}.lock`. The
two probes, `is_deployment_locked` and `count_held_deployment_locks`, ask whether a deploy holds one
by taking it for a moment themselves. A `flock` that is tried without waiting says only that
somebody holds the file: `probes_iff` says in which runs that somebody is always a deploy.
-/

namespace Fraisier.Locking

open Fraisier.Lib

variable {P : Type}

/-! ## Tasks -/

/-- What a call of a lock function comes to. -/
inductive LockAnswer
  /-- The body of the lock was left. -/
  | released
  /-- `DeploymentLockError`, with its message. -/
  | refused (message : String)
  /-- `is_deployment_locked`. -/
  | locked (answer : Bool)
  /-- `count_held_deployment_locks`. -/
  | held (count : ℕ)
  /-- The process died. -/
  | died
  deriving DecidableEq, Repr

/-- What a task is doing. A task is one call of a lock function; a process may run several. A lock
file is named by its fraise. -/
inductive Activity
  | idle
  /-- In the body of `with file_deployment_lock(f)`. -/
  | deploying (f : String)
  /-- In `is_deployment_locked`, between the `flock` and the unlock. -/
  | probing (f : String)
  /-- In `count_held_deployment_locks`, between two files, with those that are left and the count
  so far. -/
  | counting (rest : List String) (held : ℕ)
  /-- In `_probe_lock_held`, between the `flock` and the unlock. -/
  | probingOne (f : String) (rest : List String) (held : ℕ)
  | answered (a : LockAnswer)
  deriving DecidableEq, Repr

/-- The file that a task has a `flock` on. -/
def Activity.holds : Activity → Option String
  | .deploying f | .probing f | .probingOne f _ _ => some f
  | _ => none

/-- The task is a probe that holds the file. -/
def Activity.Probes (a : Activity) (f : String) : Prop :=
  a = .probing f ∨ ∃ rest held, a = .probingOne f rest held

/-- The kernel's locks, and the tasks. -/
structure Locks (P : Type) where
  /-- The task whose open file description has the `flock`. -/
  flock : String → Option P
  doing : P → Activity

/-- What happens next. -/
inductive LockCall (P : Type)
  /-- `file_deployment_lock(f)` is entered, or refused. -/
  | acquire (p : P) (f : String)
  /-- It is left. -/
  | release (p : P)
  /-- `is_deployment_locked(f)` tries the lock, and answers `True` if it is blocked. -/
  | isLocked (p : P) (f : String)
  /-- A probe that was not blocked unlocks the file: `is_deployment_locked` answers `False`. -/
  | unlock (p : P)
  /-- `count_held_deployment_locks` lists the lock files. -/
  | glob (p : P) (files : List String)
  /-- It probes the next one. -/
  | probeNext (p : P)
  /-- The next one has disappeared. -/
  | missing (p : P)
  /-- It returns its count. -/
  | counted (p : P)
  /-- The process of the task dies, and the kernel drops its lock. -/
  | die (p : P)
  deriving DecidableEq, Repr

section Steps

variable [DecidableEq P]

/-- `fcntl.flock(fd, LOCK_EX | LOCK_NB)` by a task that goes on with `won` if it gets the lock, and
with `blocked` at a `BlockingIOError`. -/
def Locks.tryFlock (s : Locks P) (p : P) (f : String) (won blocked : Activity) : Locks P :=
  match s.flock f with
  | none =>
    { flock := Function.update s.flock f (some p)
      doing := Function.update s.doing p won }
  | some _ => { s with doing := Function.update s.doing p blocked }

/-- `fcntl.flock(fd, LOCK_UN)`, or the close of the file. -/
def Locks.unlockFile (s : Locks P) (p : P) (f : String) (after : Activity) : Locks P where
  flock := Function.update s.flock f none
  doing := Function.update s.doing p after

/-- One step of the tasks. -/
def Locks.next (s : Locks P) : LockCall P → Option (Locks P)
  | .acquire p f => match s.doing p with
    | .idle => some (s.tryFlock p f (.deploying f)
        (.answered (.refused ("Deploy already running for " ++ f))))
    | _ => none
  | .release p => match s.doing p with
    | .deploying f => some (s.unlockFile p f (.answered .released))
    | _ => none
  | .isLocked p f => match s.doing p with
    | .idle => some (s.tryFlock p f (.probing f) (.answered (.locked true)))
    | _ => none
  | .unlock p => match s.doing p with
    | .probing f => some (s.unlockFile p f (.answered (.locked false)))
    | .probingOne f rest held => some (s.unlockFile p f (.counting rest held))
    | _ => none
  | .glob p files => match s.doing p with
    | .idle => some { s with doing := Function.update s.doing p (.counting files 0) }
    | _ => none
  | .probeNext p => match s.doing p with
    | .counting (f :: rest) held =>
      some (s.tryFlock p f (.probingOne f rest held) (.counting rest (held + 1)))
    | _ => none
  | .missing p => match s.doing p with
    | .counting (_ :: rest) held =>
      some { s with doing := Function.update s.doing p (.counting rest held) }
    | _ => none
  | .counted p => match s.doing p with
    | .counting [] held => some { s with doing := Function.update s.doing p (.answered (.held held)) }
    | _ => none
  | .die p => match (s.doing p).holds with
    | some f => some (s.unlockFile p f (.answered .died))
    | none => some { s with doing := Function.update s.doing p (.answered .died) }

/-- The system of the tasks that share a lock directory. -/
def locks : System (Locks P) (LockCall P) := ⟨Locks.next⟩

end Steps

/-! ## Who is in the way -/

/-- The file whose lock a step tries. -/
def Locks.tries (s : Locks P) : LockCall P → Option String
  | .acquire _ f | .isLocked _ f => some f
  | .probeNext p => match s.doing p with
    | .counting (f :: _) _ => some f
    | _ => none
  | _ => none

/-- A deploy is in the body of its lock on `f`. -/
def Locks.Deploying (s : Locks P) (f : String) : Prop := ∃ p, s.doing p = .deploying f

/-- A probe has the file. -/
def Locks.Probed (s : Locks P) (f : String) : Prop := ∃ p, (s.doing p).Probes f

/-- A step that is blocked (a deploy that is refused, or a probe that reports the lock as held) is
blocked by a deploy. -/
def Locks.BlockedByDeploy (s : Locks P) (i : LockCall P) : Prop :=
  ∀ f, s.tries i = some f → s.flock f ≠ none → s.Deploying f

/-- No step tries a file while a probe has it. -/
def Locks.ClearOfProbes (s : Locks P) (i : LockCall P) : Prop :=
  ∀ f, s.tries i = some f → ¬s.Probed f

/-- The kernel's locks are those of the tasks. -/
structure Locks.Sound (s : Locks P) : Prop where
  held : ∀ f p, s.flock f = some p → (s.doing p).holds = some f
  holds : ∀ f p, (s.doing p).holds = some f → s.flock f = some p

/-- Nobody has called a lock function. -/
structure Locks.Idle (s : Locks P) : Prop where
  flock : ∀ f, s.flock f = none
  doing : ∀ p, s.doing p = .idle

/-- Idle locks are sound. -/
theorem Locks.Idle.sound {s : Locks P} (h : s.Idle) : s.Sound where
  held f p hf := by
    rw [h.flock] at hf
    cases hf
  holds f p hp := by
    rw [h.doing] at hp
    cases hp

/-- A task that has a file is a deploy or a probe. -/
theorem Activity.holds_cases {a : Activity} {f : String} (h : a.holds = some f) :
    a = .deploying f ∨ a.Probes f := by
  cases a with
  | deploying g => exact .inl (congrArg Activity.deploying (Option.some.inj h))
  | probing g => exact .inr (.inl (congrArg Activity.probing (Option.some.inj h)))
  | probingOne g rest held =>
    obtain rfl : g = f := Option.some.inj h
    exact .inr (.inr ⟨rest, held, rfl⟩)
  | _ => cases h

/-- A probe holds the lock it asks about. -/
theorem Activity.Probes.holds {a : Activity} {f : String} (h : a.Probes f) : a.holds = some f := by
  obtain rfl | ⟨rest, held, rfl⟩ := h <;> rfl

/-- One file has one holder, so a blocked step is blocked by a deploy when no probe is in the way,
and only then. -/
theorem Locks.Sound.blocked_iff {s : Locks P} (h : s.Sound) (i : LockCall P) :
    s.BlockedByDeploy i ↔ s.ClearOfProbes i := by
  constructor
  · rintro hb f hf ⟨p, hp⟩
    have hflock := h.holds f p hp.holds
    obtain ⟨q, hq⟩ := hb f hf (by simp [hflock])
    have hq' : s.flock f = some q := h.holds f q (by rw [hq]; rfl)
    obtain rfl : p = q := Option.some.inj (hflock.symm.trans hq')
    rw [hq] at hp
    obtain hp | ⟨rest, held, hp⟩ := hp <;> cases hp
  · intro hc f hf hheld
    obtain ⟨p, hp⟩ := Option.ne_none_iff_exists'.mp hheld
    refine ⟨p, (Activity.holds_cases (h.held f p hp)).resolve_right fun hprobe => ?_⟩
    exact hc f hf ⟨p, hprobe⟩

section Steps

variable [DecidableEq P]

/-- A task that holds nothing goes on to do something else that holds nothing. -/
theorem Locks.Sound.go {s : Locks P} (h : s.Sound) {p : P} {a : Activity}
    (hp : (s.doing p).holds = none) (ha : a.holds = none) :
    -- The task is holder of nothing, before and after.
    ({ s with doing := Function.update s.doing p a } : Locks P).Sound := by
  refine ⟨fun f q hq => ?_, fun f q hq => ?_⟩
  · have hheld := h.held f q hq
    have hne : q ≠ p := by
      rintro rfl
      rw [hp] at hheld
      cases hheld
    dsimp only
    rwa [Function.update_of_ne hne]
  · dsimp only at hq ⊢
    by_cases hqp : q = p
    · rw [hqp, Function.update_self, ha] at hq
      cases hq
    · rw [Function.update_of_ne hqp] at hq
      exact h.holds f q hq

/-- A task that holds nothing tries a file. -/
theorem Locks.Sound.tryFlock {s : Locks P} (h : s.Sound) {p : P} {f : String} {won blocked : Activity}
    (hp : (s.doing p).holds = none) (hwon : won.holds = some f) (hblocked : blocked.holds = none) :
    (s.tryFlock p f won blocked).Sound := by
  unfold Locks.tryFlock
  -- The file is locked by another, or is free.
  cases hf : s.flock f with
  | some q => exact h.go hp hblocked
  | none =>
    refine ⟨fun g q hq => ?_, fun g q hq => ?_⟩
    · dsimp only at hq ⊢
      by_cases hg : g = f
      · rw [hg, Function.update_self] at hq
        obtain rfl := Option.some.inj hq
        rw [Function.update_self, hwon, hg]
      · rw [Function.update_of_ne hg] at hq
        have hheld := h.held g q hq
        have hne : q ≠ p := by
          rintro rfl
          rw [hp] at hheld
          cases hheld
        rwa [Function.update_of_ne hne]
    · dsimp only at hq ⊢
      by_cases hqp : q = p
      · rw [hqp, Function.update_self, hwon] at hq
        obtain rfl := Option.some.inj hq
        rw [hqp, Function.update_self]
      · rw [Function.update_of_ne hqp] at hq
        have hheld := h.holds g q hq
        have hg : g ≠ f := by
          rintro rfl
          rw [hf] at hheld
          cases hheld
        rwa [Function.update_of_ne hg]

/-- The holder of a file gives it back. -/
theorem Locks.Sound.unlockFile {s : Locks P} (h : s.Sound) {p : P} {f : String} {a : Activity}
    (hp : (s.doing p).holds = some f) (ha : a.holds = none) : (s.unlockFile p f a).Sound := by
  -- The file is free afterwards, and every other file has its holder.
  refine ⟨fun g q hq => ?_, fun g q hq => ?_⟩
  · dsimp only [Locks.unlockFile] at hq ⊢
    have hg : g ≠ f := by
      rintro rfl
      rw [Function.update_self] at hq
      cases hq
    rw [Function.update_of_ne hg] at hq
    have hheld := h.held g q hq
    have hne : q ≠ p := by
      rintro rfl
      exact hg (Option.some.inj (hheld.symm.trans hp))
    rwa [Function.update_of_ne hne]
  · dsimp only [Locks.unlockFile] at hq ⊢
    by_cases hqp : q = p
    · rw [hqp, Function.update_self, ha] at hq
      cases hq
    · rw [Function.update_of_ne hqp] at hq
      have hheld := h.holds g q hq
      have hg : g ≠ f := by
        rintro rfl
        exact hqp (Option.some.inj (hheld.symm.trans (h.holds g p hp)))
      rwa [Function.update_of_ne hg]

/-- Every step keeps the kernel's locks those of the tasks. -/
theorem Locks.Sound.next {s t : Locks P} {i : LockCall P} (h : s.Sound)
    (hn : s.next i = some t) : t.Sound := by
  -- The cases are the steps.
  cases i with
  | acquire p f | isLocked p f =>
    simp only [Locks.next] at hn
    split at hn
    · rename_i hp
      obtain rfl := Option.some.inj hn
      exact h.tryFlock (by rw [hp]; rfl) rfl rfl
    · cases hn
  | release p | unlock p =>
    simp only [Locks.next] at hn
    split at hn
    all_goals
      first
      | cases hn; done
      | rename_i hp
        obtain rfl := Option.some.inj hn
        exact h.unlockFile (by rw [hp]; rfl) rfl
  | glob p files | missing p | counted p =>
    simp only [Locks.next] at hn
    split at hn
    · rename_i hp
      obtain rfl := Option.some.inj hn
      exact h.go (by rw [hp]; rfl) rfl
    · cases hn
  | probeNext p =>
    simp only [Locks.next] at hn
    split at hn
    · rename_i hp
      obtain rfl := Option.some.inj hn
      exact h.tryFlock (by rw [hp]; rfl) rfl rfl
    · cases hn
  | die p =>
    simp only [Locks.next] at hn
    split at hn
    · rename_i f hp
      obtain rfl := Option.some.inj hn
      exact h.unlockFile hp rfl
    · rename_i hp
      obtain rfl := Option.some.inj hn
      exact h.go hp rfl

/-- In a run from the start, every deploy that is refused and every lock that a probe reports as
held is so because of a deploy that holds it, exactly when no step tries a file while a probe has
it. -/
theorem probes_iff {s : Locks P} (hs : s.Idle) (is : List (LockCall P)) (t : Locks P) :
    locks.Runs Locks.BlockedByDeploy s is t ↔ locks.Runs Locks.ClearOfProbes s is t :=
  System.Runs.congr (fun _ _ _ h _ hn => h.next hn) (fun _ i _ h _ => h.blocked_iff i) hs.sound

end Steps

/-! ## A probe in the way of a deploy -/

/-- Nobody has called a lock function yet. -/
def noLocks : Locks ℕ where
  flock _ := none
  doing _ := .idle

/-- Task 0 asks whether a fraise is locked, and has the file when task 1 tries to deploy it and
task 2 asks the same. -/
def probedTwice : List (LockCall ℕ) := [.isLocked 0 "api", .acquire 1 "api", .isLocked 2 "api"]

/-- Nothing is deployed: task 1 is refused, and task 2 reports the lock as held. -/
theorem probe_refuses_deploy :
    ∃ t, locks.Runs System.Any noLocks probedTwice t ∧
      ¬locks.Runs Locks.BlockedByDeploy noLocks probedTwice t := by
  refine ⟨_, System.runs_of_run rfl, fun h => ?_⟩
  obtain ⟨-, s, hs, h⟩ := System.runs_cons.mp h
  obtain rfl := Option.some.inj hs
  obtain ⟨hblocked, -⟩ := System.runs_cons.mp h
  obtain ⟨p, hp⟩ := hblocked "api" rfl nofun
  have hprobe : Function.update (fun _ => Activity.idle) 0 (.probing "api") p = .deploying "api" := hp
  by_cases hp0 : p = 0
  · rw [hp0, Function.update_self] at hprobe
    cases hprobe
  · rw [Function.update_of_ne hp0] at hprobe
    cases hprobe

/-- A probe that finds a deploy. -/
theorem probes_iff_during_deploy :
    ∃ t, locks.Runs Locks.BlockedByDeploy noLocks [.acquire 0 "api", .isLocked 1 "api"] t := by
  have hclear : ∀ (s : Locks ℕ) (i : LockCall ℕ),
      (∀ p, s.doing p = .idle ∨ s.doing p = .deploying "api") → s.ClearOfProbes i := by
    rintro s i hs f - ⟨p, hp⟩
    obtain hi | hd := hs p
    · simp [hi, Activity.Probes] at hp
    · simp [hd, Activity.Probes] at hp
  refine ⟨_, (probes_iff ⟨fun _ => rfl, fun _ => rfl⟩ _ _).mpr (.cons (hclear _ _ fun _ => .inl rfl)
    rfl (.cons (hclear _ _ fun p => ?_) rfl (.nil _)))⟩
  by_cases hp : p = 0
  · exact .inr (by rw [hp]; rfl)
  · exact .inl (Function.update_of_ne hp _ _)

end Fraisier.Locking
