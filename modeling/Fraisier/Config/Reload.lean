import Mathlib.Data.Nat.Notation
import Mathlib.Tactic.SplitIfs
import Fraisier.Lib.System

/-!
# Reloading the configuration

`get_config` of `config/loader.py` keeps one configuration for all threads, with the modification
time of the file that it was read from, and reads the file again when that time moves. The file is
replaced by other processes at any moment. A load reads the file first and asks for its time
afterwards, so a replacement in between leaves the old configuration with the new time.
`returns_current` says in which runs a call that begins after the last replacement returns the
configuration of the file, or the last one that loaded when the file does not load.
-/

namespace Fraisier.Config

open Fraisier.Lib

variable {P M X C : Type}

/-! ## Calls -/

/-- Why a call takes the lock. -/
inductive Call (M : Type)
  /-- It was given a `config_path`. -/
  | explicit
  /-- It found no configuration. -/
  | first
  /-- It found the file at `current`, which is not the time of the configuration. -/
  | reload (current : M)
  deriving DecidableEq, Repr

/-- What a thread is doing in `get_config`. -/
inductive Doing (M C : Type)
  | idle
  /-- It has read `_config`. -/
  | captured (cfg : C)
  /-- It has asked for the file's time. -/
  | statted (cfg : C) (current : M)
  /-- It waits for `_config_lock`. -/
  | waiting (call : Call M)
  /-- It has the lock. -/
  | locked (call : Call M)
  /-- It is about to read the file. -/
  | reading (call : Call M)
  /-- It has built a configuration from the file. -/
  | loaded (cfg : C)
  /-- It has stored it in `_config`. -/
  | stored (cfg : C)
  /-- It has asked for the file's time, and is about to store it in `_config_mtime`. -/
  | stamping (cfg : C) (mtime : M)
  | returned (cfg : C)
  | raised
  deriving DecidableEq, Repr

namespace Doing

/-- The thread has the lock. -/
def Locked : Doing M C → Prop
  | locked _ | reading _ | loaded _ | stored _ | stamping _ _ => True
  | _ => False

/-- The thread has stored a configuration, and not its time. -/
def Storing : Doing M C → Prop
  | stored _ | stamping _ _ => True
  | _ => False

/-- The call is over, or none was made. -/
def Free : Doing M C → Prop
  | idle | returned _ | raised => True
  | _ => False

instance : DecidablePred (Free : Doing M C → Prop)
  | idle | returned _ | raised => isTrue trivial
  | captured _ | statted _ _ | waiting _ | locked _ | reading _ | loaded _ | stored _
  | stamping _ _ => isFalse id

end Doing

/-- The file, which is known by its modification time, the variables of `loader.py`, and the
threads. -/
structure Loader (P M C : Type) where
  file : M
  /-- `_config`. -/
  config : Option C := none
  /-- `_config_mtime`. -/
  mtime : Option M := none
  /-- The thread that has `_config_lock`. -/
  lock : Option P := none
  doing : P → Doing M C := fun _ => .idle
  /-- The file has not been replaced since the thread's call began. -/
  unchanged : P → Bool := fun _ => false

/-- What happens next. -/
inductive LoaderStep (P M : Type)
  /-- Another process replaces the file. -/
  | replace (m : M)
  /-- A thread calls `get_config`, with a path or without. -/
  | call (p : P) (explicit : Bool)
  /-- A thread takes the next step of its call. -/
  | go (p : P)
  deriving DecidableEq, Repr

/-- What is written in a file, and the configuration that `FraisierConfig` makes of it, if any.
Distinct contents have distinct modification times, so the time determines the content. -/
structure Contents (M X C : Type) where
  content : M → X
  parse : X → Option C

/-- The configuration of the file of that time. -/
def Contents.build (K : Contents M X C) (m : M) : Option C := K.parse (K.content m)

/-- A file of that time loads as `cfg`, or does not load. -/
def Contents.Stands (K : Contents M X C) (m : M) (cfg : C) : Prop :=
  K.build m = some cfg ∨ K.build m = none

section Steps

variable [DecidableEq P] [DecidableEq M] (K : Contents M X C)

/-- The thread `p` goes on with `x`. -/
def Loader.go (s : Loader P M C) (p : P) (x : Doing M C) : Loader P M C :=
  { s with doing := Function.update s.doing p x }

/-- The thread `p` gives the lock back and goes on with `x`. -/
def Loader.leave (s : Loader P M C) (p : P) (x : Doing M C) : Loader P M C :=
  { s.go p x with lock := none }

/-- One step. -/
def Loader.next (s : Loader P M C) : LoaderStep P M → Option (Loader P M C)
  | .replace m => some { s with file := m, unchanged := fun _ => false }
  | .call p explicit =>
    if (s.doing p).Free then
      let s := { s with unchanged := Function.update s.unchanged p true }
      if explicit then some (s.go p (.waiting .explicit))
      else match s.config with
        | none => some (s.go p (.waiting .first))
        | some cfg => some (s.go p (.captured cfg))
    else none
  | .go p => match s.doing p with
    | .captured cfg => some (s.go p (.statted cfg s.file))
    | .statted cfg current =>
      if s.mtime = some current then some (s.go p (.returned cfg))
      else some (s.go p (.waiting (.reload current)))
    | .waiting call => match s.lock with
      | none => some { s.go p (.locked call) with lock := some p }
      | some _ => none
    | .locked .explicit => some (s.go p (.reading .explicit))
    | .locked .first => match s.config with
      | some cfg => some (s.leave p (.returned cfg))
      | none => some (s.go p (.reading .first))
    | .locked (.reload current) => match s.config with
      | none => some (s.go p (.reading .first))
      | some cfg =>
        if s.mtime = some s.file then some (s.leave p (.returned cfg))
        else some (s.go p (.reading (.reload current)))
    | .reading call => match K.build s.file, call, s.config with
      | some cfg, _, _ => some (s.go p (.loaded cfg))
      -- a reload that fails keeps the configuration, with the time that the call found first
      | none, .reload current, some prev =>
        some { s.leave p (.returned prev) with mtime := some current }
      | none, _, _ => some (s.leave p .raised)
    | .loaded cfg => some { s.go p (.stored cfg) with config := some cfg }
    | .stored cfg => some (s.go p (.stamping cfg s.file))
    | .stamping cfg m => some { s.leave p (.returned cfg) with mtime := some m }
    | .idle | .returned _ | .raised => none

/-- The system of the threads that call `get_config`, and of the processes that replace the file. -/
def loader : System (Loader P M C) (LoaderStep P M) := ⟨Loader.next K⟩

end Steps

/-! ## What calls return -/

variable (K : Contents M X C)

/-- The configuration of the file, or the last one that loaded when the file does not load. -/
def Loader.Current (s : Loader P M C) (cfg : C) : Prop :=
  K.build s.file = some cfg ∨ K.build s.file = none ∧ s.config = some cfg

/-- What the step of a call comes to when the file has not been replaced since the call began: if
the call returns, it returns what is current; it raises only if the file does not load and there is
no other configuration, or it was given a path. -/
def Loader.Answers [DecidableEq P] [DecidableEq M] (s : Loader P M C) (i : LoaderStep P M) : Prop :=
  ∀ p, i = .go p → s.unchanged p = true → ∀ t, s.next K i = some t →
    (∀ cfg, t.doing p = .returned cfg → s.Current K cfg) ∧
    (t.doing p = .raised → K.build s.file = none ∧
      (s.doing p = .reading .explicit ∨ s.config = none))

/-- A replacement by the file `m` leaves what a thread is storing right. -/
def Loader.Spares (s : Loader P M C) (m : M) : Doing M C → Prop
  | .loaded cfg | .stored cfg => K.Stands m cfg
  | .stamping _ _ => s.mtime ≠ some m
  | _ => True

/-- The steps of a run in which
- no replacement by a file that loads as something else lands between the read of a load and its
  stat, and none brings the recorded time back while a load is about to record another;
- no call takes the file for unchanged when another one has stored a configuration since the call
  read `_config`;
- no reload fails when the file that the call had found at first would have loaded. -/
def Loader.Undisturbed (s : Loader P M C) : LoaderStep P M → Prop
  | .replace m => ∀ p, s.Spares K m (s.doing p)
  | .call _ _ => True
  | .go p => match s.doing p with
    | .statted cfg current =>
      s.unchanged p = true → s.mtime = some current → s.config = some cfg
    | .reading (.reload current) =>
      K.build s.file = none → ∀ cfg, s.config = some cfg → K.Stands current cfg
    | _ => True

/-- What a thread has, of the file and of the variables. -/
def Loader.Fits (s : Loader P M C) : Doing M C → Prop
  | .reading .first => s.config = none
  | .loaded cfg => K.Stands s.file cfg
  | .stored cfg => s.config = some cfg ∧ K.Stands s.file cfg
  | .stamping cfg m =>
    s.config = some cfg ∧ K.Stands m cfg ∧ (s.mtime = some s.file → K.Stands s.file cfg)
  | _ => True

/-- What it has when the file has not been replaced since its call began. -/
def Loader.Follows (s : Loader P M C) : Doing M C → Prop
  | .statted _ current => current = s.file
  -- a configuration that appears while a call waits to load the first is the file's
  | .waiting .first | .locked .first => ∀ cfg, s.config = some cfg → K.Stands s.file cfg
  | .stamping _ m => m = s.file
  | _ => True

/-- The recorded time goes with the configuration. -/
def Loader.Stamped (s : Loader P M C) : Prop :=
  ∀ m cfg, s.mtime = some m → s.config = some cfg → K.Stands m cfg

/-- What undisturbed runs preserve. -/
structure Loader.Sound (s : Loader P M C) : Prop where
  lock : ∀ p, (s.doing p).Locked ↔ s.lock = some p
  fits : ∀ p, s.Fits K (s.doing p)
  follows : ∀ p, s.unchanged p = true → s.Follows K (s.doing p)
  stamped : (∀ p, ¬(s.doing p).Storing) → s.Stamped K

/-- Nobody has called `get_config`. -/
structure Loader.Fresh (s : Loader P M C) : Prop where
  doing : ∀ p, s.doing p = .idle
  lock : s.lock = none
  config : s.config = none
  mtime : s.mtime = none

variable {K} {s t : Loader P M C} {p : P} {x : Doing M C} {i : LoaderStep P M} {cfg : C}

/-- A loader that nobody has called is sound. -/
theorem Loader.Fresh.sound (h : s.Fresh) : s.Sound K where
  lock p := by simp [h.doing p, h.lock, Doing.Locked]
  fits p := by
    rw [h.doing p]
    trivial
  follows p _ := by
    rw [h.doing p]
    trivial
  stamped _ m cfg hm := by
    rw [h.mtime] at hm
    cases hm

/-- The thread that is storing a configuration has the lock. -/
theorem Doing.Storing.locked (h : x.Storing) : x.Locked := by
  cases x with
  | stored cfg => trivial
  | stamping cfg m => trivial
  | _ => exact h.elim

/-- A thread that is free does not have the lock. -/
theorem Doing.Free.not_locked (h : x.Free) : ¬x.Locked := by
  cases x with
  | idle => exact id
  | returned cfg => exact id
  | raised => exact id
  | _ => exact h.elim

/-- The configuration that is stored is current if it stands. -/
theorem Contents.Stands.current (h : K.Stands s.file cfg) (hconfig : s.config = some cfg) :
    s.Current K cfg :=
  h.imp id fun hnone => ⟨hnone, hconfig⟩

/-- Nothing is said of what a thread without the lock has. -/
theorem Loader.Fits.of_not_locked (h : ¬x.Locked) : s.Fits K x := by
  cases x with
  | reading call => exact absurd trivial h
  | loaded cfg => exact absurd trivial h
  | stored cfg => exact absurd trivial h
  | stamping cfg m => exact absurd trivial h
  | _ => trivial

/-- What a thread has fits a loader with the same variables and file. -/
theorem Loader.Fits.congr (h : s.Fits K x) (hfile : t.file = s.file) (hconfig : t.config = s.config)
    (hmtime : t.mtime = s.mtime) : t.Fits K x := by
  -- One case for each place of the thread that has something of the loader.
  cases x with
  | reading call => cases call with
    | first => exact hconfig.trans h
    | _ => trivial
  | loaded cfg =>
    show K.Stands t.file cfg
    rw [hfile]
    exact h
  | stored cfg =>
    show t.config = some cfg ∧ K.Stands t.file cfg
    rw [hfile, hconfig]
    exact h
  | stamping cfg m =>
    show t.config = some cfg ∧ K.Stands m cfg ∧ (t.mtime = some t.file → K.Stands t.file cfg)
    rw [hfile, hconfig, hmtime]
    exact h
  | _ => trivial

/-- What a thread has follows a loader whose configuration is no newer. -/
theorem Loader.Follows.congr (h : s.Follows K x) (hfile : t.file = s.file)
    (hconfig : ∀ cfg, t.config = some cfg → s.config = some cfg ∨ K.Stands s.file cfg) :
    t.Follows K x := by
  have hfirst : (∀ cfg, s.config = some cfg → K.Stands s.file cfg) →
      ∀ cfg, t.config = some cfg → K.Stands t.file cfg := by
    intro hs cfg hcfg
    rw [hfile]
    exact (hconfig cfg hcfg).elim (hs cfg) id
  -- One case for each place of the thread; only some have read the file.
  cases x with
  | statted cfg current =>
    show current = t.file
    rw [hfile]
    exact h
  | waiting call => cases call with
    | first => exact hfirst h
    | _ => trivial
  | locked call => cases call with
    | first => exact hfirst h
    | _ => trivial
  | stamping cfg m =>
    show m = t.file
    rw [hfile]
    exact h
  | _ => trivial

/-- One thread at a time has the lock. -/
theorem Loader.Sound.alone (h : s.Sound K) (hp : (s.doing p).Locked) {q : P} (hq : q ≠ p) :
    ¬(s.doing q).Locked := by
  intro hlocked
  have hlock := (h.lock p).mp hp
  rw [(h.lock q).mp hlocked] at hlock
  exact hq (Option.some.inj hlock)

/-- While a thread that stores nothing has the lock, the time goes with the configuration. -/
theorem Loader.Sound.stamped_of_locked (h : s.Sound K) (hp : (s.doing p).Locked)
    (hstoring : ¬(s.doing p).Storing) : s.Stamped K := by
  refine h.stamped fun q => ?_
  by_cases hq : q = p
  · rw [hq]
    exact hstoring
  · exact fun hs => h.alone hp hq hs.locked

/-- The recorded time is the file's only if the configuration is. -/
theorem Loader.Sound.stands (h : s.Sound K) (hmtime : s.mtime = some s.file)
    (hconfig : s.config = some cfg) : K.Stands s.file cfg := by
  -- A thread that is storing has the configuration, and its time is not recorded yet.
  by_cases hnone : ∀ q, ¬(s.doing q).Storing
  · exact h.stamped hnone s.file cfg hmtime hconfig
  · obtain ⟨q, hq⟩ := not_forall.mp hnone
    have hfits := h.fits q
    cases hd : s.doing q with
    | stored cfg' =>
      rw [hd] at hfits
      obtain rfl := Option.some.inj (hconfig.symm.trans hfits.1)
      exact hfits.2
    | stamping cfg' m =>
      rw [hd] at hfits
      obtain rfl := Option.some.inj (hconfig.symm.trans hfits.1)
      exact hfits.2.2 hmtime
    | _ =>
      rw [hd] at hq
      exact absurd id hq

/-- Another process replaces the file, and spares what the threads are storing. -/
theorem Loader.Sound.replace (h : s.Sound K) (m : M) (hspares : ∀ p, s.Spares K m (s.doing p)) :
    ({ s with file := m, unchanged := fun _ => false } : Loader P M C).Sound K := by
  refine ⟨h.lock, fun q => ?_, nofun, h.stamped⟩
  have hq := hspares q
  have hfits := h.fits q
  show Loader.Fits K _ (s.doing q)
  -- A thread that has read nothing yet is not affected.
  cases hd : s.doing q with
  | reading call => cases call with
    | first =>
      rw [hd] at hfits
      exact hfits
    | _ => trivial
  | loaded cfg =>
    rw [hd] at hq
    exact hq
  | stored cfg =>
    rw [hd] at hq hfits
    exact ⟨hfits.1, hq⟩
  | stamping cfg m =>
    rw [hd] at hq hfits
    exact ⟨hfits.1, hfits.2.1, fun hm => absurd hm hq⟩
  | _ => trivial

variable [DecidableEq P]

/-- The thread `p` goes on with `x` while the file stays as it is. -/
theorem Loader.Sound.move (h : s.Sound K) (hdoing : t.doing = Function.update s.doing p x)
    (hfile : t.file = s.file) (hunchanged : ∀ q, q ≠ p → t.unchanged q = s.unchanged q)
    (hlock : x.Locked ↔ t.lock = some p)
    (hothers : ∀ q, q ≠ p → (t.lock = some q ↔ s.lock = some q))
    (hconfig : ∀ cfg, t.config = some cfg → s.config = some cfg ∨ K.Stands s.file cfg)
    (hkeeps : ∀ q, q ≠ p → (s.doing q).Locked → t.config = s.config ∧ t.mtime = s.mtime)
    (hfits : t.Fits K x) (hfollows : t.unchanged p = true → t.Follows K x)
    (hstamped : ¬x.Storing → (∀ q, q ≠ p → ¬(s.doing q).Storing) → t.Stamped K) : t.Sound K := by
  -- Only `p` does something else.
  have hself : t.doing p = x := by rw [hdoing, Function.update_self]
  have hother : ∀ {q}, q ≠ p → t.doing q = s.doing q := fun hq => by
    rw [hdoing, Function.update_of_ne hq]
  -- The four clauses, each for `p` and for the others.
  refine ⟨fun q => ?_, fun q => ?_, fun q hq => ?_, fun hnone => ?_⟩
  · by_cases hqp : q = p
    · rw [hqp, hself, hlock]
    · rw [hother hqp, h.lock q, hothers q hqp]
  · by_cases hqp : q = p
    · rw [hqp, hself]
      exact hfits
    · rw [hother hqp]
      by_cases hlocked : (s.doing q).Locked
      · have hsame := hkeeps q hqp hlocked
        exact (h.fits q).congr hfile hsame.1 hsame.2
      · exact .of_not_locked hlocked
  · by_cases hqp : q = p
    · rw [hqp] at hq ⊢
      rw [hself]
      exact hfollows hq
    · rw [hother hqp]
      rw [hunchanged q hqp] at hq
      exact (h.follows q hq).congr hfile hconfig
  · refine hstamped (hself ▸ hnone p) fun q hq => ?_
    rw [← hother hq]
    exact hnone q

/-- A thread that stores nothing goes on, with the lock or without as before. -/
theorem Loader.Sound.pass (h : s.Sound K) (hx : x.Locked ↔ (s.doing p).Locked)
    (hstoring : ¬(s.doing p).Storing) (hfits : s.Fits K x)
    (hfollows : s.unchanged p = true → s.Follows K x) : (s.go p x).Sound K := by
  refine h.move rfl rfl (fun _ _ => rfl) (hx.trans (h.lock p)) (fun _ _ => Iff.rfl)
    (fun _ => .inl) (fun _ _ _ => ⟨rfl, rfl⟩) (hfits.congr rfl rfl rfl)
    (fun hu => (hfollows hu).congr rfl fun _ => .inl) fun _ hnone => h.stamped fun q => ?_
  by_cases hq : q = p
  · rw [hq]
    exact hstoring
  · exact hnone q hq

/-- The thread that has the lock gives it back, with a time that goes with the configuration. -/
theorem Loader.Sound.leave (h : s.Sound K) (hp : (s.doing p).Locked) {mtime : Option M}
    (hfree : x.Free) (hstamped : ({ s with mtime } : Loader P M C).Stamped K) :
    ({ s.leave p x with mtime } : Loader P M C).Sound K := by
  have hfollows : ({ s.leave p x with mtime } : Loader P M C).Follows K x := by
    cases x with
    | idle => trivial
    | returned cfg => trivial
    | raised => trivial
    | _ => exact hfree.elim
  refine h.move rfl rfl (fun _ _ => rfl) ⟨fun hl => absurd hl hfree.not_locked, nofun⟩
    (fun q hq => ⟨nofun, fun hlock => absurd ((h.lock q).mpr hlock) (h.alone hp hq)⟩)
    (fun _ => .inl) (fun q hq hlocked => absurd hlocked (h.alone hp hq))
    (.of_not_locked hfree.not_locked) (fun _ => hfollows) fun _ _ => hstamped

/-- What a call can do next. -/
inductive Loader.Goes (K : Contents M X C) (s : Loader P M C) (p : P) : Loader P M C → Prop
  | stat {cfg : C} (hd : s.doing p = .captured cfg) : Goes K s p (s.go p (.statted cfg s.file))
  | same {cfg : C} {current : M} (hd : s.doing p = .statted cfg current)
      (hmtime : s.mtime = some current) : Goes K s p (s.go p (.returned cfg))
  | moved {cfg : C} {current : M} (hd : s.doing p = .statted cfg current) :
      Goes K s p (s.go p (.waiting (.reload current)))
  | acquire {call : Call M} (hd : s.doing p = .waiting call) (hlock : s.lock = none) :
      Goes K s p { s.go p (.locked call) with lock := some p }
  | again (hd : s.doing p = .locked .explicit) : Goes K s p (s.go p (.reading .explicit))
  | load {call : Call M} (hd : s.doing p = .locked call) (hconfig : s.config = none) :
      Goes K s p (s.go p (.reading .first))
  | found {cfg : C} (hd : s.doing p = .locked .first) (hconfig : s.config = some cfg) :
      Goes K s p (s.leave p (.returned cfg))
  | reloaded {current : M} {cfg : C} (hd : s.doing p = .locked (.reload current))
      (hconfig : s.config = some cfg) (hmtime : s.mtime = some s.file) :
      Goes K s p (s.leave p (.returned cfg))
  | reload {current : M} (hd : s.doing p = .locked (.reload current)) :
      Goes K s p (s.go p (.reading (.reload current)))
  | loads {call : Call M} {cfg : C} (hd : s.doing p = .reading call)
      (hbuild : K.build s.file = some cfg) : Goes K s p (s.go p (.loaded cfg))
  | keeps {current : M} {prev : C} (hd : s.doing p = .reading (.reload current))
      (hbuild : K.build s.file = none) (hconfig : s.config = some prev) :
      Goes K s p { s.leave p (.returned prev) with mtime := some current }
  | raises {call : Call M} (hd : s.doing p = .reading call) (hbuild : K.build s.file = none)
      (hcall : call = .explicit ∨ call = .first ∨ s.config = none) :
      Goes K s p (s.leave p .raised)
  | store {cfg : C} (hd : s.doing p = .loaded cfg) :
      Goes K s p { s.go p (.stored cfg) with config := some cfg }
  | ask {cfg : C} (hd : s.doing p = .stored cfg) : Goes K s p (s.go p (.stamping cfg s.file))
  | stamp {cfg : C} {m : M} (hd : s.doing p = .stamping cfg m) :
      Goes K s p { s.leave p (.returned cfg) with mtime := some m }

/-- A call goes on. -/
theorem Loader.Sound.goes (h : s.Sound K) (hc : s.Undisturbed K (.go p)) (hg : s.Goes K p t) :
    t.Sound K := by
  have hfits := h.fits p
  have hfollows := h.follows p
  -- in each case: what the thread had, and what becomes of the lock
  cases hg with
  | stat hd => exact h.pass (by rw [hd]; exact Iff.rfl) (by rw [hd]; exact id) trivial fun _ => rfl
  | same hd => exact h.pass (by rw [hd]; exact Iff.rfl) (by rw [hd]; exact id) trivial fun _ => trivial
  | moved hd => exact h.pass (by rw [hd]; exact Iff.rfl) (by rw [hd]; exact id) trivial fun _ => trivial
  | @acquire call hd hlock =>
    rw [hd] at hfollows
    have hone : ∀ q, q ≠ p → (some p = some q ↔ s.lock = some q) := by
      intro q hq
      rw [hlock]
      exact ⟨fun hp => absurd (Option.some.inj hp).symm hq, nofun⟩
    refine h.move rfl rfl (fun _ _ => rfl) ⟨fun _ => rfl, fun _ => trivial⟩ hone (fun _ => .inl)
      (fun _ _ _ => ⟨rfl, rfl⟩) trivial (fun hu => ?_) fun _ hnone => h.stamped fun q => ?_
    · cases call with
      | first => exact hfollows hu
      | _ => trivial
    · by_cases hq : q = p
      · rw [hq, hd]
        exact id
      · exact hnone q hq
  | again hd => exact h.pass (by rw [hd]; exact Iff.rfl) (by rw [hd]; exact id) trivial fun _ => trivial
  | load hd hconfig =>
    exact h.pass (by rw [hd]; exact Iff.rfl) (by rw [hd]; exact id) hconfig fun _ => trivial
  | found hd =>
    have hp : (s.doing p).Locked := by rw [hd]; trivial
    exact h.leave hp trivial (h.stamped_of_locked hp (by rw [hd]; exact id))
  | reloaded hd =>
    have hp : (s.doing p).Locked := by rw [hd]; trivial
    exact h.leave hp trivial (h.stamped_of_locked hp (by rw [hd]; exact id))
  | reload hd => exact h.pass (by rw [hd]; exact Iff.rfl) (by rw [hd]; exact id) trivial fun _ => trivial
  | loads hd hbuild =>
    exact h.pass (by rw [hd]; exact Iff.rfl) (by rw [hd]; exact id) (.inl hbuild) fun _ => trivial
  | @keeps current prev hd hbuild hconfig =>
    have hp : (s.doing p).Locked := by rw [hd]; trivial
    have hstands : K.Stands current prev := by
      simp only [Loader.Undisturbed, hd] at hc
      exact hc hbuild prev hconfig
    refine h.leave hp trivial fun m cfg hm hcfg => ?_
    obtain rfl := Option.some.inj hm
    obtain rfl := Option.some.inj (hconfig.symm.trans hcfg)
    exact hstands
  | raises hd =>
    have hp : (s.doing p).Locked := by rw [hd]; trivial
    exact h.leave hp trivial (h.stamped_of_locked hp (by rw [hd]; exact id))
  | store hd =>
    rw [hd] at hfits
    have hp : (s.doing p).Locked := by rw [hd]; trivial
    refine h.move rfl rfl (fun _ _ => rfl) ?_ (fun _ _ => Iff.rfl) (fun cfg hcfg => ?_)
      (fun q hq hlocked => absurd hlocked (h.alone hp hq)) ⟨rfl, hfits⟩ (fun _ => trivial)
      fun hx => absurd trivial hx
    · exact ⟨fun _ => (h.lock p).mp hp, fun _ => trivial⟩
    · obtain rfl := Option.some.inj hcfg
      exact .inr hfits
  | ask hd =>
    rw [hd] at hfits
    have hp : (s.doing p).Locked := by rw [hd]; trivial
    refine h.move rfl rfl (fun _ _ => rfl) ?_ (fun _ _ => Iff.rfl) (fun _ => .inl)
      (fun _ _ _ => ⟨rfl, rfl⟩) ⟨hfits.1, hfits.2, fun _ => hfits.2⟩ (fun _ => rfl)
      fun hx => absurd trivial hx
    exact ⟨fun _ => (h.lock p).mp hp, fun _ => trivial⟩
  | stamp hd =>
    rw [hd] at hfits
    have hp : (s.doing p).Locked := by rw [hd]; trivial
    refine h.leave hp trivial fun m cfg hm hcfg => ?_
    obtain rfl := Option.some.inj hm
    obtain rfl := Option.some.inj (hfits.1.symm.trans hcfg)
    exact hfits.2.1

/-- How many more steps a call takes at most. -/
def Doing.steps : Doing M C → ℕ
  | .idle | .returned _ | .raised => 0
  | .captured _ => 8
  | .statted _ _ => 7
  | .waiting _ => 6
  | .locked _ => 5
  | .reading _ => 4
  | .loaded _ => 3
  | .stored _ => 2
  | .stamping _ _ => 1

/-- Each step of a call brings its end nearer. -/
theorem Loader.Goes.steps (hg : s.Goes K p t) : (t.doing p).steps < (s.doing p).steps := by
  cases hg with
  | _ hd => simp [Loader.go, Loader.leave, hd, Doing.steps]

/-- No other thread has the lock. -/
def Loader.Alone (s : Loader P M C) (p : P) : Prop :=
  (s.doing p).Locked ∧ s.lock = some p ∨ ¬(s.doing p).Locked ∧ s.lock = none

/-- A thread that has the lock to itself keeps it from the others. -/
theorem Loader.Goes.alone (hg : s.Goes K p t) (h : s.Alone p) : t.Alone p := by
  unfold Loader.Alone at h ⊢
  cases hg with
  | _ hd => simp_all [Loader.go, Loader.leave, Doing.Locked]

variable [DecidableEq M]

/-! ## Every run -/

/-- A thread begins a call. -/
theorem Loader.Sound.call (h : s.Sound K) {explicit : Bool}
    (hn : s.next K (.call p explicit) = some t) : t.Sound K := by
  by_cases hfree : (s.doing p).Free
  · have hlocked := hfree.not_locked
    -- A call begins without the lock.
    have hbegin : ∀ x : Doing M C, ¬x.Locked → s.Follows K x →
        ({ s with unchanged := Function.update s.unchanged p true }.go p x).Sound K := by
      intro x hx hfollows
      refine h.move rfl rfl (fun q hq => Function.update_of_ne hq _ _)
        ⟨fun hl => absurd hl hx, fun hl => absurd ((h.lock p).mpr hl) hlocked⟩ (fun _ _ => Iff.rfl)
        (fun _ => .inl) (fun _ _ _ => ⟨rfl, rfl⟩) (.of_not_locked hx)
        (fun _ => hfollows.congr rfl fun _ => .inl) fun _ hnone => h.stamped fun q => ?_
      by_cases hq : q = p
      · rw [hq]
        exact fun hs => hlocked hs.locked
      · exact hnone q hq
    simp only [Loader.next, if_pos hfree] at hn
    cases explicit with
    | true =>
      obtain rfl := Option.some.inj hn
      exact hbegin (.waiting .explicit) id trivial
    | false =>
      rw [if_neg Bool.false_ne_true] at hn
      split at hn
      · rename_i hconfig
        refine Option.some.inj hn ▸ hbegin (.waiting .first) id fun cfg hcfg => ?_
        exact absurd (hconfig.symm.trans hcfg) nofun
      · exact Option.some.inj hn ▸ hbegin (.captured _) id trivial
  · rw [Loader.next, if_neg hfree] at hn
    cases hn

/-- A step of a thread is one its call can take. -/
theorem Loader.goes_of_next (hn : s.next K (.go p) = some t) : s.Goes K p t := by
  -- The cases are what the thread is doing.
  cases hd : s.doing p with
  | idle => simp [Loader.next, hd] at hn
  | returned cfg => simp [Loader.next, hd] at hn
  | raised => simp [Loader.next, hd] at hn
  | captured cfg =>
    simp only [Loader.next, hd, Option.some.injEq] at hn
    exact hn ▸ .stat hd
  | statted cfg current =>
    simp only [Loader.next, hd] at hn
    split_ifs at hn with hmtime
    · exact Option.some.inj hn ▸ .same hd hmtime
    · exact Option.some.inj hn ▸ .moved hd
  | waiting call =>
    cases hlock : s.lock with
    | none =>
      simp only [Loader.next, hd, hlock, Option.some.injEq] at hn
      exact hn ▸ .acquire hd hlock
    | some q => simp [Loader.next, hd, hlock] at hn
  | locked call =>
    cases call with
    | explicit =>
      simp only [Loader.next, hd, Option.some.injEq] at hn
      exact hn ▸ .again hd
    | first =>
      cases hconfig : s.config with
      | none =>
        simp only [Loader.next, hd, hconfig, Option.some.injEq] at hn
        exact hn ▸ .load hd hconfig
      | some cfg =>
        simp only [Loader.next, hd, hconfig, Option.some.injEq] at hn
        exact hn ▸ .found hd hconfig
    | reload current =>
      cases hconfig : s.config with
      | none =>
        simp only [Loader.next, hd, hconfig, Option.some.injEq] at hn
        exact hn ▸ .load hd hconfig
      | some cfg =>
        simp only [Loader.next, hd, hconfig] at hn
        split_ifs at hn with hmtime
        · exact Option.some.inj hn ▸ .reloaded hd hconfig hmtime
        · exact Option.some.inj hn ▸ .reload hd
  | reading call =>
    cases hbuild : K.build s.file with
    | some cfg =>
      simp only [Loader.next, hd, hbuild, Option.some.injEq] at hn
      exact hn ▸ .loads hd hbuild
    | none =>
      cases call with
      | explicit =>
        simp only [Loader.next, hd, hbuild, Option.some.injEq] at hn
        exact hn ▸ .raises hd hbuild (.inl rfl)
      | first =>
        simp only [Loader.next, hd, hbuild, Option.some.injEq] at hn
        exact hn ▸ .raises hd hbuild (.inr (.inl rfl))
      | reload current =>
        cases hconfig : s.config with
        | none =>
          simp only [Loader.next, hd, hbuild, hconfig, Option.some.injEq] at hn
          exact hn ▸ .raises hd hbuild (.inr (.inr hconfig))
        | some prev =>
          simp only [Loader.next, hd, hbuild, hconfig, Option.some.injEq] at hn
          exact hn ▸ .keeps hd hbuild hconfig
  | loaded cfg =>
    simp only [Loader.next, hd, Option.some.injEq] at hn
    exact hn ▸ .store hd
  | stored cfg =>
    simp only [Loader.next, hd, Option.some.injEq] at hn
    exact hn ▸ .ask hd
  | stamping cfg m =>
    simp only [Loader.next, hd, Option.some.injEq] at hn
    exact hn ▸ .stamp hd

/-- What every undisturbed step preserves. -/
theorem Loader.Sound.next (h : s.Sound K) (hc : s.Undisturbed K i) (hn : s.next K i = some t) :
    t.Sound K := by
  cases i with
  | replace m => exact Option.some.inj hn ▸ h.replace m hc
  | call p explicit => exact h.call hn
  | go p => exact h.goes hc (Loader.goes_of_next hn)

/-- What a call comes to. -/
theorem Loader.Sound.answers (h : s.Sound K) (hc : s.Undisturbed K i) : s.Answers K i := by
  rintro p rfl hu t hn
  have hfits := h.fits p
  have hfollows := h.follows p hu
  have hself : ∀ x : Doing M C, Function.update s.doing p x p = x := fun x => Function.update_self ..
  -- A step that returns answers with what it returns.
  have hreturns : ∀ cfg, t.doing p = .returned cfg → s.Current K cfg →
      (∀ cfg, t.doing p = .returned cfg → s.Current K cfg) ∧ (t.doing p = .raised →
        K.build s.file = none ∧ (s.doing p = .reading .explicit ∨ s.config = none)) := by
    intro cfg ht hcurrent
    rw [ht]
    exact ⟨fun cfg' hcfg => Doing.returned.inj hcfg ▸ hcurrent, nofun⟩
  -- A step that goes on answers nothing.
  have hgoes : ∀ x, t.doing p = x → ¬x.Free →
      (∀ cfg, t.doing p = .returned cfg → s.Current K cfg) ∧ (t.doing p = .raised →
        K.build s.file = none ∧ (s.doing p = .reading .explicit ∨ s.config = none)) := by
    intro x ht hx
    rw [ht]
    exact ⟨fun cfg hcfg => absurd (hcfg ▸ trivial) hx, fun hraised => absurd (hraised ▸ trivial) hx⟩
  cases Loader.goes_of_next hn with
  | stat hd => exact hgoes _ (hself _) id
  -- The file is the one that the configuration stands for.
  | @same cfg current hd hmtime =>
    rw [hd] at hfollows
    obtain rfl : current = s.file := hfollows
    have hconfig : s.config = some cfg := by
      simp only [Loader.Undisturbed, hd] at hc
      exact hc hu hmtime
    exact hreturns _ (hself _) ((h.stands hmtime hconfig).current hconfig)
  | moved hd => exact hgoes _ (hself _) id
  | acquire hd hlock => exact hgoes _ (hself _) id
  | again hd => exact hgoes _ (hself _) id
  | load hd hconfig => exact hgoes _ (hself _) id
  | found hd hconfig =>
    rw [hd] at hfollows
    exact hreturns _ (hself _) ((hfollows _ hconfig).current hconfig)
  | reloaded hd hconfig hmtime =>
    exact hreturns _ (hself _) ((h.stands hmtime hconfig).current hconfig)
  | reload hd => exact hgoes _ (hself _) id
  | loads hd hbuild => exact hgoes _ (hself _) id
  | keeps hd hbuild hconfig => exact hreturns _ (hself _) (.inr ⟨hbuild, hconfig⟩)
  -- The file cannot be built, and there is nothing to fall back to.
  | raises hd hbuild hcall =>
    refine ⟨fun cfg hcfg => absurd ((hself .raised).symm.trans hcfg) nofun, fun _ => ⟨hbuild, ?_⟩⟩
    obtain rfl | rfl | hconfig := hcall
    · exact .inl hd
    · rw [hd] at hfits
      exact .inr hfits
    · exact .inr hconfig
  | store hd => exact hgoes _ (hself _) id
  | ask hd => exact hgoes _ (hself _) id
  | stamp hd =>
    rw [hd] at hfits hfollows
    obtain rfl := hfollows
    exact hreturns _ (hself _) (hfits.2.1.current hfits.1)

/-- A call that waits for no other thread goes on. -/
theorem Loader.Alone.goes (h : s.Alone p) (hfree : ¬(s.doing p).Free) :
    ∃ t, s.next K (.go p) = some t := by
  -- Only a thread that waits for the lock can be held up.
  cases hd : s.doing p with
  | waiting call =>
    have hlock : s.lock = none := by simpa [Loader.Alone, hd, Doing.Locked] using h
    simp [Loader.next, hd, hlock]
  | idle => exact absurd (hd ▸ trivial) hfree
  | returned cfg => exact absurd (hd ▸ trivial) hfree
  | raised => exact absurd (hd ▸ trivial) hfree
  | statted cfg current =>
    simp only [Loader.next, hd]
    split <;> exact ⟨_, rfl⟩
  | locked call =>
    cases call with
    | explicit => simp [Loader.next, hd]
    | first =>
      simp only [Loader.next, hd]
      split <;> exact ⟨_, rfl⟩
    | reload current =>
      simp only [Loader.next, hd]
      split
      · exact ⟨_, rfl⟩
      · split <;> exact ⟨_, rfl⟩
  | reading call =>
    simp only [Loader.next, hd]
    split <;> exact ⟨_, rfl⟩
  | _ => simp [Loader.next, hd]

/-- A call that waits for no other thread ends, when its thread goes on. -/
theorem Loader.Alone.ends (h : s.Alone p) :
    ∃ k t, (loader K).run s (List.replicate k (.go p)) = some t ∧ (t.doing p).Free := by
  induction hn : (s.doing p).steps using Nat.strongRecOn generalizing s with
  | ind n ih =>
    by_cases hfree : (s.doing p).Free
    · exact ⟨0, s, rfl, hfree⟩
    · obtain ⟨t, ht⟩ := h.goes (K := K) hfree
      have hg := Loader.goes_of_next ht
      obtain ⟨k, u, hu, hend⟩ := ih _ (hn ▸ hg.steps) (hg.alone h) rfl
      refine ⟨k + 1, u, ?_, hend⟩
      show ((s.next K (.go p)).bind fun t => (loader K).run t (List.replicate k (.go p))) = some u
      rw [ht]
      exact hu

/-- In an undisturbed run, what a call returns is the configuration of the file as it was when the
call began, if it has not been replaced since, or the last one that loaded when that file does not
load; and a call that waits for no other thread ends. -/
theorem returns_current {is : List (LoaderStep P M)} (hs : s.Fresh)
    (h : (loader K).Runs (Loader.Undisturbed K) s is t) :
    (loader K).Runs (Loader.Answers K) s is t ∧
      ∀ p, t.lock = none ∨ t.lock = some p →
        ∃ k u, (loader K).run t (List.replicate k (.go p)) = some u ∧ (u.doing p).Free := by
  have hstep : ∀ (s : Loader P M C) i t, s.Sound K → s.Undisturbed K i → (loader K).next s i = some t → t.Sound K :=
    fun _ _ _ hsound hc hn => hsound.next hc hn
  refine ⟨h.imp hstep (fun _ _ hsound hc => hsound.answers hc) hs.sound, fun p hlock => ?_⟩
  have hsound := h.invariant hstep hs.sound
  refine Loader.Alone.ends ?_
  obtain hnone | hsome := hlock
  · refine .inr ⟨fun hp => ?_, hnone⟩
    rw [(hsound.lock p).mp hp] at hnone
    cases hnone
  · exact .inl ⟨(hsound.lock p).mpr hsome, hsome⟩

/-- Files that are their own configuration, and all load. -/
def plainFiles : Contents ℕ ℕ ℕ := ⟨id, some⟩

/-- The steps of one thread's first call, between whose read and stat others may come. -/
def firstCall (between : List (LoaderStep Unit ℕ)) : List (LoaderStep Unit ℕ) :=
  [.call () false, .go (), .go (), .go ()] ++ between ++ [.go (), .go (), .go ()]

/-- A first call, a replacement, and a call that reloads the file. -/
def reloadRun : List (LoaderStep Unit ℕ) :=
  firstCall [] ++ [.replace 1, .call () false, .go (), .go (), .go (), .go (), .go (), .go (),
    .go (), .go ()]

/-- In the sample run every answer is the current configuration. -/
theorem returns_current_next :
    ∃ t, (loader plainFiles).Runs (Loader.Answers plainFiles) { file := 0 } reloadRun t ∧
      t.doing () = .returned 1 := by
  have hrun : (loader plainFiles).Runs (Loader.Undisturbed plainFiles) { file := 0 } reloadRun _ :=
    .cons trivial rfl <| .cons trivial rfl <| .cons trivial rfl <| .cons trivial rfl <|
    .cons trivial rfl <| .cons trivial rfl <| .cons trivial rfl <|
    .cons (fun _ => trivial) rfl <| .cons trivial rfl <| .cons trivial rfl <|
    .cons (fun _ h => absurd h (by decide)) rfl <| .cons trivial rfl <| .cons trivial rfl <|
    .cons (fun h => absurd h (by decide)) rfl <| .cons trivial rfl <| .cons trivial rfl <|
    .cons trivial rfl <| .nil _
  exact ⟨_, (returns_current ⟨fun _ => rfl, rfl, rfl, rfl⟩ hrun).1, rfl⟩

/-- The file is replaced between the read of the first load and its stat: the next call returns the
old configuration. -/
theorem returns_stale :
    ¬∀ is t, (loader plainFiles).Runs System.Any ({ file := 0 } : Loader Unit ℕ ℕ) is t →
      (loader plainFiles).Runs (Loader.Answers plainFiles) { file := 0 } is t := by
  intro h
  have hrun : (loader plainFiles).Runs (Loader.Answers plainFiles) { file := 0 }
      ((firstCall [.replace 1] ++ [.call () false, .go ()]) ++ .go () :: []) _ :=
    h _ _ (System.runs_of_run rfl)
  have hcurrent := (hrun.meets rfl () rfl rfl _ rfl).1 0 rfl
  -- the file is `1` by now
  obtain hbuild | hnone := hcurrent
  · exact absurd hbuild (by decide : ¬(some 1 : Option ℕ) = some 0)
  · exact absurd hnone.1 (by decide : ¬(some 1 : Option ℕ) = none)

end Fraisier.Config
