import Mathlib.Data.List.Dedup
import Mathlib.Data.List.Sort
import Mathlib.Data.String.Basic
import Fraisier.Lib.System

/-!
# The ledger of deferred restarts

`deferred_restart.py`: a deploy records the units whose restart it put off
(`record_deferred_restarts`), and a worker restarts what the ledger holds and takes off what it
restarted (`run_deferred_restarts`, `settle_deferred_restarts`). Both load the file, compute, and
write the whole file again, with no lock between; a write truncates the file first. Here any number
of deploys and workers do so at once, any step of theirs can fail, and any of them can die.

A unit is owed a restart when it was recorded after its last successful restart began. `nothing_lost`
says that it is on the ledger whenever no write is under way, in every run in which no two
load-and-write sections overlap, no worker settles a unit that was recorded after its restart of it
began, and no load or started write fails.
-/

namespace Fraisier.Restart

open Fraisier.Lib

variable {P U : Type}

/-! ## The ledger -/

/-- `read_deferred_restarts`, of a file that can be read: its units, and none when there is no
file. -/
def readDeferredRestarts (file : Option (List U)) : List U := file.getD []

/-- A load: a file that cannot be read counts as one with no units. -/
def load (ok : Bool) (file : Option (List U)) : List U :=
  if ok then readDeferredRestarts file else []

/-- `sorted({*read_deferred_restarts(lock_dir), *units})`. -/
def merge [LinearOrder U] (seen units : List U) : List U :=
  (seen ++ units).dedup.insertionSort (· ≤ ·)

/-- What `settle_deferred_restarts` leaves. -/
def remaining [DecidableEq U] (seen paid : List U) : List U := seen.filter fun u => u ∉ paid

/-- A merged unit was seen or is new. -/
theorem mem_merge [LinearOrder U] {seen units : List U} {u : U} :
    u ∈ merge seen units ↔ u ∈ seen ∨ u ∈ units := by
  simp [merge]

/-- A unit remains when it was seen and not paid. -/
theorem mem_remaining [DecidableEq U] {seen paid : List U} {u : U} :
    u ∈ remaining seen paid ↔ u ∈ seen ∧ u ∉ paid := by
  simp [remaining]

/-! ## Deploys and workers -/

/-- `NO_SOCKET_RC`. -/
def noSocketRc : ℕ := 3

/-- `DRAIN_TIMEOUT_RC`. -/
def drainTimeoutRc : ℕ := 2

/-- What a worker has before it settles: the units it found, those it has still to restart, and
those it restarted. -/
structure Round (U : Type) where
  pending : List U
  todo : List U
  paid : List U := []
  deriving DecidableEq, Repr

/-- The exit code of a worker that went through its round. -/
def Round.exitCode [DecidableEq U] (r : Round U) : ℕ := if remaining r.pending r.paid = [] then 0 else 1

/-- What a task is doing: a call of `record_deferred_restarts`, or a worker. -/
inductive Task (U : Type)
  | idle
  /-- Recording `units`, with the ledger loaded. -/
  | recordLoaded (units seen : List U)
  /-- Recording, with the file truncated. -/
  | recordOpened (units seen : List U)
  /-- A worker that waits for the deploys to end. -/
  | draining (pending : List U)
  /-- A worker between two restarts. -/
  | restarting (r : Round U)
  /-- A worker whose restart of `u` began at `since`. -/
  | sending (u : U) (since : ℕ) (r : Round U)
  /-- Settling, with the ledger loaded. -/
  | settleLoaded (r : Round U) (seen : List U)
  /-- Settling, with the file truncated. -/
  | settleOpened (r : Round U) (seen : List U)
  /-- Finished, a worker with its exit code. -/
  | finished (rc : ℕ)
  deriving DecidableEq, Repr

/-- The file, the tasks, and the times that say which units are owed a restart. -/
structure Debts (P U : Type) where
  file : Option (List U)
  task : P → Task U
  clock : ℕ
  /-- When the unit was last recorded. -/
  recorded : U → ℕ
  /-- When the last restart of the unit that succeeded began. -/
  restarted : U → ℕ

/-- What happens next. `ok` says whether the file operation succeeded. -/
inductive DebtStep (P U : Type)
  /-- `record_deferred_restarts(units)` is called, and loads the ledger. -/
  | record (p : P) (units : List U) (ok : Bool)
  /-- A worker starts, and loads the ledger. -/
  | spawn (p : P) (socket ok : Bool)
  /-- Its wait for the deploys ends, in time or not. -/
  | drained (p : P) (inTime : Bool)
  /-- It asks for the next restart. -/
  | send (p : P)
  /-- The restart has succeeded or failed. -/
  | reply (p : P) (ok : Bool)
  /-- It loads the ledger to settle it. -/
  | settle (p : P) (ok : Bool)
  /-- A settled ledger that is empty is removed. -/
  | unlink (p : P) (ok : Bool)
  /-- The file is opened for writing, and so truncated. -/
  | openFile (p : P) (ok : Bool)
  /-- The units are written. -/
  | write (p : P) (ok : Bool)
  /-- The task dies. -/
  | die (p : P)
  deriving DecidableEq, Repr

section Steps

variable [DecidableEq P] [LinearOrder U]

/-- The task `p` goes on with `x`. -/
def Debts.go (s : Debts P U) (p : P) (x : Task U) : Debts P U :=
  { s with task := Function.update s.task p x, clock := s.clock + 1 }

/-- One step of the tasks. -/
def Debts.next (s : Debts P U) : DebtStep P U → Option (Debts P U)
  | .record p units ok => match s.task p with
    | .idle =>
      if units = [] then some (s.go p (.finished 0))
      else some (s.go p (.recordLoaded units (load ok s.file)))
    | _ => none
  | .spawn p socket ok => match s.task p with
    | .idle =>
      let pending := load ok s.file
      if pending = [] then some (s.go p (.finished 0))
      else if socket then some (s.go p (.draining pending))
      else some (s.go p (.finished noSocketRc))
    | _ => none
  | .drained p inTime => match s.task p with
    | .draining pending =>
      if inTime then some (s.go p (.restarting { pending, todo := pending }))
      else some (s.go p (.finished drainTimeoutRc))
    | _ => none
  | .send p => match s.task p with
    | .restarting { pending, todo := u :: todo, paid } =>
      some (s.go p (.sending u s.clock { pending, todo, paid }))
    | _ => none
  | .reply p ok => match s.task p with
    | .sending u since r =>
      if ok then some { s.go p (.restarting { r with paid := r.paid ++ [u] }) with
        restarted := Function.update s.restarted u (max (s.restarted u) since) }
      else some (s.go p (.restarting r))
    | _ => none
  | .settle p ok => match s.task p with
    | .restarting { pending, todo := [], paid } =>
      some (s.go p (.settleLoaded { pending, todo := [], paid } (load ok s.file)))
    | _ => none
  | .unlink p ok => match s.task p with
    | .settleLoaded r seen =>
      if remaining seen r.paid = [] then
        some { s.go p (.finished r.exitCode) with file := if ok then none else s.file }
      else none
    | _ => none
  | .openFile p ok => match s.task p with
    | .recordLoaded units seen =>
      if ok then some { s.go p (.recordOpened units seen) with file := some [] }
      else some (s.go p (.finished 0))
    | .settleLoaded r seen =>
      if remaining seen r.paid = [] then none
      else if ok then some { s.go p (.settleOpened r seen) with file := some [] }
      else some (s.go p (.finished r.exitCode))
    | _ => none
  | .write p ok => match s.task p with
    | .recordOpened units seen =>
      if ok then some { s.go p (.finished 0) with
        file := some (merge seen units)
        recorded := fun u => if u ∈ units then s.clock else s.recorded u }
      else some (s.go p (.finished 0))
    | .settleOpened r seen =>
      if ok then some { s.go p (.finished r.exitCode) with file := some (remaining seen r.paid) }
      else some (s.go p (.finished r.exitCode))
    | _ => none
  | .die p => some (s.go p (.finished 1))

/-- The system of the deploys and workers of one ledger. -/
def debts : System (Debts P U) (DebtStep P U) := ⟨Debts.next⟩

end Steps

/-! ## Owed restarts -/

/-- The unit was recorded after its last successful restart began. -/
def Debts.Owed (s : Debts P U) (u : U) : Prop := s.restarted u < s.recorded u

/-- The file is truncated, and not written yet. -/
def Task.Writing : Task U → Prop
  | .recordOpened _ _ | .settleOpened _ _ => True
  | _ => False

instance : DecidablePred (Task.Writing : Task U → Prop)
  | .recordOpened _ _ | .settleOpened _ _ => isTrue trivial
  | .idle | .recordLoaded _ _ | .draining _ | .restarting _ | .sending _ _ _ | .settleLoaded _ _
  | .finished _ => isFalse id

/-- What a task that has loaded the ledger is going to write. -/
def Task.plan [LinearOrder U] : Task U → Option (List U)
  | .recordLoaded units seen | .recordOpened units seen => some (merge seen units)
  | .settleLoaded r seen | .settleOpened r seen => some (remaining seen r.paid)
  | _ => none

/-- Whatever is owed is on the ledger, unless a write is under way. -/
def Debts.NothingLost (s : Debts P U) : Prop :=
  (∀ p, ¬(s.task p).Writing) → ∀ u, s.Owed u → u ∈ readDeferredRestarts s.file

/-- Nobody has called anything. -/
structure Debts.Fresh (s : Debts P U) : Prop where
  task : ∀ p, s.task p = .idle
  recorded : ∀ u, s.recorded u = 0

variable [LinearOrder U]

/-- The steps of an orderly run: no load falls into another load-and-write section, and none
fails; no worker settles a unit that was recorded after its restart began; a started write is
finished. -/
def Debts.Orderly (s : Debts P U) : DebtStep P U → Prop
  | .record _ units ok => units ≠ [] → ok = true ∧ ∀ q, (s.task q).plan = none
  | .settle p ok => ok = true ∧ (∀ q, (s.task q).plan = none) ∧
      ∀ r, s.task p = .restarting r → ∀ u ∈ r.paid, ¬s.Owed u
  | .write _ ok => ok = true
  | .die p => ¬(s.task p).Writing
  | _ => True

/-- What orderly runs preserve. -/
structure Debts.Sound (s : Debts P U) : Prop where
  /-- One task at a time is between its load and its write. -/
  one : ∀ p q, (s.task p).plan.isSome = true → (s.task q).plan.isSome = true → p = q
  /-- What it is going to write has every unit that is owed. -/
  plan : ∀ p us, (s.task p).plan = some us → ∀ u, s.Owed u → u ∈ us
  kept : s.NothingLost

/-- A fresh start is sound. -/
theorem Debts.Fresh.sound {s : Debts P U} (h : s.Fresh) : s.Sound where
  one p q hp := by simp [h.task p, Task.plan] at hp
  plan p us hp := by simp [h.task p, Task.plan] at hp
  kept _ u hu := by simp [Owed, h.recorded u] at hu

/-- A task that is writing has a plan. -/
theorem Task.Writing.plan {x : Task U} (h : x.Writing) : x.plan.isSome = true := by
  cases x with
  | recordOpened units seen => rfl
  | settleOpened r seen => rfl
  | _ => exact h.elim

/-- When no task has a plan, what is owed is on the ledger. -/
theorem Debts.Sound.kept_of_clear {s : Debts P U} (h : s.Sound) (hc : ∀ q, (s.task q).plan = none)
    {u : U} (hu : s.Owed u) : u ∈ readDeferredRestarts s.file := by
  refine h.kept (fun q hq => ?_) u hu
  have hplan := hq.plan
  rw [hc q] at hplan
  cases hplan

variable [DecidableEq P]

/-- The task `p` goes on with `x`, which may take over its plan, or plan anew when nobody else
has one. -/
theorem Debts.Sound.move {s t : Debts P U} (h : s.Sound) {p : P} {x : Task U}
    (ht : t.task = Function.update s.task p x)
    (hx : x.plan.isSome = true → (s.task p).plan.isSome = true ∨ ∀ q, (s.task q).plan = none)
    (hplan : ∀ us, x.plan = some us → ∀ u, t.Owed u → u ∈ us)
    (howed : ∀ q, q ≠ p → (s.task q).plan.isSome = true → ∀ u, t.Owed u → s.Owed u)
    (hkept : ¬x.Writing → (∀ q, q ≠ p → ¬(s.task q).Writing) →
      ∀ u, t.Owed u → u ∈ readDeferredRestarts t.file) : t.Sound := by
  have hother : ∀ {q}, q ≠ p → t.task q = s.task q := fun hq => by
    rw [ht, Function.update_of_ne hq]
  have hself : t.task p = x := by rw [ht, Function.update_self]
  -- a task with a plan, other than `p`, is alone with it
  have halone : ∀ {q}, q ≠ p → (s.task q).plan.isSome = true → ¬x.plan.isSome = true := by
    intro q hq hs hxs
    obtain hp | hnone := hx hxs
    · exact hq (h.one q p hs hp)
    · rw [hnone q] at hs
      cases hs
  refine ⟨fun q r hq hr => ?_, fun q us hq u hu => ?_, fun hw u hu => ?_⟩
  · by_cases hqp : q = p
    · by_cases hrp : r = p
      · rw [hqp, hrp]
      · rw [hqp, hself] at hq
        rw [hother hrp] at hr
        exact absurd hq (halone hrp hr)
    · rw [hother hqp] at hq
      by_cases hrp : r = p
      · rw [hrp, hself] at hr
        exact absurd hr (halone hqp hq)
      · rw [hother hrp] at hr
        exact h.one q r hq hr
  · by_cases hqp : q = p
    · rw [hqp, hself] at hq
      exact hplan us hq u hu
    · rw [hother hqp] at hq
      exact h.plan q us hq u (howed q hqp (by rw [hq]; rfl) u hu)
  · refine hkept (hself ▸ hw p) (fun q hq => ?_) u hu
    rw [← hother hq]
    exact hw q

/-- A task that has no plan, and makes none, goes on while the file stays as it is and no more is
owed. -/
theorem Debts.Sound.pass {s t : Debts P U} (h : s.Sound) {p : P} {x : Task U}
    (ht : t.task = Function.update s.task p x) (hx : x.plan = none) (hp : ¬(s.task p).Writing)
    (hfile : t.file = s.file) (howed : ∀ u, t.Owed u → s.Owed u) : t.Sound := by
  refine h.move ht (fun hs => ?_) (fun us hs => ?_) (fun _ _ _ => howed) fun _ hw u hu => ?_
  · rw [hx] at hs
    cases hs
  · rw [hx] at hs
    cases hs
  · rw [hfile]
    refine h.kept (fun q hq => ?_) u (howed u hu)
    by_cases hqp : q = p
    · exact hp (hqp ▸ hq)
    · exact hw q hqp hq

/-- A task loads the ledger when nobody else has a plan. -/
theorem Debts.Sound.load {s t : Debts P U} (h : s.Sound) {p : P} {x : Task U}
    (ht : t.task = Function.update s.task p x) (hclear : ∀ q, (s.task q).plan = none)
    (hplan : ∀ us, x.plan = some us → ∀ u, s.Owed u → u ∈ us) (hfile : t.file = s.file)
    (howed : ∀ u, t.Owed u → s.Owed u) : t.Sound := by
  refine h.move ht (fun _ => .inr hclear) (fun us hs u hu => hplan us hs u (howed u hu))
    (fun _ _ _ => howed) fun _ _ u hu => ?_
  rw [hfile]
  exact h.kept_of_clear hclear (howed u hu)

/-- A task writes what it planned. -/
theorem Debts.Sound.write {s t : Debts P U} (h : s.Sound) {p : P} {x : Task U} {us : List U}
    (ht : t.task = Function.update s.task p x) (hx : x.plan = none)
    (hp : (s.task p).plan = some us) (hfile : readDeferredRestarts t.file = us)
    (howed : ∀ u, t.Owed u → s.Owed u ∨ u ∈ us) : t.Sound := by
  refine h.move ht (fun hs => ?_) (fun us hs => ?_) (fun q hq hs u hu => ?_) fun _ _ u hu => ?_
  · rw [hx] at hs
    cases hs
  · rw [hx] at hs
    cases hs
  · exact absurd (h.one q p hs (by rw [hp]; rfl)) hq
  · rw [hfile]
    exact (howed u hu).elim (h.plan p us hp u) id

/-- An orderly step loses nothing. -/
theorem Debts.Sound.next {s t : Debts P U} {i : DebtStep P U} (h : s.Sound) (hi : s.Orderly i)
    (hn : s.next i = some t) : t.Sound := by
  cases i with
  | record p units ok =>
    simp only [Debts.next] at hn
    split at hn
    · rename_i hp
      split at hn
      · obtain rfl := Option.some.inj hn
        exact h.pass rfl rfl (by rw [hp]; exact id) rfl fun _ => id
      · rename_i hunits
        obtain ⟨rfl, hclear⟩ := hi hunits
        obtain rfl := Option.some.inj hn
        refine h.load rfl hclear ?_ rfl fun _ => id
        rintro _ ⟨rfl⟩ u hu
        exact mem_merge.mpr (.inl (h.kept_of_clear hclear hu))
    · cases hn
  | spawn p socket ok =>
    simp only [Debts.next] at hn
    split at hn
    · rename_i hp
      have hw : ¬(s.task p).Writing := by rw [hp]; exact id
      split at hn
      · obtain rfl := Option.some.inj hn
        exact h.pass rfl rfl hw rfl fun _ => id
      · split at hn <;> obtain rfl := Option.some.inj hn <;> exact h.pass rfl rfl hw rfl fun _ => id
    · cases hn
  | drained p inTime =>
    simp only [Debts.next] at hn
    split at hn
    · rename_i hp
      have hw : ¬(s.task p).Writing := by rw [hp]; exact id
      split at hn <;> obtain rfl := Option.some.inj hn <;> exact h.pass rfl rfl hw rfl fun _ => id
    · cases hn
  | send p =>
    simp only [Debts.next] at hn
    split at hn
    · rename_i hp
      obtain rfl := Option.some.inj hn
      exact h.pass rfl rfl (by rw [hp]; exact id) rfl fun _ => id
    · cases hn
  | reply p ok =>
    simp only [Debts.next] at hn
    split at hn
    · rename_i v since r hp
      have hw : ¬(s.task p).Writing := by rw [hp]; exact id
      split at hn
      · obtain rfl := Option.some.inj hn
        refine h.pass rfl rfl hw rfl fun u hu => ?_
        -- a restart that succeeds can only take a unit out of what is owed
        have hlt : Function.update s.restarted v (max (s.restarted v) since) u < s.recorded u := hu
        by_cases huv : u = v
        · rw [huv, Function.update_self] at hlt
          rw [huv]
          exact lt_of_le_of_lt (le_max_left _ _) hlt
        · rwa [Function.update_of_ne huv] at hlt
      · obtain rfl := Option.some.inj hn
        exact h.pass rfl rfl hw rfl fun _ => id
    · cases hn
  | settle p ok =>
    obtain ⟨rfl, hclear, hpaid⟩ := hi
    simp only [Debts.next] at hn
    split at hn
    · rename_i hp
      obtain rfl := Option.some.inj hn
      refine h.load rfl hclear ?_ rfl fun _ => id
      rintro _ ⟨rfl⟩ u hu
      exact mem_remaining.mpr ⟨h.kept_of_clear hclear hu, fun hmem => hpaid _ hp u hmem hu⟩
    · cases hn
  | unlink p ok =>
    simp only [Debts.next] at hn
    split at hn
    · rename_i r seen hp
      split at hn
      · rename_i hempty
        obtain rfl := Option.some.inj hn
        have hplan : (s.task p).plan = some [] := by rw [hp, ← hempty]; rfl
        cases ok with
        | true => exact h.write rfl rfl hplan rfl fun _ => .inl
        | false => exact h.pass rfl rfl (by rw [hp]; exact id) rfl fun _ => id
      · cases hn
    · cases hn
  | openFile p ok =>
    simp only [Debts.next] at hn
    split at hn
    · rename_i units seen hp
      split at hn
      · obtain rfl := Option.some.inj hn
        refine h.move rfl (fun _ => .inl (by rw [hp]; rfl)) ?_ (fun _ _ _ _ => id) fun hw => ?_
        · intro us hus u hu
          exact h.plan p us (by rw [hp]; exact hus) u hu
        · exact absurd trivial hw
      · obtain rfl := Option.some.inj hn
        exact h.pass rfl rfl (by rw [hp]; exact id) rfl fun _ => id
    · rename_i r seen hp
      split at hn
      · cases hn
      split at hn
      · obtain rfl := Option.some.inj hn
        refine h.move rfl (fun _ => .inl (by rw [hp]; rfl)) ?_ (fun _ _ _ _ => id) fun hw => ?_
        · intro us hus u hu
          exact h.plan p us (by rw [hp]; exact hus) u hu
        · exact absurd trivial hw
      · obtain rfl := Option.some.inj hn
        exact h.pass rfl rfl (by rw [hp]; exact id) rfl fun _ => id
    · cases hn
  | write p ok =>
    obtain rfl : ok = true := hi
    simp only [Debts.next] at hn
    split at hn
    · rename_i units seen hp
      obtain rfl := Option.some.inj hn
      have hplan : (s.task p).plan = some (merge seen units) := by rw [hp]; rfl
      refine h.write rfl rfl hplan rfl fun u hu => ?_
      by_cases hmem : u ∈ units
      · exact .inr (mem_merge.mpr (.inr hmem))
      · have hlt : s.restarted u < if u ∈ units then s.clock else s.recorded u := hu
        rw [if_neg hmem] at hlt
        exact .inl hlt
    · rename_i r seen hp
      obtain rfl := Option.some.inj hn
      have hplan : (s.task p).plan = some (remaining seen r.paid) := by rw [hp]; rfl
      exact h.write rfl rfl hplan rfl fun _ => .inl
    · cases hn
  | die p =>
    obtain rfl := Option.some.inj hn
    exact h.pass rfl rfl hi rfl fun _ => id

/-- In an orderly run, no deferred restart is lost. -/
theorem nothing_lost {s t : Debts P U} {is : List (DebtStep P U)} (hs : s.Fresh)
    (hr : debts.Runs Debts.Orderly s is t) : t.NothingLost :=
  (hr.invariant (fun _ _ _ h hi hn => h.next hi hn) hs.sound).kept

/-! ## Two deploys at once -/

/-- No unit is recorded. -/
def noDebts : Debts Bool String where
  file := none
  task _ := .idle
  clock := 1
  recorded _ := 0
  restarted _ := 0

/-- Two deploys load the empty ledger before either writes it. -/
def recordTwice : List (DebtStep Bool String) :=
  [.record false ["web.service"] true, .record true ["api.service"] true, .openFile false true,
    .write false true, .openFile true true, .write true true]

/-- The second write overwrites the first deploy's entry. -/
theorem second_record_overwrites_first :
    ∃ t, debts.Runs System.Any noDebts recordTwice t ∧ t.Owed "web.service" ∧
      t.file = some ["api.service"] ∧ ¬t.NothingLost := by
  have hrun : (debts.run noDebts recordTwice).any (fun t => decide ((∀ p, ¬(t.task p).Writing) ∧
      t.restarted "web.service" < t.recorded "web.service" ∧ t.file = some ["api.service"])) =
      true := by decide
  obtain ⟨t, hr, hquiet, howed, hfile⟩ := System.exists_run hrun
  refine ⟨t, hr, howed, hfile, fun hkept => ?_⟩
  have hmem := hkept hquiet _ howed
  rw [hfile] at hmem
  exact absurd hmem (by decide)

/-- One deploy records, and a worker then restarts the unit. -/
def recordOnce : List (DebtStep Bool String) :=
  [.record false ["web.service"] true, .openFile false true, .write false true,
    .spawn true true true, .drained true true, .send true]

/-- A sample run loses nothing. -/
theorem nothing_lost_recorded_once :
    ∃ t, debts.Runs Debts.Orderly noDebts recordOnce t ∧ t.NothingLost := by
  obtain ⟨t, hr⟩ : ∃ t, debts.Runs Debts.Orderly noDebts recordOnce t :=
    ⟨_, .cons (fun _ => ⟨rfl, fun _ => rfl⟩) rfl (.cons trivial rfl (.cons rfl rfl
      (.cons trivial rfl (.cons trivial rfl (.cons trivial rfl (.nil _))))))⟩
  exact ⟨t, hr, nothing_lost ⟨fun _ => rfl, fun _ => rfl⟩ hr⟩

end Fraisier.Restart
