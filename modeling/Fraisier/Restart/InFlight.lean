import Mathlib.Data.List.Defs
import Fraisier.Restart.Drain

/-!
# A drained restart and the deploys of the webhook

The webhook leaves the deploys of a dispatch that it accepted to background tasks, which run later,
one after another, and take their locks only when they start (`_dispatch_deployment` and
`execute_deployment` of `webhook.py`). A restart worker raises the flag, settles, polls the lock
files until none is held (`wait_for_deploys_to_drain`), lowers the flag and then requests the
restart. What it counts are the deploys that hold a lock; those that are still queued it cannot see.

`restart_kills_nothing` says when that is enough: every deploy that was accepted has taken its lock
by the end of the settling, the flag stays up until the worker lowers it, and no dispatch is accepted
between that and the request. Of what is left out, the operators' guide names the dispatch that has
not reached its lock when the settling ends; `queued_deploy_killed` has one deploy of a dispatch wait
behind another, and a dispatch come after the flag.
-/

namespace Fraisier.Restart

open Fraisier.Lib

variable {W : Type}

/-! ## The host -/

/-- How far the wait of a worker in the block of its flag is. -/
inductive Wait
  /-- It installs, and sleeps `drain_settle_s`. -/
  | settling
  /-- It is between two polls. -/
  | polling
  /-- It is in `count_held_deployment_locks`, with the lock files that are left and the count. -/
  | probing (rest : List String) (held : ℕ)
  /-- A poll has counted none: `DrainResult(drained=True, held=[])`. -/
  | drained
  deriving DecidableEq, Repr

/-- The workers and the deploys of the webhook on one host. A fraise stands for its deploy and for
its lock file. -/
structure InFlight (W : Type) where
  drains : Drains W
  wait : W → Wait
  /-- The dispatches that were not refused and are not answered yet. -/
  deciding : ℕ
  /-- The accepted deploys that have not started. -/
  queued : List String
  /-- The deploys that hold their lock. -/
  running : List String

/-- What happens next. -/
inductive HostStep (W : Type)
  | worker (d : DrainStep W)
  /-- The settling of a worker is over. -/
  | settled (p : W)
  /-- A worker starts to poll the lock files. -/
  | glob (p : W) (files : List String)
  /-- It probes the next one. A probe of someone else may be in its way. -/
  | probe (p : W) (disturbed : Bool)
  /-- It has probed them all. -/
  | counted (p : W)
  /-- A dispatch asks `is_draining`. -/
  | check (readable : Bool)
  /-- A dispatch is accepted: it adds a task for each of these deploys. -/
  | accept (fraises : List String)
  /-- The task of a deploy starts: it takes its lock, or is skipped when the lock is held. -/
  | start (fraise : String)
  /-- The task of a deploy finds its commit deployed already. -/
  | upToDate (fraise : String)
  /-- A deploy is over, and gives its lock back. -/
  | finish (fraise : String)
  deriving DecidableEq, Repr

section Steps

variable [DecidableEq W]

/-- A worker's own step, by its kind. It leaves its block as drained only after a poll that counted
no lock; a start of the webhook finds no deploy of the one before it. -/
def InFlight.work (s : InFlight W) (d : DrainStep W) : Option (InFlight W) :=
  (s.drains.next d).bind fun drains => match d with
    | .raise p _ => some { s with drains := drains, wait := Function.update s.wait p .settling }
    | .lower p how _ =>
      if how = .drained ∧ s.wait p ≠ .drained then none else some { s with drains := drains }
    | .start _ => some { s with drains := drains, deciding := 0, queued := [], running := [] }
    | _ => some { s with drains := drains }

/-- The wait of a worker goes on. -/
def InFlight.waits (s : InFlight W) (p : W) (w : Wait) : InFlight W :=
  { s with wait := Function.update s.wait p w }

/-- One step on the host, whose webhook believes a flag for `maxAge`. -/
def InFlight.next (maxAge : ℤ) (s : InFlight W) : HostStep W → Option (InFlight W)
  | .worker d => s.work d
  | .settled p => match s.wait p with
    | .settling => some (s.waits p .polling)
    | _ => none
  | .glob p files => match s.wait p with
    -- the file of a lock that is held is in the directory
    | .polling => if ∀ f ∈ s.running, f ∈ files then some (s.waits p (.probing files 0)) else none
    | _ => none
  | .probe p disturbed => match s.wait p with
    | .probing (f :: rest) held =>
      let blocked := disturbed || f ∈ s.running
      some (s.waits p (.probing rest (if blocked then held + 1 else held)))
    | _ => none
  | .counted p => match s.wait p with
    | .probing [] held => some (s.waits p (if held = 0 then .drained else .polling))
    | _ => none
  | .check readable =>
    if s.drains.refuses true readable maxAge then some s
    else some { s with deciding := s.deciding + 1 }
  | .accept fraises =>
    if s.deciding = 0 then none
    else some { s with deciding := s.deciding - 1, queued := s.queued ++ fraises }
  | .start f =>
    if f ∉ s.queued then none
    else if f ∈ s.running then some { s with queued := s.queued.erase f }
    else some { s with queued := s.queued.erase f, running := f :: s.running }
  | .upToDate f => if f ∉ s.queued then none else some { s with queued := s.queued.erase f }
  | .finish f => if f ∉ s.running then none else some { s with running := s.running.erase f }

/-- The system of a host. -/
def inFlight (maxAge : ℤ) : System (InFlight W) (HostStep W) := ⟨InFlight.next maxAge⟩

end Steps

/-! ## What a worker can count on -/

/-- The worker is in the block of its flag. -/
def InFlight.Draining (p : W) (s : InFlight W) : Prop := ∃ kind, s.drains.stage p = .draining kind

/-- The worker's condition on a step. When it has settled, every deploy that was accepted has taken
its lock. While it drains, nobody else removes the flag, the webhook is not started, and a dispatch
that asks finds the flag, which another worker may have touched again, young enough. Between its
lowering of the flag and its request no dispatch is accepted. -/
def Undisturbed (maxAge : ℤ) (p : W) (s : InFlight W) : HostStep W → Prop
  | .worker (.lower q _ removed) => s.Draining p → removed = true → q = p
  | .worker (.start _) => ¬s.Draining p
  | .settled q => q = p → s.deciding = 0 ∧ s.queued = []
  | .check _ => s.Draining p → ∀ mtime, s.drains.flag = some mtime → s.drains.clock - mtime ≤ maxAge
  | .accept _ => ∀ kind, s.drains.stage p ≠ .restarting kind
  | _ => True

/-- What holds from the moment the worker raised its flag. -/
structure InFlight.DrainedBy (p : W) (s : InFlight W) : Prop where
  started : s.drains.stage p ≠ .idle
  raised : s.Draining p → s.drains.Flagged
  settled : s.Draining p → s.wait p ≠ .settling → s.deciding = 0 ∧ s.queued = []
  probing : s.Draining p → ∀ rest, s.wait p = .probing rest 0 → ∀ f ∈ s.running, f ∈ rest
  drained : s.Draining p → s.wait p = .drained → s.running = []
  restarting : ∀ kind, s.drains.stage p = .restarting kind → s.running = [] ∧ s.queued = []

namespace InFlight.DrainedBy

variable {maxAge : ℤ} {p q : W} {s t : InFlight W}

/-- A worker that is out of its block counts on its flag no more. -/
theorem of_out (hstarted : t.drains.stage p ≠ .idle) (hout : ¬t.Draining p)
    (hrestarting : ∀ kind, t.drains.stage p = .restarting kind → t.running = [] ∧ t.queued = []) :
    t.DrainedBy p where
  started := hstarted
  raised h := (hout h).elim
  settled h := (hout h).elim
  probing h := (hout h).elim
  drained h := (hout h).elim
  restarting := hrestarting

/-- A worker that has finished counts on nothing any more. -/
theorem of_finished (sent : Bool) (h : t.drains.stage p = .finished sent) : t.DrainedBy p := by
  refine of_out (fun h' => ?_) ?_ fun kind h' => ?_
  · cases h.symm.trans h'
  · rintro ⟨kind, h'⟩
    cases h.symm.trans h'
  · cases h.symm.trans h'

/-- A step that is none of the worker's and starts no deploy, when the flag stays up. -/
theorem of_same (h : s.DrainedBy p) (hstage : t.drains.stage p = s.drains.stage p)
    (hraised : s.Draining p → s.drains.Flagged → t.drains.Flagged) (hwait : t.wait p = s.wait p)
    (hdeciding : t.deciding = s.deciding) (hqueued : s.queued = [] → t.queued = [])
    (hrunning : ∀ f ∈ t.running, f ∈ s.running) : t.DrainedBy p := by
  -- A stage that stays is draining before as after.
  have hdraining : t.Draining p → s.Draining p := by
    rintro ⟨kind, hk⟩
    exact ⟨kind, hstage ▸ hk⟩
  have hnone : s.running = [] → t.running = [] := fun hs =>
    List.eq_nil_iff_forall_not_mem.mpr fun f hf => List.not_mem_nil (hs ▸ hrunning f hf)
  refine ⟨hstage ▸ h.started, fun hd => hraised (hdraining hd) (h.raised (hdraining hd)),
    fun hd hw => ?_, fun hd rest hw f hf => ?_, fun hd hw => ?_, fun kind hk => ?_⟩
  · obtain ⟨hdec, hq⟩ := h.settled (hdraining hd) (hwait ▸ hw)
    exact ⟨hdeciding.trans hdec, hqueued hq⟩
  · exact h.probing (hdraining hd) rest (hwait ▸ hw) f (hrunning f hf)
  · exact hnone (h.drained (hdraining hd) (hwait ▸ hw))
  · obtain ⟨hs, hq⟩ := h.restarting kind (hstage ▸ hk)
    exact ⟨hnone hs, hqueued hq⟩

variable [DecidableEq W]

/-- The worker lowers its flag: it has drained, or it is finished. -/
theorem lowered {how : DrainEnd} {removed : Bool} {kind : WorkerKind} (h : s.DrainedBy p)
    (hkind : s.drains.stage p = .draining kind) (hdrained : ¬(how = .drained ∧ s.wait p ≠ .drained))
    (hn : s.drains.next (.lower p how removed) = some t.drains) (hrunning : t.running = s.running)
    (hqueued : t.queued = s.queued) : t.DrainedBy p := by
  simp only [Drains.next, hkind] at hn
  -- The flag was lowered after draining, or for another reason.
  by_cases hrestart : removed = true ∧ how = .drained
  · obtain ⟨rfl, rfl⟩ := hrestart
    have hwait : s.wait p = .drained := by
      by_contra hne
      exact hdrained ⟨rfl, hne⟩
    have hstage : t.drains.stage p = .restarting kind := by
      rw [← Option.some.inj hn]
      exact Function.update_self ..
    have hempty := h.drained ⟨kind, hkind⟩ hwait
    have hnone := (h.settled ⟨kind, hkind⟩ (by simp [hwait])).2
    refine of_out (fun h' => ?_) ?_ fun _ _ => ⟨hrunning.trans hempty, hqueued.trans hnone⟩
    · cases hstage.symm.trans h'
    · rintro ⟨k, h'⟩
      cases hstage.symm.trans h'
  · refine of_finished false ?_
    split at hn
    · rename_i hremoved
      have hhow : how ≠ .drained := fun hhow => hrestart ⟨hremoved, hhow⟩
      rw [← Option.some.inj hn]
      simp only [if_neg hhow]
      exact Function.update_self ..
    · rw [← Option.some.inj hn]
      exact Function.update_self ..

/-- A worker's step. -/
theorem work {d : DrainStep W} (h : s.DrainedBy p) (hd : Undisturbed maxAge p s (.worker d))
    (hn : s.work d = some t) : t.DrainedBy p := by
  obtain ⟨drains, hdrains, hn⟩ := Option.bind_eq_some_iff.mp hn
  cases d with
  | tick n =>
    obtain rfl := Option.some.inj hn
    have hstage : drains.stage p = s.drains.stage p := by
      obtain rfl := Option.some.inj hdrains
      rfl
    exact h.of_same hstage (fun _ hf => hf.next (i := .tick n) trivial hdrains) rfl rfl id
      fun _ hf => hf
  | raise q kind =>
    obtain rfl := Option.some.inj hn
    -- the worker itself is past its start
    have hqp : q ≠ p ∧ drains.stage p = s.drains.stage p := by
      simp only [Drains.next] at hdrains
      split at hdrains
      · rename_i hidle
        obtain rfl := Option.some.inj hdrains
        have hqp : q ≠ p := by
          rintro rfl
          exact h.started hidle
        exact ⟨hqp, Function.update_of_ne hqp.symm _ _⟩
      · cases hdrains
    exact h.of_same hqp.2 (fun _ hf => hf.next (i := .raise q kind) trivial hdrains)
      (Function.update_of_ne hqp.1.symm _ _) rfl id fun _ hf => hf
  | lower q how removed =>
    have hlow := hdrains
    simp only [Drains.next] at hdrains
    split at hdrains
    · rename_i kind hkind
      dsimp only at hn
      split at hn
      · cases hn
      · rename_i hdrained
        obtain rfl := Option.some.inj hn
        by_cases hqp : q = p
        · subst hqp
          exact h.lowered hkind hdrained hlow rfl rfl
        · -- another worker may fail to remove the flag, or come when this one is out of its block
          have hstage : drains.stage p = s.drains.stage p := by
            split at hdrains <;> obtain rfl := Option.some.inj hdrains
            · exact Function.update_of_ne (Ne.symm hqp) _ _
            · exact Function.update_of_ne (Ne.symm hqp) _ _
          have hflag : s.Draining p → s.drains.Flagged → drains.Flagged := by
            intro hdrain hf
            have hkept : removed = false := (Bool.not_eq_true _).mp fun hr => hqp (hd hdrain hr)
            exact hf.next (i := .lower q how removed) hkept hlow
          exact h.of_same hstage hflag rfl rfl id fun _ hf => hf
    · cases hdrains
  | send q =>
    obtain rfl := Option.some.inj hn
    have hlow := hdrains
    simp only [Drains.next] at hdrains
    split at hdrains
    · obtain rfl := Option.some.inj hdrains
      by_cases hqp : p = q
      · rw [hqp]
        exact of_finished _ (Function.update_self ..)
      · exact h.of_same (Function.update_of_ne hqp _ _)
          (fun _ hf => hf.next (i := .send q) trivial hlow) rfl rfl id fun _ hf => hf
    · cases hdrains
  | kill q =>
    obtain rfl := Option.some.inj hn
    have hlow := hdrains
    obtain rfl := Option.some.inj hdrains
    by_cases hqp : p = q
    · rw [hqp]
      exact of_finished _ (Function.update_self ..)
    · exact h.of_same (Function.update_of_ne hqp _ _)
        (fun _ hf => hf.next (i := .kill q) trivial hlow) rfl rfl id fun _ hf => hf
  | start cleared =>
    obtain rfl := Option.some.inj hn
    obtain rfl := Option.some.inj hdrains
    exact of_out h.started hd fun _ _ => ⟨rfl, rfl⟩

/-- The worker's own wait goes on: what its new place needs is checked on its old one. -/
theorem waits {w : Wait} (h : s.DrainedBy p)
    (hsettled : s.Draining p → q = p → w ≠ .settling → s.deciding = 0 ∧ s.queued = [])
    (hprobing : s.Draining p → q = p → ∀ rest, w = .probing rest 0 → ∀ f ∈ s.running, f ∈ rest)
    (hdrained : s.Draining p → q = p → w = .drained → s.running = []) :
    (s.waits q w).DrainedBy p := by
  by_cases hqp : q = p
  · have hwait : (s.waits q w).wait p = w := by
      rw [hqp]
      exact Function.update_self ..
    refine ⟨h.started, h.raised, fun hk hw => ?_, fun hk rest hw => ?_, fun hk hw => ?_,
      h.restarting⟩
    · exact hsettled hk hqp (hwait ▸ hw)
    · exact hprobing hk hqp rest (hwait.symm.trans hw)
    · exact hdrained hk hqp (hwait.symm.trans hw)
  · exact h.of_same rfl (fun _ => id) (Function.update_of_ne (Ne.symm hqp) _ _) rfl id fun _ hf => hf

/-- A poll lists the lock files that there are. -/
theorem globs {files : List String} (h : s.DrainedBy p)
    (hn : s.next maxAge (.glob q files) = some t) : t.DrainedBy p := by
  simp only [InFlight.next] at hn
  split at hn
  · rename_i hwait
    split at hn
    · rename_i hfiles
      obtain rfl := Option.some.inj hn
      refine h.waits (fun hk hqp _ => ?_) (fun _ _ rest hw => ?_) (fun _ _ hw => ?_)
      · rw [hqp] at hwait
        exact h.settled hk (by rw [hwait]; nofun)
      · obtain ⟨rfl, -⟩ := Wait.probing.inj hw
        exact hfiles
      · cases hw
    · cases hn
  · cases hn

/-- A poll looks at one lock file. -/
theorem probes {disturbed : Bool} (h : s.DrainedBy p)
    (hn : s.next maxAge (.probe q disturbed) = some t) : t.DrainedBy p := by
  simp only [InFlight.next] at hn
  split at hn
  · rename_i f rest held hwait
    obtain rfl := Option.some.inj hn
    refine h.waits (fun hk hqp _ => ?_) (fun hk hqp rest' hw => ?_) (fun _ _ hw => ?_)
    · rw [hqp] at hwait
      exact h.settled hk (by rw [hwait]; nofun)
    · -- a count that is still 0 was 0 before, and the file that was probed is not held
      rw [hqp] at hwait
      obtain ⟨rfl, hheld⟩ := Wait.probing.inj hw
      split at hheld
      · omega
      · rename_i hblocked
        obtain ⟨-, hfree⟩ : disturbed = false ∧ f ∉ s.running := by simpa using hblocked
        rw [hheld] at hwait
        intro g hg
        obtain rfl | hg' := List.mem_cons.mp (h.probing hk _ hwait g hg)
        · exact (hfree hg).elim
        · exact hg'
    · cases hw
  · cases hn

/-- A poll ends, and the worker has drained or waits on. -/
theorem counts (h : s.DrainedBy p) (hn : s.next maxAge (.counted q) = some t) :
    t.DrainedBy p := by
  simp only [InFlight.next] at hn
  split at hn
  · rename_i held hwait
    obtain rfl := Option.some.inj hn
    refine h.waits (fun hk hqp _ => ?_) (fun _ _ _ hw => ?_) (fun hk hqp hw => ?_)
    · rw [hqp] at hwait
      exact h.settled hk (by rw [hwait]; nofun)
    · split at hw <;> cases hw
    · rw [hqp] at hwait
      split at hw
      · rename_i hheld
        rw [hheld] at hwait
        exact List.eq_nil_iff_forall_not_mem.mpr fun f hf =>
          List.not_mem_nil (h.probing hk [] hwait f hf)
      · cases hw
  · cases hn

/-- A deploy that was queued takes its lock. -/
theorem starts {f : String} (h : s.DrainedBy p)
    (hn : s.next maxAge (.start f) = some t) : t.DrainedBy p := by
  simp only [InFlight.next] at hn
  split at hn
  · cases hn
  · rename_i hqueued
    have hsome : s.queued ≠ [] := by
      intro hnone
      rw [hnone] at hqueued
      exact hqueued List.not_mem_nil
    -- with a deploy queued, the worker is still settling, or past its restart
    have hsettling : s.Draining p → s.wait p = .settling := by
      intro hk
      by_contra hw
      exact hsome (h.settled hk hw).2
    have hstarts : ∀ u : InFlight W, u.drains = s.drains → u.wait = s.wait → u.DrainedBy p := by
      rintro ⟨drains, wait, deciding, queued, running⟩ rfl rfl
      refine ⟨h.started, h.raised, fun hk hw => (hw (hsettling hk)).elim,
        fun hk rest hw => ?_, fun hk hw => ?_,
        fun kind hk => (hsome (h.restarting kind hk).2).elim⟩
      · cases (hsettling hk).symm.trans hw
      · cases (hsettling hk).symm.trans hw
    split at hn <;> obtain rfl := Option.some.inj hn
    · exact hstarts _ rfl rfl
    · exact hstarts _ rfl rfl

/-- Every step that does not disturb the worker keeps what it counts on. -/
theorem next {i : HostStep W} (h : s.DrainedBy p) (hi : Undisturbed maxAge p s i)
    (hn : s.next maxAge i = some t) : t.DrainedBy p := by
  cases i with
  | worker d => exact h.work hi hn
  | settled q =>
    simp only [InFlight.next] at hn
    split at hn
    · obtain rfl := Option.some.inj hn
      refine h.waits (fun _ hqp _ => hi hqp) (fun _ _ _ hw => ?_) (fun _ _ hw => ?_)
      · cases hw
      · cases hw
    · cases hn
  | glob q files => exact h.globs hn
  | probe q disturbed => exact h.probes hn
  | counted q => exact h.counts hn
  | check readable =>
    simp only [InFlight.next] at hn
    split at hn
    · obtain rfl := Option.some.inj hn
      exact h
    · rename_i hrefused
      obtain rfl := Option.some.inj hn
      -- the worker is not draining: its flag would have refused
      have hout : ¬s.Draining p := fun hk => hrefused ((h.raised hk).refuses (hi hk) readable)
      exact of_out h.started hout h.restarting
  | accept fraises =>
    simp only [InFlight.next] at hn
    split at hn
    · cases hn
    · rename_i hdeciding
      obtain rfl := Option.some.inj hn
      refine ⟨h.started, h.raised, fun hk hw => ?_, h.probing, h.drained,
        fun kind hk => (hi kind hk).elim⟩
      exact (hdeciding (h.settled hk hw).1).elim
  | start f => exact h.starts hn
  | upToDate f =>
    simp only [InFlight.next] at hn
    split at hn
    · cases hn
    · obtain rfl := Option.some.inj hn
      refine h.of_same rfl (fun _ => id) rfl rfl (fun hnone => ?_) fun _ hf => hf
      show s.queued.erase f = []
      rw [hnone]
      rfl
  | finish f =>
    simp only [InFlight.next] at hn
    split at hn
    · cases hn
    · obtain rfl := Option.some.inj hn
      exact h.of_same rfl (fun _ => id) rfl rfl id fun _ hf => List.mem_of_mem_erase hf

/-- A worker has just raised its flag. -/
theorem of_raise {kind : WorkerKind} (h : s.next maxAge (.worker (.raise p kind)) = some t) :
    t.DrainedBy p := by
  obtain ⟨drains, hdrains, ht⟩ := Option.bind_eq_some_iff.mp h
  obtain rfl := Option.some.inj ht
  simp only [Drains.next] at hdrains
  split at hdrains
  · obtain rfl := Option.some.inj hdrains
    -- The worker drains and settles, and nothing is known yet of what runs.
    have hstage : Function.update s.drains.stage p (.draining kind) p = .draining kind :=
      Function.update_self ..
    have hwait : Function.update s.wait p .settling p = .settling := Function.update_self ..
    refine ⟨fun h' => ?_, fun _ => ⟨_, rfl, le_rfl⟩, fun _ hw => (hw hwait).elim,
      fun _ _ hw => ?_, fun _ hw => ?_, fun _ h' => ?_⟩
    · cases hstage.symm.trans h'
    · cases hwait.symm.trans hw
    · cases hwait.symm.trans hw
    · cases hstage.symm.trans h'
  · cases hdrains

end InFlight.DrainedBy

/-- A worker that raised its flag, found the host drained and is about to request its restart: when
the run has not disturbed it, no deploy of an accepted dispatch is running or queued. -/
theorem restart_kills_nothing [DecidableEq W] {maxAge : ℤ} {p : W} {kind kind' : WorkerKind}
    {s s' t : InFlight W} {is : List (HostStep W)}
    (hraise : s.next maxAge (.worker (.raise p kind)) = some s')
    (hr : (inFlight maxAge).Runs (Undisturbed maxAge p) s' is t)
    (hp : t.drains.stage p = .restarting kind') : t.running = [] ∧ t.queued = [] := by
  have hdrained : t.DrainedBy p :=
    hr.invariant (fun _ _ _ hs hi hn => hs.next hi hn) (.of_raise hraise)
  exact hdrained.restarting kind' hp

/-! ## Deploys that are not seen -/

/-- A host on which nothing has happened yet. -/
def noInFlight : InFlight Bool where
  drains := noDrains
  wait _ := .settling
  deciding := 0
  queued := []
  running := []

/-- A dispatch of two fraises is accepted, and the first is being deployed when a worker raises its
flag. The worker's poll falls between the end of that deploy and the start of the second. -/
def betweenTwoLocks : List (HostStep Bool) :=
  [.check true, .accept ["api", "jobs"], .start "api", .worker (.raise false .deferredRestart),
    .settled false, .finish "api", .glob false ["api"], .probe false false, .counted false,
    .worker (.lower false .drained true), .start "jobs"]

/-- A dispatch comes when the worker has lowered its flag. -/
def afterTheFlag : List (HostStep Bool) :=
  [.worker (.raise false .selfUpgrade), .settled false, .glob false [], .counted false,
    .worker (.lower false .drained true), .check true, .accept ["api"], .start "api"]

/-- A dispatch is accepted before the flag, and its deploy starts after the worker has settled and
polled. -/
def slowToStart : List (HostStep Bool) :=
  [.check true, .accept ["api"], .worker (.raise false .selfUpgrade), .settled false,
    .glob false [], .counted false, .worker (.lower false .drained true)]

/-- In each of these runs the worker has found the host drained, and its request comes while an
accepted deploy is running or queued. -/
theorem queued_deploy_killed :
    [betweenTwoLocks, afterTheFlag, slowToStart].Forall fun is =>
      ∃ t, (inFlight 3600).Runs System.Any noInFlight is t ∧
        (∃ kind, t.drains.stage false = .restarting kind) ∧ ¬(t.running = [] ∧ t.queued = []) := by
  -- Each run is computed: the worker restarts, and something is left.
  have hruns : ∀ is, ((inFlight 3600).run noInFlight is).any (fun t => decide
      ((t.drains.stage false = .restarting .selfUpgrade ∨
        t.drains.stage false = .restarting .deferredRestart) ∧
          ¬(t.running = [] ∧ t.queued = []))) = true →
      ∃ t, (inFlight 3600).Runs System.Any noInFlight is t ∧
        (∃ kind, t.drains.stage false = .restarting kind) ∧ ¬(t.running = [] ∧ t.queued = []) := by
    intro is h
    obtain ⟨t, hr, hstage, hleft⟩ := System.exists_run h
    obtain hstage | hstage := hstage
    · exact ⟨t, hr, ⟨_, hstage⟩, hleft⟩
    · exact ⟨t, hr, ⟨_, hstage⟩, hleft⟩
  exact ⟨hruns _ (by decide), hruns _ (by decide), hruns _ (by decide)⟩

/-- A host on which a deploy runs and a self-upgrade has raised its flag. -/
def raisedInFlight : InFlight Bool :=
  { noInFlight with
    drains := { noDrains with
      flag := some 0
      stage := Function.update noDrains.stage false (.draining .selfUpgrade) }
    wait := Function.update noInFlight.wait false .settling
    running := ["api"] }

/-- Another worker touches the flag again, the deploy that is running is waited for, a dispatch
meanwhile is refused, more than the flag's age after it was raised; and the other worker removes
nothing any more when it leaves. -/
def waitedFor : List (HostStep Bool) :=
  [.settled false, .worker (.tick 3000), .worker (.raise true .deferredRestart),
    .worker (.tick 3000), .check true, .glob false ["api"], .probe false false, .counted false,
    .finish "api", .glob false ["api"], .probe false false, .counted false,
    .worker (.lower false .drained true), .worker (.lower true .drainTimeout true)]

/-- A sample run waits for what is in flight. -/
theorem restart_kills_nothing_waited :
    ∃ t, (inFlight 3600).Runs (Undisturbed 3600 false) raisedInFlight waitedFor t ∧
      t.running = [] ∧ t.queued = [] := by
  have hout : ∀ t : InFlight Bool, t.drains.stage false = .restarting .selfUpgrade →
      ¬t.Draining false := by
    rintro t h ⟨kind, hk⟩
    cases h.symm.trans hk
  -- The run: one request is waited for, and the restart comes after it.
  obtain ⟨t, hr, hstage⟩ : ∃ t, (inFlight 3600).Runs (Undisturbed 3600 false) raisedInFlight
      waitedFor t ∧ t.drains.stage false = .restarting .selfUpgrade := by
    refine ⟨_, .cons (fun _ => ⟨rfl, rfl⟩) rfl (.cons trivial rfl (.cons trivial rfl
      (.cons trivial rfl (.cons ?_ rfl (.cons trivial rfl (.cons trivial rfl (.cons trivial rfl
        (.cons trivial rfl (.cons trivial rfl (.cons trivial rfl (.cons trivial rfl
          (.cons (fun _ _ => rfl) rfl (.cons ?_ rfl (.nil _)))))))))))))), rfl⟩
    · -- the flag was touched again at 3000
      intro _ mtime hm
      obtain rfl := Option.some.inj hm
      decide
    · exact fun hd => (hout _ rfl hd).elim
  exact ⟨t, hr, @restart_kills_nothing _ _ _ _ .selfUpgrade _ { noInFlight with running := ["api"] }
    _ _ _ rfl hr hstage⟩

end Fraisier.Restart
