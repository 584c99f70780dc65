import Mathlib.Data.List.Induction
import Fraisier.Deploy.Account
import Fraisier.Deploy.WayBack

/-!
# The kept configuration

A deploy replaces the live `fraises.yaml` and keeps the file it replaces beside it. The docstring of
`_discard_replaced_config` has it that the copy is dropped at every terminal point, but only
`_record_outcome` drops it, and only a rollback files its outcome through that: a deploy that
succeeds, halts at its smoke tests or fails before it has a commit to go back to leaves the copy.
`config_follows_tree_iff` says exactly which runs leave the configuration that goes with the tree,
and no copy.
-/

namespace Fraisier.Deploy

open Fraisier.Lib

variable {env : Env}

/-! ## The shelf -/

/-- Which configuration a file holds. -/
inductive Live
  /-- The one that was live when the run began. -/
  | before
  /-- The one that the sync before the checkout installed. -/
  | prePull
  /-- The one that the sync after the checkout installed. -/
  | postPull
  deriving DecidableEq, Repr

/-- The live configuration, the copy beside it, and what the run did that decides about them. -/
structure Shelf where
  /-- What is on the live path. -/
  live : Live := .before
  /-- What is on `fraises.yaml.prev`, when this run put it there. -/
  kept : Option Live := none
  /-- The run has kept a copy. -/
  keptEver : Bool := false
  /-- The checkout has been moved to the new commit. -/
  pulled : Bool := false
  /-- The sync after the checkout has installed its configuration. -/
  installed : Bool := false
  /-- The copy has been removed. -/
  discarded : Bool := false
  /-- `rollback` was entered. -/
  rolled : Bool := false
  /-- The worktree was reverted to the previous commit. -/
  reverted : Bool := false
  /-- The last step on the copy was a copying that nothing noted, or a forgetting that nothing
  followed. -/
  torn : Bool := false
  deriving DecidableEq, Repr

/-- One more deed. -/
def Shelf.see (m : Shelf) : Deed → Shelf
  | .pulled _ => { m with pulled := true }
  | .configKept => { m with kept := some m.live, keptEver := true, torn := true }
  | .configInstalled =>
    { m with
      live := if m.pulled then .postPull else .prePull
      installed := m.installed || m.pulled }
  | .configNoted known => { m with torn := !known }
  | .configRestored => { m with live := m.kept.getD m.live, kept := none, torn := false }
  | .configDiscarded => { m with kept := none, discarded := true, torn := false }
  | .goingBack .rollback => { m with rolled := true }
  | .reverted _ => { m with reverted := true }
  | _ => m

/-- The shelf at the end of a run. -/
def Run.shelf (s : Run) : Shelf := s.deeds.foldl Shelf.see {}

/-- What the deployer knows. -/
structure Known where
  /-- `_config_replaced is not None`. -/
  recorded : Bool
  /-- `_previous_sha is not None`. -/
  previous : Bool
  deriving DecidableEq, Repr

/-- What the configuration's way through a run depends on. -/
def Attributes.known (x : Attributes) : Known where
  recorded := x.configReplaced.isSome
  previous := x.previousSha.isSome

/-- What the configuration's way through a run looks at. -/
def Watch.shelf : Watch Known Shelf where
  attrs := Attributes.known
  init := {}
  step := Shelf.see
  reads := [.config, .worktree, .rollback, .previous]
  attrs_eq x y h := by
    have hc := h .config (by simp)
    have hp := h .previous (by simp)
    simp only [Attributes.Agree] at hc hp
    rw [Attributes.known, hc, hp.1, Attributes.known]
  step_eq m d hd := by
    cases d <;> simp_all [Deed.aspect, Shelf.see]

/-! ## What holds along a run -/

/-- Before the sync after the checkout has installed anything. -/
structure Shelf.Early (a : Known) (m : Shelf) : Prop where
  live : m.live ≠ .postPull
  kept_live : m.kept ≠ some .postPull
  kept : m.kept.isSome = m.keptEver
  known : a.recorded = true → m.kept.isSome = true
  torn : m.torn = true ↔ m.kept.isSome = true ∧ a.recorded = false
  installed : m.installed = false
  discarded : m.discarded = false
  rolled : m.rolled = false
  reverted : m.reverted = false

/-- The new configuration stands: it is live exactly when it was installed. -/
def Shelf.Stands (m : Shelf) : Prop := m.live = .postPull ↔ m.installed = true

/-- What holds at every moment of a run. -/
structure Shelf.Sound (a : Known) (m : Shelf) : Prop where
  /-- The copy is older than the sync after the checkout. -/
  kept_live : m.kept ≠ some .postPull
  /-- A copy that is known of is there, and was not moved back. -/
  known : a.recorded = true → m.kept.isSome = true ∧ m.Stands
  /-- Only a run that reverts the tree moves the copy back. -/
  stands : m.reverted = false → m.Stands
  /-- A copy stays until it is moved back or removed. -/
  left : m.reverted = false → m.discarded = false → m.kept.isSome = m.keptEver
  /-- Without a copy, the older configuration is live. -/
  back : m.keptEver = true → m.discarded = false → m.kept.isSome = true ∨ m.live ≠ .postPull
  /-- A run that keeps nothing can move nothing back. -/
  never : m.keptEver = false → m.kept = none ∧ m.Stands
  /-- A removed copy was not moved back, and its removal is a rollback's. -/
  dropped : m.discarded = true → a.recorded = false ∧ m.Stands ∧ m.rolled = true
  /-- There is a commit to go back to. -/
  previous : m.rolled = true ∨ m.reverted = true → a.previous = true
  /-- A copy is there that is not known of exactly when the last step on it was torn off. -/
  torn : m.torn = true ↔ m.kept.isSome = true ∧ a.recorded = false

/-- Up to the first way back. -/
structure Shelf.Pending (a : Known) (m : Shelf) : Prop where
  sound : Sound a m
  rolled : m.rolled = false
  reverted : m.reverted = false

/-- Inside a rollback. -/
structure Shelf.Rolling (a : Known) (m : Shelf) : Prop where
  sound : Sound a m
  rolled : m.rolled = true

/-- After a rollback: the copy is no longer known of. -/
structure Shelf.Settled (a : Known) (m : Shelf) : Prop where
  sound : Sound a m
  rolled : m.rolled = true
  recorded : a.recorded = false

/-- At the end of a run. -/
structure Shelf.Ended (a : Known) (m : Shelf) : Prop where
  sound : Sound a m
  spent : a.recorded = false ∨ m.rolled = false ∧ m.reverted = false

/-- Where an exception leaves the block: only the timer's comes out of a rollback. -/
def Shelf.Left : Exn → Known → Shelf → Prop
  | .deploymentTimeoutExpired => Sound
  | .raised _ => Pending

/-- What holds before the checkout holds until a way back is entered. -/
theorem Shelf.Early.pending {a : Known} {m : Shelf} (h : Early a m) : Pending a m where
  sound := by
    have hstands : m.Stands := by simp [Stands, h.live, h.installed]
    -- Before the checkout nothing is live but what was, and nothing is given up.
    constructor
    · exact h.kept_live
    · exact fun hr => ⟨h.known hr, hstands⟩
    · exact fun _ => hstands
    · exact fun _ _ => h.kept
    · exact fun _ _ => .inr h.live
    · intro hk
      have hkept : m.kept.isSome = false := h.kept.trans hk
      exact ⟨by simpa using hkept, hstands⟩
    · simp [h.discarded]
    · simp [h.rolled, h.reverted]
    · exact h.torn
  rolled := h.rolled
  reverted := h.reverted

/-- A run that entered no way back may be left by any exception. -/
theorem Shelf.Pending.left {a : Known} {m : Shelf} (h : Pending a m) (e : Exn) : Left e a m := by
  cases e with
  | deploymentTimeoutExpired => exact h.sound
  | raised f => exact h

/-- A run may end without a way back. -/
theorem Shelf.Pending.ended {a : Known} {m : Shelf} (h : Pending a m) : Ended a m :=
  ⟨h.sound, .inr ⟨h.rolled, h.reverted⟩⟩

/-- What holds inside a rollback holds after it. -/
theorem Shelf.Settled.rolling {a : Known} {m : Shelf} (h : Settled a m) : Rolling a m :=
  ⟨h.sound, h.rolled⟩

/-- A run may end after a rollback. -/
theorem Shelf.Settled.ended {a : Known} {m : Shelf} (h : Settled a m) : Ended a m :=
  ⟨h.sound, .inl h.recorded⟩

/-- Entering a rollback. -/
theorem Shelf.Sound.goingBack {a : Known} {m : Shelf} (h : Sound a m) (hp : a.previous = true) :
    Rolling a (m.see (.goingBack .rollback)) where
  sound := { h with
    dropped := fun hd => ⟨(h.dropped hd).1, (h.dropped hd).2.1, rfl⟩
    previous := fun _ => hp }
  rolled := rfl

/-- The tree goes back. -/
theorem Shelf.Sound.reverting {a : Known} {m : Shelf} (h : Sound a m) (hp : a.previous = true)
    (sha : String) : Sound a (m.see (.reverted sha)) :=
  { h with
    stands := nofun
    left := nofun
    previous := fun _ => hp }

/-- The deployer forgets the copy that it knows of. -/
theorem Shelf.Sound.forget {x : Attributes} {m : Shelf} (h : Sound x.known m)
    (hr : x.known.recorded = true) :
    Sound ({ x with configReplaced := none } : Attributes).known (m.see (.configNoted false)) :=
  { h with
    known := nofun
    dropped := fun hd => ⟨rfl, (h.dropped hd).2⟩
    torn := ⟨fun _ => ⟨(h.known hr).1, rfl⟩, fun _ => rfl⟩ }

/-- The copy, which is there and was not moved back, is moved back after the tree. -/
theorem Shelf.Sound.restoring {a : Known} {m : Shelf} (h : Sound a m) (ha : a.recorded = false)
    (hk : m.kept.isSome = true) (hd : m.discarded = false) (hr : m.reverted = true) :
    Sound a (m.see .configRestored) := by
  obtain ⟨live, hlive⟩ := Option.isSome_iff_exists.mp hk
  have hold : live ≠ .postPull := fun he => h.kept_live (he ▸ hlive)
  have hever : m.keptEver = true := by
    refine (Bool.not_eq_false _).mp fun hf => ?_
    have hnone := (h.never hf).1
    rw [hlive] at hnone
    cases hnone
  -- Moved back, the copy is gone and the replaced configuration is live again.
  simp only [see, hlive, Option.getD_some]
  constructor
  · exact nofun
  · simp [ha]
  · simp [hr]
  · simp [hr]
  · exact fun _ _ => .inr hold
  · simp [hever]
  · simp [hd]
  · exact h.previous
  · simp

/-- The copy, which was not moved back, is removed in a rollback. -/
theorem Shelf.Sound.discarding {a : Known} {m : Shelf} (h : Sound a m) (ha : a.recorded = false)
    (hs : m.Stands) (hr : m.rolled = true) : Sound a (m.see .configDiscarded) where
  kept_live := nofun
  known := by simp [ha]
  stands _ := hs
  left _ := nofun
  back _ := nofun
  never _ := ⟨rfl, hs⟩
  dropped _ := ⟨ha, hs, hr⟩
  previous := h.previous
  torn := by simp [see]

/-! ## The sync -/

/-- Before a sync has installed anything, before the checkout or after it. -/
abbrev Shelf.EarlyAt (pulled : Bool) (a : Known) (m : Shelf) : Prop :=
  Early a m ∧ m.pulled = pulled

/-- The next replacement is kept, the first time, and known of. -/
theorem keepReplacedConfig_shelf (pulled : Bool) (destPath : String) :
    Spec Watch.shelf (Shelf.EarlyAt pulled) (keepReplacedConfig env destPath)
      (fun _ => Shelf.EarlyAt pulled) fun _ => Shelf.EarlyAt pulled := by
  refine .self_bind fun me => .ite (fun _ => .pure fun _ _ h => h.1) fun hnone => ?_
  have hfresh : me.known.recorded = false := (Bool.not_eq_true _).mp hnone
  refine .ask_bind (fun _ _ _ h => h.1) fun present =>
    .ite (fun _ => ?_) fun _ => .pure fun _ _ h => h.1
  -- What is copied was live before the checkout, so it is not its configuration.
  have hkeep : ∀ a m, Shelf.EarlyAt pulled a m ∧ a = me.known →
      Shelf.EarlyAt pulled a (m.see .configKept) := by
    rintro a m ⟨⟨h, hp⟩, rfl⟩
    have hnew : (m.see .configKept).kept ≠ some .postPull := fun he => h.live (Option.some.inj he)
    have htorn : (m.see .configKept).torn = true ↔
        (m.see .configKept).kept.isSome = true ∧ me.known.recorded = false :=
      ⟨fun _ => ⟨rfl, hfresh⟩, fun _ => rfl⟩
    exact ⟨{ h with kept_live := hnew, kept := rfl, known := fun _ => rfl, torn := htorn }, hp⟩
  refine .bind (R := fun _ a m => Shelf.EarlyAt pulled a m ∧ m.kept.isSome = true)
    (.call (fun _ _ _ h => ⟨hkeep _ _ h, rfl⟩) fun _ _ _ _ _ h => ⟨h.1, hkeep _ _ h⟩) fun _ => ?_
  -- The copy is noted only when it is there.
  have hnote : ∀ (x : Attributes) replaced m,
      Shelf.EarlyAt pulled x.known m ∧ m.kept.isSome = true →
      Shelf.EarlyAt pulled ({ x with configReplaced := some replaced } : Attributes).known
        (m.see (.configNoted true)) := by
    rintro x replaced m ⟨⟨h, hp⟩, hk⟩
    exact ⟨{ h with known := fun _ => hk, torn := ⟨nofun, fun hc => absurd hc.2 (by simp [Attributes.known])⟩ }, hp⟩
  exact .assign (fun x m h => hnote x _ m h) (fun _ _ h => h.1) fun x m h => hnote x _ m h

/-- The sync before the checkout changes nothing that matters later, and the one after it puts the
new configuration in place. -/
def Shelf.Synced (pulled : Bool) (a : Known) (m : Shelf) : Prop :=
  if pulled then Pending a m else Early a m ∧ m.pulled = false

/-- Before the checkout a sync has the state it needs. -/
theorem Shelf.Early.synced {pulled : Bool} {a : Known} {m : Shelf} (h : Early a m)
    (hp : m.pulled = pulled) : Synced pulled a m := by
  cases pulled
  · exact ⟨h, hp⟩
  · exact h.pending

/-- The checkout's configuration is moved onto the live path. -/
theorem Shelf.Early.installing {pulled : Bool} {a : Known} {m : Shelf} (h : Early a m)
    (hp : m.pulled = pulled) : Synced pulled a (m.see .configInstalled) := by
  -- By whether the checkout was pulled, which decides what is moved.
  cases pulled with
  | false =>
    refine ⟨{ h with live := ?_, installed := ?_ }, hp⟩
    · simp [see, hp]
    · simp [see, hp, h.installed]
  | true =>
    have hlive : (m.see .configInstalled).live = .postPull := by simp [see, hp]
    have hstands : (m.see .configInstalled).Stands := by simp [Stands, see, hp]
    have hpending := h.pending
    exact
      { sound :=
          { hpending.sound with
            known := fun hr => ⟨h.known hr, hstands⟩
            stands := fun _ => hstands
            back := fun hk _ => .inl (h.kept.trans hk)
            never := fun hk => ⟨(hpending.sound.never hk).1, hstands⟩
            dropped := fun hd => absurd hd (by simp [see, h.discarded]) }
        rolled := h.rolled
        reverted := h.reverted }

/-- A sync keeps track of its copy, before the checkout and after it. -/
theorem syncFraisesYaml_shelf (pulled : Bool) (sourcePath destPath : String) :
    Spec Watch.shelf (Shelf.EarlyAt pulled) (syncFraisesYaml env sourcePath destPath)
      (fun _ => Shelf.Synced pulled) fun _ => Shelf.Synced pulled := by
  have hearly : ∀ a m, Shelf.EarlyAt pulled a m → Shelf.Synced pulled a m :=
    fun a m h => h.1.synced h.2
  refine .ask_bind (fun _ => hearly) fun present => .ite (fun _ => ?_) fun _ => .raise hearly
  refine .ask_bind (fun _ => hearly) fun _ => .ask_bind (fun _ => hearly) fun _ => ?_
  refine .bind ((keepReplacedConfig_shelf pulled destPath).post (fun _ _ _ => id) fun _ => hearly)
    fun _ => ?_
  refine .bind (R := fun _ => Shelf.Synced pulled)
    (.call (fun _ _ _ h => h.1.installing h.2) fun _ _ _ _ _ h =>
      ⟨h.1.synced h.2, h.1.installing h.2⟩) fun _ => ?_
  exact .lift (.frame (by simp))

/-- What follows the copying touches no configuration. -/
theorem syncConfigIfNeeded_shelf (pulled : Bool) :
    Spec Watch.shelf (Shelf.EarlyAt pulled) (syncConfigIfNeeded env)
      (fun _ => Shelf.Synced pulled) fun _ => Shelf.Synced pulled := by
  -- Before the copy nothing has changed.
  have hearly : ∀ a m, Shelf.EarlyAt pulled a m → Shelf.Synced pulled a m :=
    fun a m h => h.1.synced h.2
  unfold syncConfigIfNeeded
  cases env.fraise.appPath with
  | none => exact .pure hearly
  | some appPath =>
    refine .ask_bind (fun _ => hearly) fun present => .ite (fun _ => ?_) fun _ => .pure hearly
    refine .frame_bind (by simp) (fun _ => hearly) fun _ => ?_
    refine .lift_bind (syncFraisesYaml_shelf pulled _ _) fun _ => ?_
    refine .frame_bind (by simp) (fun _ _ _ => id) fun changed => .ite (fun _ => ?_) fun _ => ?_
    · refine .frame_bind (by simp) (fun _ _ _ => id) fun _ => ?_
      refine .ask_bind (fun _ _ _ => id) fun _ => .ask_bind (fun _ _ _ => id) fun _ => ?_
      refine .frame_bind (by simp) (fun _ _ _ => id) fun _ => ?_
      exact .lift (.frame (by decide))
    · refine .ask_bind (fun _ _ _ => id) fun rendered => .ite (fun _ => ?_) fun _ => ?_
      · exact .lift (.frame (by decide))
      · have hrender : Spec Watch.shelf (Shelf.Synced pulled)
            (do regenerateScaffold env; pure true : Piece [.config, .settings] Bool)
            (fun _ => Shelf.Synced pulled) fun _ => Shelf.Synced pulled :=
          .frame_bind (by simp) (fun _ _ _ => id) fun _ => .pure fun _ _ h => h
        refine .bind (.exceptException hrender fun _ => .pure fun _ _ h => h) fun regenerated => ?_
        refine .bind (.whenever (fun _ => .ask) fun _ _ _ h => h) fun _ => ?_
        exact .lift (.frame (by decide))

/-- The sync before the checkout keeps what holds before it. -/
theorem prePullSync_shelf :
    Spec Watch.shelf (Shelf.EarlyAt false) (prePullSync env) (fun _ => Shelf.EarlyAt false)
      fun _ => Shelf.EarlyAt false :=
  .exceptException (syncConfigIfNeeded_shelf false) fun _ => .pure fun _ _ h => h

/-- The sync after the checkout enters no way back. -/
theorem postPullSync_shelf :
    Spec Watch.shelf Shelf.Early (postPullSync env) (fun _ => Shelf.Pending)
      fun _ => Shelf.Pending := by
  refine .of_pre fun a₀ m₀ h₀ => ?_
  have hsynced : ∀ a m, Shelf.Synced m₀.pulled a m → Shelf.Pending a m := by
    intro a m h
    cases hp : m₀.pulled with
    | false => rw [hp] at h; exact h.1.pending
    | true => rw [hp] at h; exact h
  have hsync : Spec Watch.shelf (fun a m => a = a₀ ∧ m = m₀) (syncConfigIfNeeded env)
      (fun _ => Shelf.Pending) fun _ => Shelf.Pending := by
    refine (syncConfigIfNeeded_shelf m₀.pulled).mono ?_ (fun _ => hsynced) fun _ => hsynced
    rintro a m ⟨rfl, rfl⟩
    exact ⟨h₀, rfl⟩
  exact .exceptException hsync fun e => .raise fun _ _ h => h

/-! ## The steps up to the restart -/

/-- Before the checkout's sync, the previous commit may change. -/
theorem previous_shelf {β : Type} {p : Piece [.previous] β} :
    Spec Watch.shelf Shelf.Early p (fun _ => Shelf.Early) fun _ => Shelf.Pending := by
  refine Spec.post (.invariant (fun a m d hd h => ?_) fun x y hxy m h => ?_)
    (fun _ _ _ => id) fun _ _ _ h => h.pending
  · cases d <;> simp_all [Deed.aspect]
  · have hc : y.configReplaced = x.configReplaced := hxy .config (by simp)
    have hr : y.known.recorded = x.known.recorded := congrArg Option.isSome hc
    have htorn : m.torn = true ↔ m.kept.isSome = true ∧ y.known.recorded = false := by
      rw [hr]
      exact h.torn
    exact { h with known := fun hy => h.known (hr.symm.trans hy), torn := htorn }

/-- The deploy's own checkout. -/
theorem gitPull_shelf :
    Spec Watch.shelf Shelf.Early (gitPull env) (fun _ => Shelf.Early) fun _ => Shelf.Pending := by
  have hpending : ∀ a m, Shelf.Early a m → Shelf.Pending a m := fun a m h => h.pending
  have hpulled : ∀ sha a m, Shelf.Early a m → Shelf.Early a (m.see (.pulled sha)) :=
    fun sha a m h => { h with }
  refine .bind (.whenever (fun _ => .lift ((Spec.frame (by simp)).post (fun _ _ _ => id) fun _ => hpending))
    fun _ _ _ h => h) fun _ => ?_
  -- Without a worktree there is nothing to pull.
  cases env.fraise.appPath with
  | none => exact .raise hpending
  | some appPath =>
    refine .lift_bind (Q := fun _ => Shelf.Early) ?_ fun r => ?_
    · refine .frame_bind (by simp) (fun _ => hpending) fun oldSha => .ask_bind (fun _ => hpending) fun _ => ?_
      refine .ask_bind (fun _ => hpending) fun newSha => ?_
      refine .bind (R := fun _ => Shelf.Early) (.call (fun _ _ _ h => hpulled newSha _ _ h)
        fun _ _ _ _ _ h => ⟨h.pending, (hpulled newSha _ _ h).pending⟩) fun _ => ?_
      refine .ask_bind (fun _ => hpending) fun _ => .frame_bind (by simp) (fun _ => hpending) fun _ => ?_
      exact .pure fun _ _ h => h
    · exact .lift_bind previous_shelf fun _ => .pure fun _ _ h => h

/-- Advancing enters no way back but the one inside the timer's exception. -/
theorem advance_shelf :
    Spec Watch.shelf (Shelf.EarlyAt false) (advance env) (fun _ => Shelf.Pending) Shelf.Left := by
  have hearly : ∀ (_ : Exn) a m, Shelf.EarlyAt false a m → Shelf.Pending a m :=
    fun _ a m h => h.1.pending
  refine Spec.post (E := fun _ => Shelf.Pending) ?_ (fun _ _ _ => id) fun e a m h => h.left e
  refine .lift_bind (prePullSync_shelf.post (fun _ _ _ => id) hearly) fun _ => ?_
  refine .frame_bind (by decide) hearly fun _ => .frame_bind (by decide) hearly fun _ => ?_
  refine .lift_bind (gitPull_shelf.pre fun _ _ h => h.1) fun r => ?_
  refine .lift_bind previous_shelf fun _ => .lift_bind postPullSync_shelf fun _ => ?_
  refine .frame_bind (by decide) (fun _ _ _ => id) fun _ => ?_
  refine .frame_bind (by decide) (fun _ _ _ => id) fun _ => ?_
  refine .frame_bind (by decide) (fun _ _ _ => id) fun _ => ?_
  refine .frame_bind (by decide) (fun _ _ _ => id) fun _ => ?_
  refine .frame_bind (by decide) (fun _ _ _ => id) fun _ => ?_
  exact .frame_bind (by decide) (fun _ _ _ => id) fun _ => .pure fun _ _ h => h

/-! ## The ways back -/

/-- The tree is back, and the copy is still to be moved. -/
structure Shelf.Reverted (rolled : Bool) (a : Known) (m : Shelf) : Prop where
  sound : Sound a m
  rolled : m.rolled = rolled
  reverted : m.reverted = true

/-- The copy goes back with the tree. -/
theorem restoreSyncedConfig_shelf (rolled : Bool) :
    Spec Watch.shelf (Shelf.Reverted rolled) (restoreSyncedConfig env)
      (fun _ a m => Shelf.Reverted rolled a m ∧ a.recorded = false)
      fun _ => Shelf.Reverted rolled := by
  refine .self_bind fun me => ?_
  cases hc : me.configReplaced with
  | none =>
    refine .pure ?_
    rintro _ m ⟨h, rfl⟩
    exact ⟨h, by simp [Watch.shelf, Attributes.known, hc]⟩
  | some replaced =>
    have hknown : ∀ x : Attributes, x.known = me.known → x.known.recorded = true := by
      intro x hx
      rw [hx]
      simp [Attributes.known, hc]
    have hforget : ∀ (x : Attributes) m, Shelf.Reverted rolled x.known m ∧ x.known = me.known →
        Shelf.Reverted rolled ({ x with configReplaced := none } : Attributes).known
          (m.see (.configNoted false)) :=
      fun x m h => ⟨h.1.sound.forget (hknown x h.2), h.1.rolled, h.1.reverted⟩
    -- the copy that was known of is there, and has been neither moved nor removed
    refine .bind (R := fun _ a m => (Shelf.Reverted rolled a m ∧ a.recorded = false) ∧
        m.kept.isSome = true ∧ m.discarded = false)
      (.assign ?_ (fun _ _ h => h.1) fun x m h => hforget x m h) fun _ => ?_
    · rintro x m ⟨h, hx⟩
      have hr := hknown x hx
      refine ⟨⟨hforget x m ⟨h, hx⟩, rfl⟩, (h.sound.known hr).1, ?_⟩
      exact (Bool.not_eq_true _).mp fun hd =>
        Bool.false_ne_true ((h.sound.dropped hd).1.symm.trans hr)
    · have hrestore : ∀ a m, ((Shelf.Reverted rolled a m ∧ a.recorded = false) ∧
          m.kept.isSome = true ∧ m.discarded = false) →
          Shelf.Reverted rolled a (m.see .configRestored) ∧ a.recorded = false := by
        rintro a m ⟨⟨h, hr⟩, hk, hd⟩
        exact ⟨⟨h.sound.restoring hr hk hd h.reverted, h.rolled, h.reverted⟩, hr⟩
      have hmove : Spec Watch.shelf (fun a m => (Shelf.Reverted rolled a m ∧ a.recorded = false) ∧
          m.kept.isSome = true ∧ m.discarded = false)
          (do call env (fun _ => ()) fun _ => Effect.deed .configRestored; pure true : Piece [.config] Bool)
          (fun _ a m => Shelf.Reverted rolled a m ∧ a.recorded = false)
          fun _ a m => Shelf.Reverted rolled a m ∧ a.recorded = false :=
        .bind (.call (fun _ _ _ h => hrestore _ _ h) fun _ _ _ _ _ h => ⟨h.1, hrestore _ _ h⟩)
          fun _ => .pure fun _ _ h => h
      exact .exceptException hmove fun _ => .pure fun _ _ h => h

/-- A rollback that files its outcome drops the copy. -/
theorem recordOutcome_shelf (r : DeploymentResult) (errorMessage : Option String) :
    Spec Watch.shelf Shelf.Rolling (recordOutcome env r errorMessage) (fun _ => Shelf.Settled)
      fun _ => Shelf.Sound := by
  refine .frame_bind (by decide) (fun _ _ _ h => h.sound) fun _ => ?_
  refine .lift_bind (Q := fun _ => Shelf.Settled) ?_ fun _ => .pure fun _ _ h => h
  refine .self_bind fun me => ?_
  -- Without a copy there is nothing to drop.
  cases hc : me.configReplaced with
  | none =>
    refine .pure ?_
    rintro _ m ⟨h, rfl⟩
    exact ⟨h.sound, h.rolled, by simp [Watch.shelf, Attributes.known, hc]⟩
  | some replaced =>
    have hknown : ∀ x : Attributes, x.known = me.known → x.known.recorded = true := by
      intro x hx
      rw [hx]
      simp [Attributes.known, hc]
    refine .bind (R := fun _ a m => Shelf.Settled a m ∧ m.Stands)
      (.assign ?_ (fun _ _ h => h.1.sound) fun x m h => h.1.sound.forget (hknown x h.2)) fun _ => ?_
    · rintro x m ⟨h, hx⟩
      have hr := hknown x hx
      exact ⟨⟨h.sound.forget hr, h.rolled, rfl⟩, (h.sound.known hr).2⟩
    -- What is dropped is not known of any more.
    · have hdiscard : ∀ a m, Shelf.Settled a m ∧ m.Stands → Shelf.Settled a (m.see .configDiscarded) := by
        rintro a m ⟨h, hs⟩
        exact ⟨h.sound.discarding h.recorded hs h.rolled, h.rolled, h.recorded⟩
      refine .bind (R := fun _ => Shelf.Settled) (.attempt (fun _ _ h => hdiscard _ _ h)
        (fun _ _ _ h => ⟨h.1, hdiscard _ _ h⟩) fun _ _ h => ?_) fun _ => .pure fun _ _ h => h
      exact ⟨h.1.sound, (hdiscard _ _ h).sound⟩

/-- The tree goes back, or nothing that matters has changed. -/
theorem gitRollback_shelf {P : Known → Shelf → Prop} (rolled : Bool) (target : String)
    (hP : ∀ a m, P a m → Shelf.Sound a m ∧ a.previous = true ∧ m.rolled = rolled) :
    Spec Watch.shelf P (gitRollback env target) (fun _ => Shelf.Reverted rolled) fun _ => P := by
  unfold gitRollback
  cases env.fraise.appPath with
  | none => exact .raise fun _ _ h => h
  | some _ =>
    refine .bind (R := fun _ => P) (.call (fun _ _ _ h => h) fun _ _ _ _ _ h => ⟨h, h⟩) fun _ => ?_
    refine .call (fun _ _ m h => ?_) fun _ _ _ _ _ h => ⟨h, h⟩
    obtain ⟨hsound, hp, hr⟩ := hP _ _ h
    exact ⟨hsound.reverting hp target, hr, rfl⟩

/-- What an exception leaves of a rollback. -/
def Shelf.RollingOr : Exn → Known → Shelf → Prop
  | .deploymentTimeoutExpired => Sound
  | .raised _ => Rolling

/-- What holds inside a rollback holds where one is cut short. -/
theorem Shelf.Rolling.orTimedOut {a : Known} {m : Shelf} (h : Rolling a m) (e : Exn) :
    RollingOr e a m := by
  cases e with
  | deploymentTimeoutExpired => exact h.sound
  | raised f => exact h

/-- Going back to a version gives up the copy, unless it is cut short. -/
theorem revert_shelf (currentVersion : Option String) (target : String) (dbDetails : Option ℕ) :
    Spec Watch.shelf Shelf.Rolling (revert env currentVersion target dbDetails)
      -- The tree goes first, and then the configuration that was kept.
      (fun _ => Shelf.Settled) Shelf.RollingOr := by
  refine .lift_bind ((gitRollback_shelf true target
    fun _ _ h => ⟨h.sound, h.sound.previous (.inl h.rolled), h.rolled⟩).post (fun _ _ _ => id)
    fun e a m h => h.orTimedOut e) fun _ => ?_
  refine .lift_bind ((restoreSyncedConfig_shelf true).post
    (fun _ a m h => (⟨h.1.sound, h.1.rolled, h.2⟩ : Shelf.Settled a m))
    fun e a m h => Shelf.Rolling.orTimedOut ⟨h.sound, h.rolled⟩ e) fun _ => ?_
  refine .lift_bind (Q := fun _ => Shelf.Settled) ?_ fun _ => .pure fun _ _ h => h
  have hsettled : ∀ e a m, Shelf.Settled a m → Shelf.RollingOr e a m :=
    fun e a m h => h.rolling.orTimedOut e
  refine .frame_bind (by decide) hsettled fun _ => .frame_bind (by decide) hsettled fun healthy => ?_
  refine .ite (fun _ => ?_) fun _ => .self_bind_any fun me => ?_
  · exact .frame_bind (by decide) hsettled fun _ => .pure fun _ _ h => h
  · refine .lift (((recordOutcome_contained env _ _).spec (recordOutcome_shelf _ _)).mono
      (fun _ _ h => h.rolling) (fun _ _ _ => id) ?_)
    rintro e a m ⟨rfl, h⟩
    exact h

/-- A rollback gives up the copy, unless it is cut short. -/
theorem rollback_shelf :
    Spec Watch.shelf (fun a m => Shelf.Sound a m ∧ a.previous = true) (rollback env)
      (fun _ => Shelf.Settled) fun _ => Shelf.Sound := by
  have hrecord : ∀ r, Spec Watch.shelf Shelf.Rolling (recordOutcome env r) (fun _ => Shelf.Settled)
      fun _ => Shelf.Sound := fun r => recordOutcome_shelf r none
  refine rollback_spec_entered Shelf.Rolling (fun _ => Shelf.Rolling) Shelf.RollingOr
    (by decide) (fun _ _ h => h.1) (fun x f m hx h => ?_) (fun _ _ h => h.1.goingBack h.2)
    (fun e _ _ h => h.orTimedOut e) (fun cv => ?_) (fun _ _ _ h => h) revert_shelf
    (fun r _ _ => ?_) fun f r _ _ => hrecord r
  · exact absurd h.2 (by simp [Watch.shelf, Attributes.known, hx])
  -- The way back is entered, the tree is reverted, and the outcome is recorded.
  · refine rollbackDatabase_spec (R := fun _ => Shelf.Rolling) (by decide)
      (fun e _ _ h => h.1.orTimedOut e) (fun x resolved => ?_) (fun _ e _ _ h => h.orTimedOut e) cv
    exact (Spec.frame (by decide)).post (fun _ _ _ h => h.1.1) fun e _ _ h => h.1.1.orTimedOut e
  · refine ((recordOutcome_contained env _ _).spec (hrecord r)).post (fun _ _ _ h => h) ?_
    rintro e a m ⟨rfl, h⟩
    exact h

/-- A rollback that failed files its outcome again. -/
theorem recordAgain_shelf (r : DeploymentResult) (errorMessage : Option String) :
    Spec Watch.shelf Shelf.Settled
      (do let _ ← recordOutcome env r errorMessage; notify env r; pure r : Piece _ _)
      (fun _ => Shelf.Settled) fun _ => Shelf.Sound := by
  refine .bind ((recordOutcome_shelf r errorMessage).pre fun _ _ h => h.rolling) fun _ => ?_
  exact .frame_bind (by simp) (fun _ _ _ h => h.sound) fun _ => .pure fun _ _ h => h

/-- Reporting a rollback leaves the copy as the rollback left it. -/
theorem buildRollbackResult_shelf (r : DeploymentResult) (oldVersion : Option String) :
    Spec Watch.shelf Shelf.Settled (buildRollbackResult env r oldVersion) (fun _ => Shelf.Ended)
      fun _ => Shelf.Sound :=
  .ite (fun _ => .pure fun _ _ h => h.ended) fun _ =>
    (recordAgain_shelf _ _).post (fun _ _ _ h => h.ended) fun _ _ _ => id

/-- Reporting a rollback after the timer leaves the copy as the rollback left it. -/
theorem buildTimeoutRollbackResult_shelf (r : DeploymentResult) (oldVersion : Option String)
    (message : String) :
    Spec Watch.shelf Shelf.Settled (buildTimeoutRollbackResult env r oldVersion message)
      (fun _ => Shelf.Ended) fun _ _ _ => True :=
  .ite (fun _ => .pure fun _ _ h => h.ended) fun _ =>
    (recordAgain_shelf _ _).post (fun _ _ _ h => h.ended) fun _ _ _ _ => trivial

/-- What an exception other than the timer's leaves of a restore. -/
def Shelf.EndedOr : Exn → Known → Shelf → Prop
  | .deploymentTimeoutExpired => fun _ _ => True
  | .raised _ => Ended

/-- What holds at the end covers an end that is cut short. -/
theorem Shelf.Ended.orTimedOut {a : Known} {m : Shelf} (h : Ended a m) (e : Exn) :
    EndedOr e a m := by
  cases e with
  | deploymentTimeoutExpired => trivial
  | raised f => exact h

/-- What the tree's turn in a restore begins with. -/
def Shelf.Restoring (a : Known) (m : Shelf) : Prop := Pending a m ∧ a.previous = true

/-- Restoring the tree brings the copy back with it, unless it is cut short. -/
theorem restoreTree_shelf (sha : String) (attempted keepServiceStopped : Bool) :
    Spec Watch.shelf Shelf.Restoring (restoreTree env sha attempted keepServiceStopped)
      (fun _ => Shelf.Ended) Shelf.EndedOr := by
  have hrestore : Spec Watch.shelf (Shelf.Reverted false) (restoreSyncedConfig env)
      (fun _ => Shelf.Ended) Shelf.EndedOr := by
    refine ((restoreSyncedConfig_contained env).spec (restoreSyncedConfig_shelf false)).post
      (fun _ a m h => ⟨h.1.sound, .inl h.2⟩) ?_
    rintro e a m ⟨rfl, -⟩
    trivial
  refine .lift_bind ((gitRollback_shelf false sha fun _ _ h => ⟨h.1.sound, h.2, h.1.rolled⟩).post
    (fun _ _ _ => id) fun e _ _ h => h.1.ended.orTimedOut e) fun _ => .lift_bind hrestore fun _ => ?_
  refine .self_bind_any fun me => .bind (R := fun _ => Shelf.Ended) ?_ fun _ => .pure fun _ _ h => h
  exact .whenever (fun _ => .lift ((Spec.frame (by decide)).post (fun _ _ _ => id)
    fun e _ _ h => h.orTimedOut e)) fun _ _ _ h => h

/-- Restoring the previous state leaves what holds at the end. -/
theorem restorePreviousState_shelf (keepServiceStopped : Bool) :
    Calm Watch.shelf Shelf.Pending (restorePreviousState env keepServiceStopped)
      (fun _ => Shelf.Ended) fun _ _ _ => True := by
  refine restorePreviousState_spec (fun _ => Shelf.Restoring) (fun _ => Shelf.EndedOr)
    keepServiceStopped (fun _ _ _ h => h.ended) (fun _ _ _ h => h) (fun cv => ?_)
    (fun x m _ hx h => ⟨h, hx⟩) (fun sha attempted => restoreTree_shelf sha attempted _)
    (fun _ _ _ h => h.1.ended) fun _ _ _ _ _ h => h
  have hended : ∀ e a m, Shelf.Restoring a m → Shelf.EndedOr e a m :=
    fun e a m h => h.1.ended.orTimedOut e
  refine (rollbackDatabase_spec (P := Shelf.Restoring) (R := fun _ => Shelf.Restoring) (by decide)
    hended (fun x resolved => ?_) (fun _ => hended) cv).pre ?_
  · exact (Spec.frame (by decide)).post (fun _ _ _ h => h.1) fun e _ _ h => hended e _ _ h.1
  · rintro a m ⟨h, x, -, hp, rfl⟩
    exact ⟨h, hp⟩

/-! ## The run -/

/-- The account of the configuration. -/
def Shelf.account (env : Env) : Account env Watch.shelf where
  start := EarlyAt false
  advanced := Pending
  left := Left
  expired := Sound
  rolled _ := Settled
  restored _ := Ended
  ended _ := Ended
  blind := by decide
  start_init :=
    ⟨{ live := nofun
       kept_live := nofun
       kept := rfl
       known := nofun
       torn := ⟨nofun, nofun⟩
       installed := rfl
       discarded := rfl
       rolled := rfl
       reverted := rfl }, rfl⟩
  start_left _ _ _ h := h.1.pending
  advance_spec := advance_shelf
  advanced_left e _ _ h := h.left e
  rollback_spec := rollback_shelf.pre <| by
    rintro _ m ⟨h, x, hx, rfl⟩
    exact ⟨h.sound, hx⟩
  rollback_expired := (rollback_shelf.pre <| by
    rintro _ m ⟨h, x, hx, rfl⟩
    exact ⟨h, hx⟩).post (fun _ _ _ h => h) fun _ _ _ _ => trivial
  build_spec := buildRollbackResult_shelf
  buildTimeout_spec := buildTimeoutRollbackResult_shelf
  ended_left _ _ _ h := h.sound
  halted _ _ _ _ _ h := h.ended
  succeeded _ _ _ _ h := h.ended
  unreverted r x m hx _ h := by
    have hprevious : ¬(m.rolled = true ∨ m.reverted = true) := fun hway => by
      have := h.previous hway
      simp [Watch.shelf, Attributes.known, hx] at this
    simp only [not_or, Bool.not_eq_true] at hprevious
    exact ⟨h, .inr hprevious⟩
  restore_spec f := restorePreviousState_shelf _
  classified _ _ _ _ _ _ h := h

/-- What the end of a run leaves beside the live configuration and on the live path. -/
structure ConfigFollowsTree (m : Shelf) : Prop where
  /-- No copy that the run made is left. -/
  noCopy : m.kept = none
  /-- After a sync that followed the checkout, an older configuration is live exactly when the
  worktree was reverted. -/
  follows : m.installed = true → (m.live ≠ .postPull ↔ m.reverted = true)

/-- When it does, in terms of the run's last state. -/
structure Shelf.Tracked (m : Shelf) : Prop where
  whole : m.torn = false
  goesBack : m.keptEver = true → m.rolled = true ∨ m.reverted = true
  kept : m.installed = true → m.reverted = true → m.keptEver = true ∧ m.discarded = false

/-- At the end the configuration follows the tree when every step kept track of it. -/
theorem Shelf.Ended.follows_iff {a : Known} {m : Shelf} (h : Ended a m) :
    ConfigFollowsTree m ↔ m.Tracked := by
  obtain ⟨hsound, hover⟩ := h
  constructor
  · intro hf
    refine ⟨(Bool.not_eq_true _).mp fun ht => ?_, fun hk => ?_, fun hi hr => ⟨?_, ?_⟩⟩
    · -- a torn step leaves the copy
      have hk := (hsound.torn.mp ht).1
      simp [hf.noCopy] at hk
    · refine by_contra fun hway => ?_
      simp only [not_or, Bool.not_eq_true] at hway
      have hd : m.discarded = false := (Bool.not_eq_true _).mp fun hd =>
        nomatch hway.1.symm.trans (hsound.dropped hd).2.2
      have hleft := hsound.left hway.2 hd
      simp [hf.noCopy, hk] at hleft
    · -- a run that kept nothing moved nothing back
      refine (Bool.not_eq_false _).mp fun hk => (hf.follows hi).mpr hr ?_
      exact (hsound.never hk).2.mpr hi
    · exact (Bool.not_eq_true _).mp fun hd => (hf.follows hi).mpr hr ((hsound.dropped hd).2.1.mpr hi)
  · intro ht
    -- A copy that is left would be known of, or torn.
    have hnone : m.kept = none := by
      refine Option.not_isSome_iff_eq_none.mp fun hk => ?_
      obtain hr | ⟨hroll, hrev⟩ := hover
      · exact Bool.false_ne_true (ht.whole.symm.trans (hsound.torn.mpr ⟨hk, hr⟩))
      · have hever : m.keptEver = false := (Bool.not_eq_true _).mp fun he => by
          simpa [hroll, hrev] using ht.goesBack he
        simp [(hsound.never hever).1] at hk
    refine ⟨hnone, fun hi => ⟨fun hl => ?_, fun hr => ?_⟩⟩
    · exact (Bool.not_eq_false _).mp fun hr => hl ((hsound.stands hr).mpr hi)
    · obtain ⟨hever, hd⟩ := ht.kept hi hr
      exact (hsound.back hever hd).resolve_left (by simp [hnone])

/-! ## The condition, on the steps of the run -/

/-- The steps on the kept copy: making it, moving it back, removing it, and the assignments of
`_config_replaced` that go with them. -/
def Deed.onCopy : Deed → Bool
  | .configKept | .configNoted _ | .configRestored | .configDiscarded => true
  | _ => false

/-- A step of a pair of which the other is still to come: a copy is made before it is noted, and
forgotten before it is moved back or removed. -/
def Deed.tears : Deed → Bool
  | .configKept => true
  | .configNoted known => !known
  | _ => false

/-- `rollback` is entered. -/
def Deed.rollsBack : Deed → Bool
  | .goingBack .rollback => true
  | _ => false

/-- The worktree is reverted. -/
def Deed.reverts : Deed → Bool
  | .reverted _ => true
  | _ => false

/-- The checkout is moved to the new commit. -/
def Deed.pulls : Deed → Bool
  | .pulled _ => true
  | _ => false

/-- A configuration is installed by the sync that follows the checkout. -/
def InstallsAfterPull (steps : List Deed) : Prop :=
  ∃ before after, steps = before ++ .configInstalled :: after ∧ before.any Deed.pulls = true

/-- When a run leaves the configuration that goes with its tree, and no copy: a condition on the
steps it takes, in their order. -/
structure ConfigTracked (steps : List Deed) : Prop where
  /-- No step that makes, moves back or removes the copy failed or was cut short and was not made
  good since: the last step on the copy is not a copying that was not noted, nor a forgetting
  after which the copy stayed where it was. -/
  whole : ∀ d ∈ (steps.filter Deed.onCopy).getLast?, d.tears = false
  /-- A run that keeps a copy enters `rollback`, or reverts the tree. -/
  goesBack : .configKept ∈ steps → steps.any Deed.rollsBack = true ∨ steps.any Deed.reverts = true
  /-- A run that installs a configuration after the checkout and reverts the tree keeps a copy of
  what it replaces, and does not remove it. -/
  kept : InstallsAfterPull steps → steps.any Deed.reverts = true →
    .configKept ∈ steps ∧ .configDiscarded ∉ steps

/-- What one step does to the fields that `ConfigTracked` is about. -/
theorem Shelf.see_fields (m : Shelf) (d : Deed) :
    (m.see d).keptEver = (m.keptEver || d == .configKept) ∧
      (m.see d).discarded = (m.discarded || d == .configDiscarded) ∧
      (m.see d).rolled = (m.rolled || d.rollsBack) ∧
      (m.see d).reverted = (m.reverted || d.reverts) ∧
      (m.see d).pulled = (m.pulled || d.pulls) ∧
      (m.see d).installed = (m.installed || (d == .configInstalled && m.pulled)) ∧
      (m.see d).torn = if d.onCopy then d.tears else m.torn := by
  cases d with
  | goingBack way =>
    cases way <;> simp [see, Deed.rollsBack, Deed.reverts, Deed.pulls, Deed.onCopy]
  | _ => simp [see, Deed.rollsBack, Deed.reverts, Deed.pulls, Deed.onCopy, Deed.tears]

/-- The flags of a run's shelf, on its steps. -/
theorem Shelf.foldl_flags (steps : List Deed) :
    ((steps.foldl see {}).keptEver = true ↔ .configKept ∈ steps) ∧
      ((steps.foldl see {}).discarded = true ↔ .configDiscarded ∈ steps) ∧
      (steps.foldl see {}).rolled = steps.any Deed.rollsBack ∧
      (steps.foldl see {}).reverted = steps.any Deed.reverts ∧
      (steps.foldl see {}).pulled = steps.any Deed.pulls := by
  -- Each flag is set by its own steps and never taken back.
  have hkept := foldl_flag keptEver _ (fun m d => (see_fields m d).1) steps {}
  have hdiscarded := foldl_flag discarded _ (fun m d => (see_fields m d).2.1) steps {}
  have hrolled := foldl_flag rolled _ (fun m d => (see_fields m d).2.2.1) steps {}
  have hreverted := foldl_flag reverted _ (fun m d => (see_fields m d).2.2.2.1) steps {}
  have hpulled := foldl_flag pulled _ (fun m d => (see_fields m d).2.2.2.2.1) steps {}
  refine ⟨?_, ?_, hrolled, hreverted, hpulled⟩
  · rw [hkept]
    simp
  · rw [hdiscarded]
    simp

/-- An installation after the checkout, one step later. -/
theorem installsAfterPull_append (steps : List Deed) (d : Deed) :
    InstallsAfterPull (steps ++ [d]) ↔
      InstallsAfterPull steps ∨ d = .configInstalled ∧ steps.any Deed.pulls = true := by
  constructor
  · rintro ⟨before, after, heq, hpull⟩
    obtain rfl | ⟨after', x, rfl⟩ := after.eq_nil_or_concat
    · obtain ⟨rfl, hd⟩ := List.append_inj' heq rfl
      exact .inr ⟨List.singleton_injective hd, hpull⟩
    · rw [List.concat_eq_append, ← List.cons_append, ← List.append_assoc] at heq
      exact .inl ⟨before, after', (List.append_inj' heq rfl).1, hpull⟩
  · rintro (⟨before, after, rfl, hpull⟩ | ⟨rfl, hpull⟩)
    · exact ⟨before, after ++ [d], by simp, hpull⟩
    · exact ⟨steps, [], rfl, hpull⟩

/-- What was installed after the checkout, on the steps. -/
theorem Shelf.foldl_installed (steps : List Deed) :
    (steps.foldl see {}).installed = true ↔ InstallsAfterPull steps := by
  induction steps using List.reverseRecOn with
  | nil =>
    refine ⟨nofun, fun h => ?_⟩
    obtain ⟨before, after, heq, -⟩ := h
    simp at heq
  | append_singleton steps d ih =>
    rw [List.foldl_append, List.foldl_cons, List.foldl_nil, (see_fields _ d).2.2.2.2.2.1,
      (foldl_flags steps).2.2.2.2, installsAfterPull_append, ← ih]
    simp

/-- The last step on the copy says whether it is torn. -/
theorem Shelf.foldl_torn (steps : List Deed) :
    (steps.foldl see {}).torn = false ↔
      ∀ d ∈ (steps.filter Deed.onCopy).getLast?, d.tears = false := by
  induction steps using List.reverseRecOn with
  | nil => simp
  | append_singleton steps d ih =>
    rw [List.foldl_append, List.foldl_cons, List.foldl_nil, (see_fields _ d).2.2.2.2.2.2,
      List.filter_append]
    cases hd : d.onCopy with
    | true => simp [hd]
    | false => simpa [hd] using ih

/-- The condition on a run's last state is the one on its steps. -/
theorem Shelf.tracked_iff (steps : List Deed) :
    (steps.foldl see {}).Tracked ↔ ConfigTracked steps := by
  obtain ⟨hkept, hdiscarded, hrolled, hreverted, -⟩ := foldl_flags steps
  have hinstalled := foldl_installed steps
  have htorn := foldl_torn steps
  -- Part for part, what the last state says is what the steps say.
  constructor
  · rintro ⟨hw, hg, hk⟩
    refine ⟨htorn.mp hw, fun h => ?_, fun hi hr => ?_⟩
    · rw [← hrolled, ← hreverted]
      exact hg (hkept.mpr h)
    · obtain ⟨he, hd⟩ := hk (hinstalled.mpr hi) (hreverted.trans hr)
      exact ⟨hkept.mp he, fun hmem => Bool.false_ne_true (hd.symm.trans (hdiscarded.mpr hmem))⟩
  · rintro ⟨hw, hg, hk⟩
    refine ⟨htorn.mpr hw, fun h => ?_, fun hi hr => ?_⟩
    · rw [hrolled, hreverted]
      exact hg (hkept.mp h)
    · obtain ⟨he, hd⟩ := hk (hinstalled.mp hi) (hreverted.symm.trans hr)
      exact ⟨hkept.mpr he, (Bool.not_eq_true _).mp fun hmem => hd (hdiscarded.mp hmem)⟩

/-- Every run returns, and its configuration goes with its tree, with no copy left, exactly when
no step on the copy was left half done, a run that keeps a copy enters `rollback` or reverts the
tree, and a run that installs a configuration and reverts the tree keeps a copy to move back. -/
theorem config_follows_tree_iff (env : Env) :
    ∃ r, env.outcome = (.ok r, env.final) ∧
      (ConfigFollowsTree env.final.shelf ↔ ConfigTracked env.final.deeds) := by
  obtain ⟨r, hr, hended⟩ := (Shelf.account env).ends fun _ _ _ h => h
  exact ⟨r, hr, hended.follows_iff.trans (Shelf.tracked_iff env.final.deeds)⟩

/-! ## A deploy that succeeds -/

set_option maxRecDepth 10000 in
/-- With nothing failing, a deploy succeeds, and leaves the copy of the configuration that the sync
before the checkout replaced. -/
theorem success_leaves_copy :
    ({} : Env).outcome.1.toOption.map (·.status) = some .success ∧
      ({} : Env).final.shelf.kept = some .before ∧ ¬ConfigFollowsTree ({} : Env).final.shelf := by
  refine ⟨by decide, by decide, fun h => ?_⟩
  exact absurd h.noCopy (by decide)

end Fraisier.Deploy
