import Fraisier.Ship.Abort
import Fraisier.Ship.Confined

/-!
# A version synced to other files

`sync_version_to_targets` of `versioning.py` writes the new version of a project into further files,
and `bump_version` runs it before it commits `pyproject.toml`. Each target is copied to a `.bak` file
beside it, and a failure in the loop over the targets copies the `.bak` files back. The copies are
made before that, outside the `try`: `bumpAtomic_iff` says that a failing read or write leaves all
files as they were for lists of one target, and only for these.
-/

namespace Fraisier.Ship.Sync

open Fraisier.Lib Str

/-! ## Targets -/

/-- A part of a text, as a regular expression with three groups finds it. -/
inductive Segment
  | other (text : Str)
  /-- A match, with what its first and its third group hold. -/
  | found (text first third : Str)
  deriving DecidableEq, Repr

/-- What is read of a part. -/
def Segment.text : Segment → Str
  | .other text => text
  | .found text _ _ => text

/-- What is written for a part: `\g<1>` and `\g<3>` with the new version in between. -/
def Segment.subst (new : Str) : Segment → Str
  | .other text => text
  | .found _ first third => first ++ new ++ third

/-- A compiled regular expression, by the parts into which it cuts a text. -/
structure Pattern where
  segments : Str → List Segment
  covers : ∀ s, (segments s).flatMap Segment.text = s

/-- `_compiled_regex.sub`. -/
def Pattern.sub (p : Pattern) (new s : Str) : Str := (p.segments s).flatMap (Segment.subst new)

/-- The text has a match. -/
def Pattern.Matches (p : Pattern) (s : Str) : Prop :=
  ∃ text first third, .found text first third ∈ p.segments s

/-- The parts into which `^(version\s*=\s*")([^"]+)(")` cuts a text, with the characters that are left
of a match. -/
def versionSegments : ℕ → Bool → Str → List Segment
  | _, _, [] => []
  | k + 1, _, c :: s => versionSegments k (c = '\n') s
  | 0, start, c :: s =>
    match if start then versionAt (c :: s) else none with
    | some (before, value) => .found (before ++ value ++ ['"']) before ['"'] ::
      versionSegments (before.length + value.length) (c = '\n') s
    | none => .other [c] :: versionSegments 0 (c = '\n') s

/-- The segments of a text, put together, are the text. -/
theorem versionSegments_covers (k : ℕ) (start : Bool) (s : Str) :
    (versionSegments k start s).flatMap Segment.text = s.drop k := by
  -- Induction on the text.
  induction s generalizing k start with
  | nil => cases k <;> rfl
  | cons c s ih =>
    cases k with
    | succ k => exact ih k _
    | zero =>
      unfold versionSegments
      cases hmatch : (if start then versionAt (c :: s) else none) with
      | none =>
        simp only [List.flatMap_cons, Segment.text, ih, List.drop_zero, List.singleton_append]
      | some m =>
        obtain ⟨-, -, -, rest, hs⟩ := versionAt_iff.mp (Option.ite_none_right_eq_some.mp hmatch).2
        simp only [List.flatMap_cons, Segment.text, ih, drop_match hs, List.drop_zero]
        rw [hs, List.append_cons _ '"' rest]

/-- The pattern of `pyproject.toml` in `auto_discover`. -/
def versionLine : Pattern where
  segments := versionSegments 0 true
  covers s := versionSegments_covers 0 true s

/-- `VersionSyncTarget`. -/
structure Target where
  path : PurePath
  pattern : Pattern

/-- `path.with_suffix(path.suffix + ".bak")` of a path with a name. -/
def backupPath (path : PurePath) : PurePath :=
  { path with parts := path.parts.dropLast ++ [path.name ++ ".bak".toList] }

/-- The path of the backup. -/
def Target.backup (t : Target) : PurePath := backupPath t.path

/-! ## The files -/

/-- A file, and whether this run has written it. -/
structure File where
  text : Str
  ours : Bool
  deriving DecidableEq, Repr

/-- The files by their paths, as the system resolves them. -/
abbrev Disk := PurePath → Option File

/-- The files that are there at the beginning. -/
def Disk.of (tree : Tree) : Disk := fun p => (tree p).map (⟨·, false⟩)

/-- The texts of the files. -/
def Disk.texts (d : Disk) : Tree := fun p => (d p).map File.text

/-- The steps of a run, those on targets with their places in the list. -/
inductive Step
  /-- `pyproject.toml` is read, and the temporary file is made and written. -/
  | source
  | backupRead (i : ℕ)
  | backupWrite (i : ℕ)
  /-- A target is read, and its pattern is applied. -/
  | read (i : ℕ)
  | write (i : ℕ)
  | restoreRead (i : ℕ)
  | restoreWrite (i : ℕ)
  | cleanUp (i : ℕ)
  | rename
  deriving DecidableEq, Repr

/-- How a step fails. -/
inductive Failure
  /-- Nothing is done. -/
  | refused
  /-- A write ends after some characters. -/
  | cut (k : ℕ)
  deriving DecidableEq, Repr

/-- The steps that fail. -/
abbrev Faults := Step → Option Failure

/-- What is raised. -/
inductive SyncError
  | sourceNotFound
  /-- There is no version, or none that can be raised. -/
  | badVersion
  /-- `Target file not found: {path}`. -/
  | targetNotFound (path : PurePath)
  /-- `with_suffix` of a path without a name. -/
  | emptyName (path : PurePath)
  | failed (step : Step)
  deriving DecidableEq, Repr

/-- How a run ends, with the files that it leaves. -/
abbrev Ending (α : Type) := Except SyncError α × Disk

/-- `write_text` of a path. -/
def write (faults : Faults) (step : Step) (path : PurePath) (text : Str) (d : Disk) : Ending Unit :=
  match faults step with
  | none => (.ok (), Function.update d path (some ⟨text, true⟩))
  | some .refused => (.error (.failed step), d)
  | some (.cut k) => (.error (.failed step), Function.update d path (some ⟨text.take k, true⟩))

/-! ## The sync -/

section Sync

variable (faults : Faults)

/-- The backups of the targets from the `i`th on. -/
def backUp : ℕ → List Target → Disk → Ending Unit
  | _, [], d => (.ok (), d)
  | i, t :: ts, d =>
    match d t.path with
    | none => (.error (.targetNotFound t.path), d)
    | some file =>
      if t.path.name = [] then (.error (.emptyName t.path), d)
      else if (faults (.backupRead i)).isSome then (.error (.failed (.backupRead i)), d)
      else
        match write faults (.backupWrite i) t.backup (readText file.text) d with
        | (.ok (), d) => backUp (i + 1) ts d
        | (.error e, d) => (.error e, d)

/-- The loop that writes the new version. -/
def updateAll (new : Str) : ℕ → List Target → Disk → Ending Unit
  | _, [], d => (.ok (), d)
  | i, t :: ts, d =>
    match d t.path with
    | none => (.error (.failed (.read i)), d)
    | some file =>
      if (faults (.read i)).isSome then (.error (.failed (.read i)), d)
      else
        match write faults (.write i) t.path (t.pattern.sub new (readText file.text)) d with
        | (.ok (), d) => updateAll new (i + 1) ts d
        | (.error e, d) => (.error e, d)

/-- The loop that writes the backups back. -/
def rollBack : ℕ → List Target → Disk → Ending Unit
  | _, [], d => (.ok (), d)
  | i, t :: ts, d =>
    match d t.backup with
    | none => rollBack (i + 1) ts d
    | some file =>
      if (faults (.restoreRead i)).isSome then (.error (.failed (.restoreRead i)), d)
      else
        match write faults (.restoreWrite i) t.path (readText file.text) d with
        | (.ok (), d) => rollBack (i + 1) ts d
        | (.error e, d) => (.error e, d)

/-- The loop that removes the backups. -/
def cleanUp : ℕ → List Target → Disk → Ending Unit
  | _, [], d => (.ok (), d)
  | i, t :: ts, d =>
    if (faults (.cleanUp i)).isSome then (.error (.failed (.cleanUp i)), d)
    else cleanUp (i + 1) ts (Function.update d t.backup none)

/-- The loop, and what an exception in it starts. -/
def attempt (new : Str) (ts : List Target) (d : Disk) : Ending Unit :=
  match updateAll faults new 0 ts d with
  | (.ok (), d) => (.ok (), d)
  | (.error e, d) =>
    match rollBack faults 0 ts d with
    | (.ok (), d) => (.error e, d)
    | (.error e', d) => (.error e', d)

/-- `sync_version_to_targets`. -/
def syncVersionToTargets (new : Str) (ts : List Target) (d : Disk) : Ending Unit :=
  match backUp faults 0 ts d with
  | (.error e, d) => (.error e, d)
  | (.ok (), d) =>
    let (result, d) := attempt faults new ts d
    match cleanUp faults 0 ts d with
    | (.ok (), d) => (result, d)
    | (.error e, d) => (.error e, d)

end Sync

/-! ## The bump -/

/-- What `bump_version` is called with. -/
structure Bump where
  /-- `pyproject_path`. -/
  source : PurePath
  part : BumpPart
  /-- `sync_config.targets`. -/
  targets : List Target

/-- The version that a bump of a `pyproject.toml` writes. -/
def nextVersion (part : BumpPart) (file : Str) : Option Str := do
  let current ← pyprojectVersion file
  semverText (part.next (← parseSemver current))

/-- `bump_version`. The temporary file has a name of its own, and is removed when the bump fails. -/
def bumpVersion (faults : Faults) (b : Bump) (d : Disk) : Ending Str :=
  match d b.source with
  | none => (.error .sourceNotFound, d)
  | some file =>
    match nextVersion b.part file.text with
    | none => (.error .badVersion, d)
    | some new =>
      if (faults .source).isSome then (.error (.failed .source), d)
      else
        match syncVersionToTargets faults new b.targets d with
        | (.error e, d) => (.error e, d)
        | (.ok (), d) =>
          if (faults .rename).isSome then (.error (.failed .rename), d)
          else (.ok new,
            Function.update d b.source (some ⟨substVersion new 0 true (readText file.text), true⟩))

/-! ## One failure -/

/-- A target is read or written. -/
def Step.OfTarget : Step → Prop
  | .backupRead _ | .read _ | .write _ => True
  | _ => False

/-- Nothing fails, or a target is not read or written once, or cannot be written at all. -/
inductive OneFails : Faults → Prop
  | nothing : OneFails fun _ => none
  | once {step : Step} (h : step.OfTarget) (e : Failure) :
    OneFails fun s => if s = step then some e else none
  | unwritable (i : ℕ) :
    OneFails fun s => if s = .write i ∨ s = .restoreWrite i then some .refused else none

/-- All is as it was when the bump raises, and all files carry the version that it returns; the
backups are gone, and a file that had the name of one is untouched. -/
structure Atomic (tree : Tree) (b : Bump) (result : Ending Str) : Prop where
  raised : ∀ e, result.1 = .error e → ∀ p ∈ b.source :: b.targets.map Target.path,
    result.2.texts p = tree p
  carried : ∀ new, result.1 = .ok new → ∀ p ∈ b.source :: b.targets.map Target.path,
    ∃ text, result.2.texts p = some text ∧ new <:+: text
  backups : ∀ t ∈ b.targets, result.2 t.backup = Disk.of tree t.backup

/-- The bump is atomic, whichever read or write of a target fails. -/
def BumpAtomic (tree : Tree) (b : Bump) : Prop :=
  ∀ faults, OneFails faults → Atomic tree b (bumpVersion faults b (Disk.of tree))

/-- A bump that comes to its targets, the first of which is there, has that target alone: no file
has the name of its backup, its text has no carriage return, and it will carry the new version. -/
def OneTarget (tree : Tree) (b : Bump) : Prop :=
  ∀ file new, tree b.source = some file → nextVersion b.part file = some new →
    ∀ t rest, b.targets = t :: rest → t.path.name ≠ [] → ∀ text, tree t.path = some text →
      rest = [] ∧ tree t.backup = none ∧ '\r' ∉ text ∧
        (t.pattern.Matches text ∨ new <:+: text ∨ t.path = b.source)

variable {faults : Faults} {tree : Tree} {b : Bump} {d : Disk} {i : ℕ} {t : Target} {ts : List Target}
  {new s : Str} {p : Pattern}

/-! ## Patterns -/

/-- A pattern without a match leaves a text as it is. -/
theorem Pattern.sub_eq (h : ¬p.Matches s) : p.sub new s = s := by
  have hother : ∀ segment ∈ p.segments s, segment.subst new = segment.text := by
    intro segment hmem
    cases segment with
    | other text => rfl
    | found text first third => exact (h ⟨text, first, third, hmem⟩).elim
  calc p.sub new s = (p.segments s).flatMap Segment.text := List.flatMap_congr hother
    _ = s := p.covers s

/-- A pattern with a match writes the new version. -/
theorem Pattern.infix_sub (h : p.Matches s) : new <:+: p.sub new s := by
  obtain ⟨text, first, third, hmem⟩ := h
  have hpart : new <:+: Segment.subst new (.found text first third) :=
    ⟨first, third, rfl⟩
  obtain ⟨before, after, hsplit⟩ := List.append_of_mem hmem
  refine hpart.trans ?_
  rw [Pattern.sub, hsplit, List.flatMap_append, List.flatMap_cons]
  exact ⟨_, _, by rw [List.append_assoc]⟩

/-- A substitution puts the new text in where the pattern matches. -/
theorem Pattern.infix_sub_iff (h : '\r' ∉ s) :
    new <:+: p.sub new (readText s) ↔ p.Matches s ∨ new <:+: s := by
  rw [(readText_eq s).2 h]
  by_cases hmatch : p.Matches s
  · exact ⟨fun _ => .inl hmatch, fun _ => infix_sub hmatch⟩
  · rw [sub_eq hmatch]
    exact ⟨.inr, fun hor => hor.resolve_left hmatch⟩

/-! ## Paths -/

/-- Two targets with one backup are one file. -/
theorem path_eq_of_backup_eq {q r : PurePath} (hq : q.name ≠ []) (hr : r.name ≠ [])
    (h : backupPath q = backupPath r) : q = r := by
  -- A backup has the directory of its file, and the file's name with the suffix.
  have hparts : ∀ q : PurePath, q.name ≠ [] → q.parts = q.parts.dropLast ++ [q.name] := by
    intro q hq
    cases hlast : q.parts.getLast? with
    | none => exact (hq (by rw [PurePath.name, hlast]; rfl)).elim
    | some part =>
      rw [PurePath.name, hlast]
      exact (List.dropLast_append_getLast? part hlast).symm
  obtain ⟨hroot, hboth⟩ := PurePath.mk.inj h
  obtain ⟨hdrop, hname⟩ := List.append_inj' hboth rfl
  have hname' : q.name = r.name := List.append_cancel_right (List.singleton_inj.mp hname)
  have hsame : q.parts = r.parts := by rw [hparts q hq, hparts r hr, hdrop, hname']
  cases q
  cases r
  exact congrArg₂ PurePath.mk hroot hsame

/-- A backup lies beside its file, never in its place. -/
theorem backupPath_ne (q : PurePath) : backupPath q ≠ q := by
  intro h
  have hname : (backupPath q).name = q.name ++ ".bak".toList := by
    simp [backupPath, PurePath.name]
  rw [h] at hname
  have hlength := congrArg List.length hname
  rw [List.length_append, show ".bak".toList.length = 4 by decide] at hlength
  omega

/-! ## The loops -/

/-- A step without a fault does not fail. -/
theorem not_isSome {step : Step} (h : faults step = none) : ¬(faults step).isSome = true := by
  rw [h]
  decide

/-- A write without a fault puts the text in its place. -/
theorem write_ok {step : Step} {path : PurePath} {text : Str} (h : faults step = none) :
    write faults step path text d = (.ok (), Function.update d path (some ⟨text, true⟩)) := by
  rw [write, h]

/-- The targets are there, their backups are not, and none has a carriage return. -/
def Apart (tree : Tree) (ts : List Target) : Prop :=
  ∀ t ∈ ts, t.path.name ≠ [] ∧ tree t.backup = none ∧ ∃ text, tree t.path = some text ∧ '\r' ∉ text

/-- Each backup has the text of its target. -/
def BackedUp (tree : Tree) (ts : List Target) (d : Disk) : Prop :=
  ∀ t ∈ ts, ∃ text, tree t.path = some text ∧ d t.backup = some ⟨text, true⟩

/-- No target lies where another is backed up. -/
theorem Apart.backup_ne (h : Apart tree ts) {t' : Target} (ht : t ∈ ts) (ht' : t' ∈ ts) :
    t.backup ≠ t'.path := by
  intro heq
  obtain ⟨-, -, text, htext, -⟩ := h t' ht'
  rw [← heq, (h t ht).2.1] at htext
  cases htext

/-- Targets that are apart stay apart without the first. -/
theorem Apart.tail (h : Apart tree (t :: ts)) : Apart tree ts := fun t' ht' =>
  h t' (List.mem_cons_of_mem t ht')

/-- The backups are made. -/
theorem backUp_spec (h : Apart tree ts) (hd : ∀ t ∈ ts, d.texts t.path = tree t.path)
    (hread : ∀ j < ts.length, faults (.backupRead (i + j)) = none)
    (hwrite : ∀ j, faults (.backupWrite j) = none) :
    ∃ d', backUp faults i ts d = (.ok (), d') ∧ BackedUp tree ts d' ∧
      ∀ q, (∀ t ∈ ts, t.backup ≠ q) → d' q = d q := by
  -- Induction on the targets: no later target lies where this one is backed up.
  induction ts generalizing i d with
  | nil => exact ⟨d, rfl, by simp [BackedUp], fun _ _ => rfl⟩
  | cons t ts ih =>
    obtain ⟨hname, -, text, htext, hreturn⟩ := h t List.mem_cons_self
    obtain ⟨file, hfile, rfl⟩ := Option.map_eq_some_iff.mp
      ((hd t List.mem_cons_self).trans htext)
    have hrest : ∀ t' ∈ ts, Disk.texts (Function.update d t.backup (some ⟨file.text, true⟩)) t'.path =
        tree t'.path := by
      intro t' ht'
      rw [Disk.texts, Function.update_of_ne
        (h.backup_ne List.mem_cons_self (List.mem_cons_of_mem t ht')).symm]
      exact hd t' (List.mem_cons_of_mem t ht')
    obtain ⟨d', hback, hbacked, hothers⟩ := ih (i := i + 1) h.tail hrest fun j hj => by
      have := hread (j + 1) (by rw [List.length_cons]; omega)
      rwa [show i + (j + 1) = i + 1 + j by omega] at this
    refine ⟨d', ?_, ?_, ?_⟩
    · have hfirst : faults (.backupRead i) = none := hread 0 (by rw [List.length_cons]; omega)
      simp only [backUp, hfile, if_neg hname, if_neg (not_isSome hfirst), write_ok (hwrite i),
        (readText_eq _).2 hreturn]
      exact hback
    -- The backup just made is not overwritten by a later one.
    · intro t' ht'
      obtain rfl | ht' := List.mem_cons.mp ht'
      · by_cases hagain : ∀ t'' ∈ ts, t''.backup ≠ t'.backup
        · exact ⟨file.text, htext, by rw [hothers _ hagain, Function.update_self]⟩
        · -- a target that is listed again has been copied again
          push Not at hagain
          obtain ⟨t'', ht'', heq⟩ := hagain
          obtain ⟨text, htext'', hbackup⟩ := hbacked t'' ht''
          have hpath := path_eq_of_backup_eq (h t'' (List.mem_cons_of_mem _ ht'')).1 hname heq
          exact ⟨text, by rw [← hpath, htext''], by rw [← heq, hbackup]⟩
      · exact hbacked t' ht'
    · intro q hq
      rw [hothers q fun t' ht' => hq t' (List.mem_cons_of_mem t ht'),
        Function.update_of_ne (hq t List.mem_cons_self).symm]

/-- The backups are removed, and nothing else. -/
theorem cleanUp_spec (h : ∀ j, faults (.cleanUp j) = none) (ts : List Target) (d : Disk) :
    ∃ d', cleanUp faults i ts d = (.ok (), d') ∧ (∀ t ∈ ts, d' t.backup = none) ∧
      ∀ q, (∀ t ∈ ts, t.backup ≠ q) → d' q = d q := by
  -- Induction on the targets, each with a backup of its own.
  induction ts generalizing i d with
  | nil => exact ⟨d, rfl, by simp, fun _ _ => rfl⟩
  | cons t ts ih =>
    obtain ⟨d', hclean, hnone, hothers⟩ := ih (Function.update d t.backup none) (i := i + 1)
    refine ⟨d', by rw [cleanUp, if_neg (not_isSome (h i)), hclean], ?_, ?_⟩
    · intro t' ht'
      obtain rfl | ht' := List.mem_cons.mp ht'
      · by_cases hagain : ∀ t'' ∈ ts, t''.backup ≠ t'.backup
        · rw [hothers _ hagain, Function.update_self]
        · push Not at hagain
          obtain ⟨t'', ht'', heq⟩ := hagain
          rw [← heq]
          exact hnone t'' ht''
      · exact hnone t' ht'
    · intro q hq
      rw [hothers q fun t' ht' => hq t' (List.mem_cons_of_mem t ht'),
        Function.update_of_ne (hq t List.mem_cons_self).symm]

/-- The way back comes to a target with this path. -/
def Reached (faults : Faults) : ℕ → List Target → PurePath → Prop
  | _, [], _ => False
  | i, t :: ts, q => faults (.restoreWrite i) = none ∧ (t.path = q ∨ Reached faults (i + 1) ts q)

/-- Only reads and writes of targets fail, and a target that cannot be written back could not be
written in the first place. -/
structure LoopFails (faults : Faults) : Prop where
  backupWrite : ∀ j, faults (.backupWrite j) = none
  restoreRead : ∀ j, faults (.restoreRead j) = none
  restoreWrite : ∀ j, faults (.restoreWrite j) = none ∨
    (faults (.restoreWrite j) = some .refused ∧ faults (.write j) = some .refused)
  cleanUp : ∀ j, faults (.cleanUp j) = none
  rename : faults .rename = none
  source : faults .source = none

/-- One failing step fails inside the loop. -/
theorem OneFails.loopFails (h : OneFails faults) : LoopFails faults := by
  -- No step of the clean-up is the one that fails.
  cases h with
  | nothing => exact ⟨fun _ => rfl, fun _ => rfl, fun _ => .inl rfl, fun _ => rfl, rfl, rfl⟩
  | @once step hstep e =>
    have hne : ∀ s : Step, ¬s.OfTarget → (if s = step then some e else none) = none := by
      intro s hs
      rw [if_neg]
      rintro rfl
      exact hs hstep
    exact ⟨fun _ => hne _ id, fun _ => hne _ id, fun _ => .inl (hne _ id), fun _ => hne _ id,
      hne _ id, hne _ id⟩
  | unwritable i =>
    refine ⟨fun _ => by simp, fun _ => by simp, fun j => ?_, fun _ => by simp, by simp, by simp⟩
    by_cases hj : j = i
    · exact .inr (by simp [hj])
    · exact .inl (by simp [hj])

/-- What the loop has changed is a target that the way back comes to. -/
theorem updateAll_changed (h : LoopFails faults) (new : Str) (ts : List Target) (d : Disk)
    (q : PurePath) :
    (updateAll faults new i ts d).2 q = d q ∨ Reached faults i ts q := by
  -- Induction on the targets: the loop stops at the first one that fails.
  induction ts generalizing i d with
  | nil => exact .inl rfl
  | cons t ts ih =>
    rw [updateAll]
    cases hfile : d t.path with
    | none => exact .inl rfl
    | some file =>
      dsimp only
      by_cases hread : (faults (.read i)).isSome
      · rw [if_pos hread]
        exact .inl rfl
      · rw [if_neg hread]
        obtain hrestore | ⟨-, hwrite⟩ := h.restoreWrite i
        · by_cases hq : t.path = q
          · exact .inr ⟨hrestore, .inl hq⟩
          · -- the write of this target leaves the file as it is
            unfold write
            cases faults (.write i) with
            | none =>
              obtain hsame | hreached := ih (i := i + 1)
                (Function.update d t.path (some ⟨t.pattern.sub new (readText file.text), true⟩))
              · exact .inl (hsame.trans (Function.update_of_ne (Ne.symm hq) _ _))
              · exact .inr ⟨hrestore, .inr hreached⟩
            | some e =>
              cases e with
              | refused => exact .inl rfl
              | cut k => exact .inl (Function.update_of_ne (Ne.symm hq) _ _)
        · rw [write, hwrite]
          exact .inl rfl

/-- The way back gives each target that it comes to its text, and changes nothing else. -/
theorem rollBack_spec (h : LoopFails faults) (hbacked : BackedUp tree ts d) (hapart : Apart tree ts)
    (q : PurePath) : (rollBack faults i ts d).2.texts q = tree q ∨
      ((rollBack faults i ts d).2 q = d q ∧ ¬Reached faults i ts q) := by
  -- Induction on the targets, in the order the loop went.
  induction ts generalizing i d with
  | nil => exact .inr ⟨rfl, id⟩
  | cons t ts ih =>
    obtain ⟨text, htext, hbackup⟩ := hbacked t List.mem_cons_self
    obtain ⟨-, -, text', htext', hreturn⟩ := hapart t List.mem_cons_self
    obtain rfl : text = text' := Option.some.inj (htext.symm.trans htext')
    simp only [rollBack, hbackup, if_neg (not_isSome (h.restoreRead i)), (readText_eq _).2 hreturn]
    -- The write of the way back succeeds, or it is the one step that fails.
    obtain hrestore | ⟨hrefused, -⟩ := h.restoreWrite i
    · have hbacked' : BackedUp tree ts (Function.update d t.path (some ⟨text, true⟩)) := by
        intro t' ht'
        obtain ⟨text', htext', hbackup'⟩ := hbacked t' (List.mem_cons_of_mem t ht')
        refine ⟨text', htext', ?_⟩
        rwa [Function.update_of_ne (hapart.backup_ne (List.mem_cons_of_mem t ht') List.mem_cons_self)]
      simp only [write_ok hrestore]
      obtain hdone | ⟨hsame, hnot⟩ := ih (i := i + 1) hbacked' hapart.tail
      · exact .inl hdone
      · by_cases hq : t.path = q
        · subst hq
          left
          rw [htext]
          change Option.map File.text _ = _
          rw [hsame, Function.update_self]
          rfl
        · refine .inr ⟨hsame.trans (Function.update_of_ne (Ne.symm hq) _ _), ?_⟩
          rintro ⟨-, hpath | hreached⟩
          · exact hq hpath
          · exact hnot hreached
    · right
      simp only [write, hrefused]
      refine ⟨trivial, fun hreached => ?_⟩
      have hnone := hreached.1
      rw [hrefused] at hnone
      cases hnone

/-- A path that is reached is a target's. -/
theorem exists_of_reached {q : PurePath} (h : Reached faults i ts q) : ∃ t ∈ ts, t.path = q := by
  induction ts generalizing i with
  | nil => exact h.elim
  | cons t ts ih =>
    obtain ⟨-, hpath | hrest⟩ := h
    · exact ⟨t, List.mem_cons_self, hpath⟩
    · obtain ⟨t', ht', hpath⟩ := ih hrest
      exact ⟨t', List.mem_cons_of_mem t ht', hpath⟩

/-- What a loop that fails has changed has its text again. -/
theorem attempt_spec (h : LoopFails faults) (hbacked : BackedUp tree ts d) (hapart : Apart tree ts)
    {e : SyncError} (hfails : (attempt faults new ts d).1 = .error e) (q : PurePath) :
    (attempt faults new ts d).2.texts q = tree q ∨ (attempt faults new ts d).2 q = d q := by
  have hchanged := updateAll_changed (i := 0) h new ts d
  -- The loop touches no backup, so the way back finds them all.
  have hback : BackedUp tree ts (updateAll faults new 0 ts d).2 := by
    intro t ht
    obtain ⟨text, htext, hbackup⟩ := hbacked t ht
    obtain hsame | hreached := hchanged t.backup
    · exact ⟨text, htext, hsame.trans hbackup⟩
    · obtain ⟨t', ht', hpath⟩ := exists_of_reached hreached
      exact (hapart.backup_ne ht ht' hpath.symm).elim
  unfold attempt at hfails ⊢
  cases hupdate : updateAll faults new 0 ts d with
  | mk result d' =>
    rw [hupdate] at hchanged hback hfails
    cases result with
    | ok u => cases hfails
    | error e' =>
      have hend : ∀ r : Ending Unit, (match r with
          | (.ok (), d) => (.error e', d)
          | (.error e', d) => (.error e', d) : Ending Unit).2 = r.2 := by
        rintro ⟨_ | _, d⟩ <;> rfl
      dsimp only
      rw [hend]
      obtain hdone | ⟨hsame, hnot⟩ := rollBack_spec (i := 0) h hback hapart q
      · exact .inl hdone
      · exact .inr (hsame.trans ((hchanged q).resolve_right hnot))

/-- A sync that returns has got through its loop. -/
theorem updateAll_of_attempt (h : (attempt faults new ts d).1 = .ok ()) :
    updateAll faults new 0 ts d = (.ok (), (attempt faults new ts d).2) := by
  unfold attempt at h ⊢
  cases hupdate : updateAll faults new 0 ts d with
  | mk result d' =>
    rw [hupdate] at h
    cases result with
    | ok u => rfl
    | error e =>
      dsimp only at h
      split at h <;> cases h

/-- The texts of the disk of a tree are the tree's. -/
theorem Disk.texts_of (tree : Tree) : (Disk.of tree).texts = tree := by
  funext q
  cases hq : tree q <;> simp [Disk.texts, Disk.of, hq]

/-- The targets are backed up, and nothing else has changed. -/
theorem backUp_of (hapart : Apart tree ts) (hread : ∀ j < ts.length, faults (.backupRead j) = none)
    (hwrite : ∀ j, faults (.backupWrite j) = none) :
    ∃ d, backUp faults 0 ts (Disk.of tree) = (.ok (), d) ∧ BackedUp tree ts d ∧
      ∀ q, (∀ t ∈ ts, t.backup ≠ q) → d q = Disk.of tree q := by
  refine backUp_spec hapart (fun t ht => by rw [Disk.texts_of]) (fun j hj => ?_) hwrite
  rw [Nat.zero_add]
  exact hread j hj

/-- A loop that fails leaves all files as they were. -/
theorem sync_restores (h : LoopFails faults) (new : Str) (hapart : Apart tree ts) {e : SyncError}
    (hread : ∀ j < ts.length, faults (.backupRead j) = none)
    (hfails : (syncVersionToTargets faults new ts (Disk.of tree)).1 = .error e) :
    (syncVersionToTargets faults new ts (Disk.of tree)).2.texts = tree := by
  obtain ⟨d, hback, hbacked, hothers⟩ := backUp_of hapart hread h.backupWrite
  obtain ⟨d', hclean, hnone, hkept⟩ := cleanUp_spec (i := 0) h.cleanUp ts
    (attempt faults new ts d).2
  simp only [syncVersionToTargets, hback, hclean] at hfails ⊢
  funext q
  -- A file that is no backup is as it was, and a backup is gone.
  by_cases hq : ∀ t ∈ ts, t.backup ≠ q
  · have hsame : d'.texts q = (attempt faults new ts d).2.texts q := congrArg (Option.map _) (hkept q hq)
    rw [hsame]
    obtain hdone | hsame := attempt_spec h hbacked hapart hfails q
    · exact hdone
    · calc (attempt faults new ts d).2.texts q = (Disk.of tree).texts q :=
            congrArg (Option.map File.text) (hsame.trans (hothers q hq))
        _ = tree q := by rw [Disk.texts_of]
  · push Not at hq
    obtain ⟨t, ht, rfl⟩ := hq
    change Option.map File.text _ = _
    rw [hnone t ht, (hapart t ht).2.1]
    rfl

/-! ## The bump -/

/-- A bumped file holds the new version. -/
theorem infix_bumped {part : BumpPart} {file : Str} (h : nextVersion part file = some new) :
    new <:+: substVersion new 0 true (readText file) := by
  obtain ⟨current, hcurrent, hrest⟩ := Option.bind_eq_some_iff.mp h
  obtain ⟨v, -, hnew⟩ := Option.bind_eq_some_iff.mp hrest
  obtain ⟨before, rest, hfirst⟩ := firstVersion_of_search hcurrent
  obtain ⟨rest', hsubst, -⟩ := substVersion_first (parseSemver_semverText hnew).2.1 hfirst
  exact ⟨before, '"' :: rest', hsubst.symm⟩

/-- A file that is put down has its text. -/
theorem Disk.texts_update {q : PurePath} {f : File} :
    Disk.texts (Function.update d q (some f)) q = some f.text := by
  rw [Disk.texts, Function.update_self]
  rfl

/-- A file that is put down leaves the other texts. -/
theorem Disk.texts_update_of_ne {q r : PurePath} {f : Option File} (h : q ≠ r) :
    Disk.texts (Function.update d r f) q = d.texts q := by
  rw [Disk.texts, Disk.texts, Function.update_of_ne h]

/-- The disk of a tree holds what the tree holds. -/
theorem Disk.of_some {q : PurePath} {text : Str} (h : tree q = some text) :
    Disk.of tree q = some ⟨text, false⟩ := by
  rw [Disk.of, h]
  rfl

/-- The disk of a tree holds nothing else. -/
theorem Disk.of_none {q : PurePath} (h : tree q = none) : Disk.of tree q = none := by
  rw [Disk.of, h]
  rfl

/-- A sync that raises ends the bump. -/
theorem bump_of_error (h : LoopFails faults) {file : Str} (hsource : tree b.source = some file)
    (hnew : nextVersion b.part file = some new) {e : SyncError}
    (hsync : syncVersionToTargets faults new b.targets (Disk.of tree) = (.error e, d)) :
    bumpVersion faults b (Disk.of tree) = (.error e, d) := by
  simp only [bumpVersion, Disk.of_some hsource, hnew, if_neg (not_isSome h.source), hsync]

/-- A sync that returns lets the bump write its source. -/
theorem bump_of_ok (h : LoopFails faults) {file : Str} (hsource : tree b.source = some file)
    (hnew : nextVersion b.part file = some new)
    (hsync : syncVersionToTargets faults new b.targets (Disk.of tree) = (.ok (), d)) :
    bumpVersion faults b (Disk.of tree) = (.ok new,
      Function.update d b.source (some ⟨substVersion new 0 true (readText file), true⟩)) := by
  simp only [bumpVersion, Disk.of_some hsource, hnew, if_neg (not_isSome h.source), hsync,
    if_neg (not_isSome h.rename)]

/-- An error before the first write leaves the tree. -/
theorem atomic_of_error (e : SyncError) : Atomic tree b (.error e, Disk.of tree) where
  raised _ _ _ _ := congrFun (Disk.texts_of tree) _
  carried _ h := by cases h
  backups _ _ := rfl

/-- A target that the loop gets through has what the pattern writes. -/
theorem sync_single (h : LoopFails faults) (new : Str) (hapart : Apart tree [t])
    (hread : ∀ j < [t].length, faults (.backupRead j) = none)
    (hok : (syncVersionToTargets faults new [t] (Disk.of tree)).1 = .ok ()) {text : Str}
    (htext : tree t.path = some text) :
    (syncVersionToTargets faults new [t] (Disk.of tree)).2 t.path =
        some ⟨t.pattern.sub new (readText text), true⟩ ∧
      (syncVersionToTargets faults new [t] (Disk.of tree)).2 t.backup = none := by
  obtain ⟨d, hback, hbacked, hothers⟩ := backUp_of hapart hread h.backupWrite
  obtain ⟨d', hclean, hnone, hkept⟩ := cleanUp_spec (i := 0) h.cleanUp [t]
    (attempt faults new [t] d).2
  have hne : t.backup ≠ t.path := hapart.backup_ne (List.mem_singleton_self t) (List.mem_singleton_self t)
  -- The backup lies elsewhere, so the target is as it was.
  have hd : d t.path = some ⟨text, false⟩ := by
    rw [hothers _ (by simpa using hne), Disk.of, htext]
    rfl
  simp only [syncVersionToTargets, hback, hclean] at hok ⊢
  refine ⟨?_, hnone t (List.mem_singleton_self t)⟩
  rw [hkept _ (by simpa using hne)]
  -- A loop of one target is one write.
  have hupdate := updateAll_of_attempt hok
  simp only [updateAll, hd] at hupdate
  split at hupdate
  · cases hupdate
  · unfold write at hupdate
    cases hwrite : faults (.write 0) with
    | none =>
      simp only [hwrite, Prod.mk.injEq, true_and] at hupdate
      rw [← hupdate, Function.update_self]
    | some e =>
      cases e <;> simp only [hwrite] at hupdate <;> cases hupdate

/-- A target that cannot be backed up ends the sync before anything is written. -/
theorem sync_of_first {t : Target} (new : Str) (rest : List Target)
    (h : t.path.name = [] ∨ tree t.path = none ∨ (faults (.backupRead 0)).isSome) :
    ∃ e, syncVersionToTargets faults new (t :: rest) (Disk.of tree) = (.error e, Disk.of tree) := by
  cases htext : tree t.path with
  | none =>
    refine ⟨.targetNotFound t.path, ?_⟩
    simp only [syncVersionToTargets, backUp, Disk.of_none htext]
  | some text =>
    simp only [syncVersionToTargets, backUp, Disk.of_some htext]
    by_cases hname : t.path.name = []
    · exact ⟨.emptyName t.path, by simp only [if_pos hname]⟩
    · have hread : (faults (.backupRead 0)).isSome := by
        simpa [hname, htext] using h
      exact ⟨.failed (.backupRead 0), by simp only [if_neg hname, if_pos hread]⟩

/-- A bump with one target that is apart from its backup is atomic. -/
theorem atomic_of_single (h : LoopFails faults) {file : Str} (hsource : tree b.source = some file)
    (hnew : nextVersion b.part file = some new) (htargets : b.targets = [t])
    (hapart : Apart tree [t]) (hread : faults (.backupRead 0) = none) {text : Str}
    (htext : tree t.path = some text)
    (hcarries : t.pattern.Matches text ∨ new <:+: text ∨ t.path = b.source) :
    Atomic tree b (bumpVersion faults b (Disk.of tree)) := by
  obtain ⟨-, hbackup, text', htext', hreturn⟩ := hapart t (List.mem_singleton_self t)
  obtain rfl : text = text' := Option.some.inj (htext.symm.trans htext')
  -- With one target, the first read is the only one.
  have hreads : ∀ j < [t].length, faults (.backupRead j) = none := by
    intro j hj
    obtain rfl : j = 0 := by simpa using hj
    exact hread
  have hnone : Disk.of tree t.backup = none := Disk.of_none hbackup
  cases hsync : syncVersionToTargets faults new b.targets (Disk.of tree) with
  | mk result d =>
    rw [htargets] at hsync
    have hd : (syncVersionToTargets faults new [t] (Disk.of tree)).2 = d := by rw [hsync]
    -- Either the loop was undone, or it was got through.
    cases result with
    | error e =>
      rw [bump_of_error h hsource hnew (by rw [htargets, hsync])]
      have htexts := sync_restores h new hapart hreads (e := e) (by rw [hsync])
      rw [hd] at htexts
      refine ⟨fun _ _ q _ => congrFun htexts q, fun _ hok => (by cases hok), fun t' ht' => ?_⟩
      rw [htargets, List.mem_singleton] at ht'
      rw [ht', hnone, ← Option.map_eq_none_iff (f := File.text)]
      exact (congrFun htexts t.backup).trans hbackup
    | ok u =>
      rw [bump_of_ok h hsource hnew (by rw [htargets, hsync])]
      obtain ⟨hpath, hgone⟩ := sync_single h new hapart hreads (by rw [hsync]) htext
      rw [hd] at hpath hgone
      refine ⟨fun _ herror => (by cases herror), fun new' hok q hq => ?_, fun t' ht' => ?_⟩
      · obtain rfl := Except.ok.inj hok
        by_cases hq' : q = b.source
        · subst hq'
          exact ⟨_, Disk.texts_update, infix_bumped hnew⟩
        · obtain rfl : q = t.path := by simpa [htargets, hq'] using hq
          refine ⟨_, (Disk.texts_update_of_ne hq').trans (congrArg (Option.map File.text) hpath), ?_⟩
          exact (Pattern.infix_sub_iff hreturn).mpr
            (hcarries.imp_right fun hor => hor.resolve_right hq')
      · rw [htargets, List.mem_singleton] at ht'
        have hne : t.backup ≠ b.source := by
          intro heq
          rw [heq, hsource] at hbackup
          cases hbackup
        rw [ht', hnone]
        exact (Function.update_of_ne hne ..).trans hgone

/-- A bump with one target, or none, is atomic. -/
theorem bumpAtomic_of_oneTarget (h : OneTarget tree b) : BumpAtomic tree b := by
  intro faults hfaults
  have hloop := hfaults.loopFails
  -- Before the first backup there is nothing to undo.
  cases hsource : tree b.source with
  | none =>
    rw [bumpVersion, Disk.of_none hsource]
    exact atomic_of_error _
  | some file =>
    cases hnew : nextVersion b.part file with
    | none =>
      simp only [bumpVersion, Disk.of_some hsource, hnew]
      exact atomic_of_error _
    | some new =>
      cases htargets : b.targets with
      | nil =>
        rw [bump_of_ok hloop hsource hnew (d := Disk.of tree) (by rw [htargets]; rfl)]
        refine ⟨fun _ herror => (by cases herror), fun new' hok q hq => ?_, by simp [htargets]⟩
        obtain rfl := Except.ok.inj hok
        obtain rfl : q = b.source := by simpa [htargets] using hq
        exact ⟨_, Disk.texts_update, infix_bumped hnew⟩
      | cons t rest =>
        by_cases hfirst : t.path.name = [] ∨ tree t.path = none ∨ (faults (.backupRead 0)).isSome
        · obtain ⟨e, hsync⟩ := sync_of_first new rest hfirst
          rw [bump_of_error hloop hsource hnew (by rw [htargets, hsync])]
          exact atomic_of_error e
        · simp only [not_or, Bool.not_eq_true, Option.isSome_eq_false_iff, Option.isNone_iff_eq_none]
            at hfirst
          obtain ⟨hname, htext, hread⟩ := hfirst
          obtain ⟨text, htext⟩ := Option.ne_none_iff_exists'.mp htext
          obtain ⟨rfl, hbackup, hreturn, hcarries⟩ :=
            h file new hsource hnew t rest htargets hname text htext
          have hapart : Apart tree [t] := by
            intro t' ht'
            rw [List.mem_singleton.mp ht']
            exact ⟨hname, hbackup, text, htext, hreturn⟩
          exact atomic_of_single hloop hsource hnew htargets hapart hread htext hcarries

/-! ## The failing bumps -/

/-- The first backup is made. -/
theorem backUp_first (hname : t.path.name ≠ []) {text : Str} (htext : tree t.path = some text)
    (hread : faults (.backupRead 0) = none) (hwrite : faults (.backupWrite 0) = none)
    (rest : List Target) : backUp faults 0 (t :: rest) (Disk.of tree) =
      backUp faults 1 rest (Function.update (Disk.of tree) t.backup (some ⟨readText text, true⟩)) := by
  simp only [backUp, Disk.of_some htext, if_neg hname, if_neg (not_isSome hread), write_ok hwrite]

/-- A file of this run is none that was there. -/
theorem Disk.of_ne {q : PurePath} {text : Str} : Disk.of tree q ≠ some ⟨text, true⟩ := by
  intro h
  obtain ⟨text', -, heq⟩ := Option.map_eq_some_iff.mp h
  cases congrArg File.ours heq

/-- The failure to read a second target leaves the backup of the first one. -/
theorem rest_eq_nil (h : BumpAtomic tree b) {file text : Str} {rest : List Target}
    (hsource : tree b.source = some file) (hnew : nextVersion b.part file = some new)
    (htargets : b.targets = t :: rest) (hname : t.path.name ≠ []) (htext : tree t.path = some text) :
    rest = [] := by
  cases rest with
  | nil => rfl
  | cons t' rest =>
    -- With a second target, the fault that is its read leaves a backup behind.
    exfalso
    have hfaults : OneFails fun s => if s = .backupRead 1 then some .refused else none :=
      .once (show Step.OfTarget (.backupRead 1) from trivial) .refused
    have hatomic := h _ hfaults
    have hsecond : ∀ d : Disk, ∃ e, backUp (fun s => if s = .backupRead 1 then some .refused else none)
        1 (t' :: rest) d = (.error e, d) := by
      intro d
      cases hfile : d t'.path with
      | none => exact ⟨.targetNotFound t'.path, by simp only [backUp, hfile]⟩
      | some file =>
        by_cases hname' : t'.path.name = []
        · exact ⟨.emptyName t'.path, by simp only [backUp, hfile, if_pos hname']⟩
        · refine ⟨.failed (.backupRead 1), ?_⟩
          simp only [backUp, hfile, if_neg hname']
          rfl
    obtain ⟨e, hback⟩ := hsecond (Function.update (Disk.of tree) t.backup (some ⟨readText text, true⟩))
    rw [← backUp_first hname htext (by simp) (by simp)] at hback
    rw [bump_of_error hfaults.loopFails hsource hnew
      (by rw [htargets, syncVersionToTargets, hback])] at hatomic
    -- Atomicity says that the backup of the first target is gone.
    have hbackup := hatomic.backups t (by rw [htargets]; exact List.mem_cons_self)
    dsimp only at hbackup
    rw [Function.update_self] at hbackup
    exact Disk.of_ne hbackup.symm

/-- What a sync with one target leaves when nothing fails. -/
theorem sync_nothing (hname : t.path.name ≠ []) {text : Str} (htext : tree t.path = some text) :
    syncVersionToTargets (fun _ => none) new [t] (Disk.of tree) = (.ok (),
      Function.update (Function.update (Function.update (Disk.of tree) t.backup
        (some ⟨readText text, true⟩)) t.path (some ⟨t.pattern.sub new (readText text), true⟩))
        t.backup none) := by
  have hpath : Function.update (Disk.of tree) t.backup (some ⟨readText text, true⟩) t.path =
      some ⟨text, false⟩ := by
    rw [Function.update_of_ne (show t.path ≠ t.backup from (backupPath_ne t.path).symm),
      Disk.of_some htext]
  rw [syncVersionToTargets, backUp_first hname htext rfl rfl]
  simp only [backUp, attempt, updateAll, hpath]
  rfl

/-- What it leaves when the target cannot be read again. -/
theorem sync_unread (hname : t.path.name ≠ []) {text : Str} (htext : tree t.path = some text) :
    syncVersionToTargets (fun s => if s = .read 0 then some .refused else none) new [t]
      (Disk.of tree) = (.error (.failed (.read 0)),
        Function.update (Function.update (Function.update (Disk.of tree) t.backup
          (some ⟨readText text, true⟩)) t.path (some ⟨readText (readText text), true⟩))
          t.backup none) := by
  have hpath : Function.update (Disk.of tree) t.backup (some ⟨readText text, true⟩) t.path =
      some ⟨text, false⟩ := by
    rw [Function.update_of_ne (show t.path ≠ t.backup from (backupPath_ne t.path).symm),
      Disk.of_some htext]
  rw [syncVersionToTargets, backUp_first hname htext (by simp) (by simp)]
  simp only [backUp, attempt, updateAll, hpath, rollBack, Function.update_self, cleanUp, write,
    if_true, Option.isSome_some, reduceCtorEq, if_false, Option.isSome_none, Bool.false_eq_true]

/-- An atomic bump has one target, or none. -/
theorem BumpAtomic.oneTarget (h : BumpAtomic tree b) : OneTarget tree b := by
  intro file new hsource hnew t rest htargets hname text htext
  obtain rfl := rest_eq_nil h hsource hnew htargets hname htext
  have hmem : t ∈ b.targets := by rw [htargets]; exact List.mem_singleton_self t
  have hpath : t.path ∈ b.source :: b.targets.map Target.path :=
    List.mem_cons_of_mem _ (List.mem_map_of_mem hmem)
  have hne : t.path ≠ t.backup := (backupPath_ne t.path).symm
  have hnothing := h _ .nothing
  rw [bump_of_ok OneFails.nothing.loopFails hsource hnew
    (by rw [htargets]; exact sync_nothing hname htext)] at hnothing
  -- the backup is gone, and was not there before
  have hbackup : tree t.backup = none := by
    have hgone := hnothing.backups t hmem
    dsimp only at hgone
    by_cases hsame : t.backup = b.source
    · rw [hsame, Function.update_self] at hgone
      exact (Disk.of_ne hgone.symm).elim
    · rw [Function.update_of_ne hsame, Function.update_self] at hgone
      exact Option.map_eq_none_iff.mp hgone.symm
  -- a failing read lets the backup be written back
  have hreturn : '\r' ∉ text := by
    have hfaults : OneFails fun s => if s = .read 0 then some .refused else none :=
      .once (show Step.OfTarget (.read 0) from trivial) .refused
    have hunread := h _ hfaults
    rw [bump_of_error hfaults.loopFails hsource hnew
      (by rw [htargets]; exact sync_unread hname htext)] at hunread
    have htexts := hunread.raised _ rfl t.path hpath
    rw [Disk.texts_update_of_ne hne, Disk.texts_update, htext] at htexts
    rw [← Option.some.inj htexts]
    exact (readText_eq _).1
  refine ⟨rfl, hbackup, hreturn, ?_⟩
  by_cases hsame : t.path = b.source
  · exact .inr (.inr hsame)
  · obtain ⟨written, hwritten, hcarries⟩ := hnothing.carried new rfl t.path hpath
    rw [Disk.texts_update_of_ne hsame, Disk.texts_update_of_ne hne, Disk.texts_update] at hwritten
    obtain rfl := Option.some.inj hwritten
    obtain hmatch | hinfix := (Pattern.infix_sub_iff hreturn).mp hcarries
    · exact .inl hmatch
    · exact .inr (.inl hinfix)

/-- A bump is atomic exactly when it does not come to its targets, or has one target alone, with no
file in the way of its backup, no carriage return, and a match or the new version. -/
theorem bumpAtomic_iff (tree : Tree) (b : Bump) : BumpAtomic tree b ↔ OneTarget tree b :=
  ⟨BumpAtomic.oneTarget, bumpAtomic_of_oneTarget⟩

/-- A missing second target leaves the backup of the first one. -/
theorem missingTarget_leavesBackup : ¬BumpAtomic
    (fun p => if p ∈ [PurePath.of "pyproject.toml".toList, .of "package.toml".toList] then
      some "version = \"1.2.3\"\n".toList else none)
    ⟨.of "pyproject.toml".toList, .patch,
      [⟨.of "package.toml".toList, versionLine⟩, ⟨.of "app.toml".toList, versionLine⟩]⟩ := by
  intro h
  have hbackup := (h _ .nothing).backups _ List.mem_cons_self
  revert hbackup
  decide

end Fraisier.Ship.Sync
