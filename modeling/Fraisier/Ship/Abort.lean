import Mathlib.Logic.Function.Basic
import Fraisier.Ship.Version

/-!
# A ship that loses the race

`_ship_with_pipeline` of `cli/version.py` applies the version bump once the checks have passed,
stages it, and aborts when the version of `origin` has moved meanwhile. The bump writes the
configured `pyproject.toml` and lets `uv` write `uv.lock`; the abort takes it back with
`git checkout HEAD -- pyproject.toml`. `aborted_iff` says when the files are as they were.
-/

namespace Fraisier.Ship

open Fraisier.Lib Str

/-! ## The working tree -/

/-- The files by their paths, as the system resolves them. -/
abbrev Tree := PurePath → Option Str

/-- How `git fetch` of the race's branch ends. -/
inductive Fetch
  | fetched
  /-- `couldn't find remote ref`, or `no such ref`. -/
  | missingRef
  | failed
  deriving DecidableEq, Repr

/-- What a ship meets from its bump on. -/
structure ShipEnv where
  /-- The working directory. -/
  cwd : PurePath
  /-- `--pyproject`, resolved. -/
  pyproject : PurePath
  part : BumpPart
  /-- The version that `ship` read at its start. -/
  expectedBase : Str
  /-- `uv` is on the `PATH`. -/
  uv : Bool
  /-- What `uv lock` leaves in the lock file that it finds in a tree. -/
  uvLock : Tree → Option Str
  /-- `git add --update` exits with 0. -/
  added : Bool
  /-- `_current_branch()` finds a branch. -/
  branch : Bool
  fetch : Fetch
  /-- The `pyproject.toml` of `origin`, if `git show` finds one. -/
  origin : Option Str
  /-- What a checkout of `pyproject.toml` from `HEAD` writes, if it is there. -/
  head : Option Str
  /-- `git checkout` does not fail otherwise. -/
  checkout : Bool

/-- `refresh_uv_lock(pyproject_path.parent)`: the lock file. -/
def ShipEnv.lockPath (env : ShipEnv) : PurePath := env.pyproject.parent.join "uv.lock".toList

/-- What the abort checks out. -/
def ShipEnv.restored (env : ShipEnv) : PurePath := env.cwd.join "pyproject.toml".toList

/-! ## The bump and the abort -/

/-- `bump_version(pyproject_path, bump_type)`, which writes a temporary file and renames it. -/
def bumpVersion (env : ShipEnv) (tree : Tree) : Option Tree := do
  let new ← bumpedText env.part (← tree env.pyproject)
  some (Function.update tree env.pyproject (some new))

/-- `uv lock` is run. -/
def ShipEnv.locks (env : ShipEnv) (tree : Tree) : Bool := (tree env.lockPath).isSome && env.uv

/-- `refresh_uv_lock`. It never raises. -/
def refreshUvLock (env : ShipEnv) (tree : Tree) : Tree :=
  if env.locks tree then Function.update tree env.lockPath (env.uvLock tree) else tree

/-- `_apply_bump` of `ship`. -/
def applyBump (env : ShipEnv) (tree : Tree) : Option Tree :=
  (bumpVersion env tree).map (refreshUvLock env)

/-- `_read_pyproject_version_at_ref` of a file: the first line that matches. -/
def versionAtRef (file : Str) : Option Str :=
  (splitlines (readText file)).findSome? fun line => (versionAt line).map (·.2)

/-- `_assert_no_version_race` aborts. -/
def ShipEnv.races (env : ShipEnv) : Bool :=
  env.branch && env.fetch = .fetched &&
    match env.origin.bind versionAtRef with
    | none => false
    | some version => version ≠ env.expectedBase

/-- `git checkout HEAD -- pyproject.toml`. -/
def restorePyproject (env : ShipEnv) (tree : Tree) : Tree :=
  match env.head with
  | some content =>
    if env.checkout then Function.update tree env.restored (some content) else tree
  | none => tree

/-- How `_ship_with_pipeline` goes on when its checks have passed. -/
inductive ShipEnd
  /-- The bump or `git add` raised. -/
  | raised
  /-- `Version race detected.` -/
  | aborted
  /-- The release is committed and pushed. -/
  | commits
  deriving DecidableEq, Repr

/-- `_ship_with_pipeline` from the bump to the race check, with the files it leaves. -/
def shipBump (env : ShipEnv) (tree : Tree) : ShipEnd × Tree :=
  match applyBump env tree with
  | none => (.raised, tree)
  | some bumped =>
    if !env.added then (.raised, bumped)
    else if env.races then (.aborted, restorePyproject env bumped)
    else (.commits, bumped)

/-! ## What the abort leaves -/

/-- What the abort needs, where the bump has left this tree to `uv lock`. -/
structure Undoes (env : ShipEnv) (tree bumped : Tree) : Prop where
  /-- `uv lock` leaves its file as it was. -/
  lock : env.locks bumped = true → env.uvLock bumped = tree env.lockPath
  /-- The file that the bump wrote is checked out, or is the lock file, which `uv lock` wrote over. -/
  bump : env.pyproject = env.lockPath ∧ env.locks bumped = true ∨
    env.pyproject = env.restored ∧ env.head.isSome = true ∧ env.checkout = true
  /-- What is checked out is what was in the tree. -/
  head : ∀ content, env.head = some content → env.checkout = true →
    tree env.restored = some content

variable {env : ShipEnv} {tree bumped final : Tree}

/-- The lock file is not the one that is restored. -/
theorem ShipEnv.lockPath_ne_restored (env : ShipEnv) : env.lockPath ≠ env.restored := by
  intro h
  have hlock : env.lockPath.parts = env.pyproject.parent.parts ++ ["uv.lock".toList] := rfl
  have hrestored : env.restored.parts = env.cwd.parts ++ ["pyproject.toml".toList] := rfl
  have hlast := congrArg List.getLast? (hlock.symm.trans ((congrArg PurePath.parts h).trans hrestored))
  simp at hlast

/-- Refreshing the lock changes the lock file only. -/
theorem refreshUvLock_apply (env : ShipEnv) (tree : Tree) (path : PurePath) :
    refreshUvLock env tree path =
      if path = env.lockPath ∧ env.locks tree = true then env.uvLock tree else tree path := by
  unfold refreshUvLock
  cases env.locks tree with
  | true => simp only [if_true, and_true, Function.update_apply]
  | false => simp only [Bool.false_eq_true, and_false, if_false]

/-- Restoring changes the project file only. -/
theorem restorePyproject_apply (env : ShipEnv) (tree : Tree) (path : PurePath) :
    restorePyproject env tree path =
      if path = env.restored ∧ env.head.isSome = true ∧ env.checkout = true then env.head
      else tree path := by
  unfold restorePyproject
  cases env.head with
  | none => simp only [Option.isSome_none, Bool.false_eq_true, false_and, and_false, if_false]
  | some content =>
    cases env.checkout with
    | true => simp only [Option.isSome_some, if_true, and_true, Function.update_apply]
    | false => simp only [Bool.false_eq_true, and_false, if_false]

/-- The bump changes its file, and no other. -/
theorem bumpVersion_spec (h : bumpVersion env tree = some bumped) :
    bumped env.pyproject ≠ tree env.pyproject ∧ ∀ path ≠ env.pyproject, bumped path = tree path := by
  obtain ⟨file, hfile, h⟩ := Option.bind_eq_some_iff.mp h
  obtain ⟨new, hnew, h⟩ := Option.bind_eq_some_iff.mp h
  obtain rfl := Option.some.inj h
  refine ⟨fun heq => ?_, fun path hpath => Function.update_of_ne hpath _ _⟩
  rw [Function.update_self, hfile] at heq
  exact bumpedText_ne hnew (Option.some.inj heq)

/-- A ship that aborts has applied the bump and restored `pyproject.toml`. -/
theorem shipBump_aborted (h : shipBump env tree = (.aborted, final)) :
    ∃ bumped, bumpVersion env tree = some bumped ∧
      final = restorePyproject env (refreshUvLock env bumped) := by
  unfold shipBump applyBump at h
  -- A bump that fails is not gone on with.
  cases hbump : bumpVersion env tree with
  | none =>
    rw [hbump] at h
    cases (Prod.mk.inj h).1
  | some bumped =>
    rw [hbump] at h
    dsimp only [Option.map_some] at h
    split at h
    · cases (Prod.mk.inj h).1
    · split at h
      · exact ⟨bumped, rfl, (Prod.mk.inj h).2.symm⟩
      · cases (Prod.mk.inj h).1

/-- A project file with a line that is not committed yet, when there is one. -/
def projectFile (version edit : String) : Str :=
  ("[project]\nversion = \"" ++ version ++ "\"\n" ++ edit).toList

/-- A project in a directory, shipped by a patch release when `origin` has released another one. -/
def raceEnv : ShipEnv where
  cwd := .of "/src/app".toList
  pyproject := .of "/src/app/pyproject.toml".toList
  part := .patch
  expectedBase := "1.2.3".toList
  uv := true
  uvLock _ := some "version 1.2.4".toList
  added := true
  branch := true
  fetch := .fetched
  origin := some (projectFile "1.2.4" "")
  head := some (projectFile "1.2.3" "")
  checkout := true

/-- Its files. -/
def raceTree (edit : String) (lock : Option String) : Tree := fun path =>
  if path = .of "/src/app/pyproject.toml".toList then some (projectFile "1.2.3" edit)
  else if path = .of "/src/app/core/pyproject.toml".toList then some (projectFile "1.2.3" edit)
  else if path = .of "/src/app/uv.lock".toList then lock.map String.toList
  else none

end Fraisier.Ship
