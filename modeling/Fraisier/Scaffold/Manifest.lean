import Mathlib.Data.Char
import Mathlib.Data.List.Lex
import Mathlib.Data.List.Sort
import Fraisier.Lib.Merge
import Fraisier.Scaffold.Naming

/-!
# The manifest of managed paths

`manifest.py`. `build_manifest` lists the directories that fraisier manages: some of its own, and
those of each environment, which are deduplicated by location. An environment that names a location
which is already there is added to the owners of the entry, and its deploy unit is not added to the
units that may write there. `losesNothing_iff` says for which configurations this loses nothing.
-/

namespace Fraisier.Scaffold.Manifest

open Fraisier.Lib Str

/-! ## Entries -/

/-- `ManagedPath`. -/
structure ManagedPath where
  path : PurePath
  owner : Str
  group : Str
  mode : ℕ := 0o755
  readWriteUnits : List Str
  createIfMissing : Bool := true
  reconcileOwnership : Bool := false
  /-- The owners, each a fraise and an environment. -/
  environments : List (Str × Str) := []
  deriving DecidableEq, Repr

/-- `str(managed.path)`, by which paths are deduplicated. -/
def ManagedPath.location (m : ManagedPath) : Str := m.path.text

/-- `PathManifest`. -/
structure PathManifest where
  globalPaths : List ManagedPath
  envPaths : List ManagedPath

namespace PathManifest

/-- `PathManifest.all_paths`. -/
def allPaths (manifest : PathManifest) : List ManagedPath := manifest.globalPaths ++ manifest.envPaths

/-- `PathManifest.paths_for_unit`. -/
def pathsForUnit (manifest : PathManifest) (unitStem : Str) : List ManagedPath :=
  manifest.allPaths.filter (unitStem ∈ ·.readWriteUnits)

end PathManifest

/-! ## The configuration -/

/-- An `install` section, as far as the manifest reads it. -/
inductive Install
  /-- There is none, or an empty one. -/
  | absent
  /-- It is no mapping. -/
  | other
  /-- A mapping with its `user`, which is empty when it is not set. -/
  | mapping (user : Str)
  deriving DecidableEq, Repr

/-- `a or b`. -/
def Install.orElse : Install → Install → Install
  | .absent, install => install
  | install, _ => install

/-- An environment. A path that is not set is empty. -/
structure Environment where
  naming : EnvConfig := {}
  gitRepo : Str := []
  appPath : Str := []
  install : Install := .absent

/-- A fraise, with its environments by their names. -/
structure Fraise where
  environments : List (Str × Environment)
  install : Install := .absent

/-- What of the configuration the manifest is built from. -/
structure Config where
  deployUser : Str
  projectName : Str
  configDir : Str
  fraises : List (Str × Fraise)

/-- `_RELOCATED_INSTALL_DIRS`. -/
def relocatedInstallDirs : List Str :=
  [".cache", ".cache/uv", ".local", ".local/share", ".local/state", ".cargo", ".npm"].map String.toList

def webhookUnit : Str := "fraisier-webhook".toList

/-- `app_path` and what else is recorded below it for an install user. -/
def installPaths (config : Config) (appPath : Str) (pair : Str × Str) (install : Install) :
    List ManagedPath :=
  match install with
  | .mapping user =>
    if user ≠ [] ∧ user ≠ config.deployUser then
      { path := (PurePath.of appPath).join ".venv".toList, owner := user, group := user
        readWriteUnits := [], reconcileOwnership := true, environments := [pair] } ::
      relocatedInstallDirs.map fun relative =>
        { path := (PurePath.of appPath).join relative, owner := user, group := user
          readWriteUnits := [], environments := [pair] }
    else []
  | _ => []

/-- What `build_manifest` records for an environment, in its order. -/
def environmentPaths (config : Config) (fraiseName : Str) (fraise : Fraise) (envName : Str)
    (env : Environment) : List ManagedPath :=
  let tree (path : Str) : ManagedPath :=
    { path := PurePath.of path, owner := config.deployUser, group := config.deployUser
      readWriteUnits := [socketStem env.naming envName fraiseName, webhookUnit]
      environments := [(fraiseName, envName)] }
  (if env.gitRepo ≠ [] then [tree env.gitRepo] else []) ++
    if env.appPath ≠ [] then tree env.appPath ::
      installPaths config env.appPath (fraiseName, envName) (env.install.orElse fraise.install)
    else []

/-- All that is recorded. -/
def recorded (config : Config) : List ManagedPath :=
  config.fraises.flatMap fun (fraiseName, fraise) =>
    fraise.environments.flatMap fun (envName, env) =>
      environmentPaths config fraiseName fraise envName env

/-- The entry of a location, with the owners of another one added. -/
def addOwners (prior managed : ManagedPath) : ManagedPath :=
  { prior with environments := (prior.environments ++ managed.environments).eraseDups }

/-- The stems of the deploy units, sorted. -/
def deploySocketStems (config : Config) : List Str :=
  (config.fraises.flatMap fun (fraiseName, fraise) => fraise.environments.map fun (envName, env) =>
    socketStem env.naming envName fraiseName).eraseDups.insertionSort (· ≤ ·)

/-- The paths of fraisier itself. -/
def globalPaths (config : Config) : List ManagedPath :=
  let shared := webhookUnit :: deploySocketStems config
  let own (path : Str) (units : List Str) (create : Bool) : ManagedPath :=
    { path := PurePath.of path, owner := config.deployUser, group := config.deployUser
      readWriteUnits := units, createIfMissing := create }
  let backups := "/var/backups/".toList ++ config.projectName
  let configDir := PurePath.of config.configDir
  [own "/opt/fraisier".toList shared true, own "/var/lib/fraisier".toList shared true,
    own backups ["backup".toList] true, own "/run/fraisier".toList shared false] ++
  if configDir.text ∈ ["/opt/fraisier".toList, "/var/lib/fraisier".toList, backups,
      "/run/fraisier".toList] then []
  else [own config.configDir (deploySocketStems config) true]

/-- `build_manifest`. -/
def buildManifest (config : Config) : PathManifest where
  globalPaths := globalPaths config
  envPaths := Merge.recordAll ManagedPath.location addOwners (recorded config)

/-! ## No tree is lost -/

/-- The trees of the environments: the fraise and the environment with its configuration, and a path
that it sets. -/
def trees (config : Config) : List ((Str × Str) × Environment × Str) :=
  config.fraises.flatMap fun (fraiseName, fraise) =>
    fraise.environments.flatMap fun (envName, env) =>
      ([env.gitRepo, env.appPath].filter (· ≠ [])).map fun path => ((fraiseName, envName), env, path)

/-- The unit that deploys an environment. -/
def deployUnit (pair : Str × Str) (env : Environment) : Str := socketStem env.naming pair.2 pair.1

/-- For each tree of an environment there is one entry at its location, which the environment owns and
its deploy unit may write. -/
def LosesNothing (config : Config) : Prop :=
  ∀ t ∈ trees config, ∃ m,
    (buildManifest config).allPaths.filter (·.location = (PurePath.of t.2.2).text) = [m] ∧
      t.1 ∈ m.environments ∧ m ∈ (buildManifest config).pathsForUnit (deployUnit t.1 t.2.1)

/-- No path of fraisier itself is at the location of the tree, and the entry that is recorded there
first lists the deploy unit of the environment. -/
structure NamedFirst (config : Config) (t : (Str × Str) × Environment × Str) : Prop where
  notGlobal : ∀ m ∈ globalPaths config, m.location ≠ (PurePath.of t.2.2).text
  first : ∀ m, (recorded config).find? (·.location = (PurePath.of t.2.2).text) = some m →
    deployUnit t.1 t.2.1 ∈ m.readWriteUnits

/-! ## Entries at one location -/

section Entries

variable {config : Config} {t : (Str × Str) × Environment × Str} {m : ManagedPath}
  {l : List ManagedPath} {pair : Str × Str}

/-- Folding others into an entry adds their owners to its own. -/
theorem mem_foldl_environments (m : ManagedPath) (l : List ManagedPath) :
    pair ∈ (l.foldl addOwners m).environments ↔ ∃ a ∈ m :: l, pair ∈ a.environments := by
  induction l generalizing m with
  | nil => simp
  | cons a l ih =>
    rw [List.foldl_cons, ih]
    simp only [List.exists_mem_cons_iff, addOwners, List.mem_eraseDups, List.mem_append, or_assoc]

/-- Its units stay what they are. -/
theorem foldl_readWriteUnits (m : ManagedPath) (l : List ManagedPath) :
    (l.foldl addOwners m).readWriteUnits = m.readWriteUnits := by
  induction l generalizing m with
  | nil => rfl
  | cons a l ih =>
    rw [List.foldl_cons, ih]
    rfl

/-- More owners leave a path where it is. -/
theorem location_addOwners (a b : ManagedPath) : (addOwners a b).location = a.location := rfl

/-- The tree of an environment is recorded. -/
theorem exists_recorded (ht : t ∈ trees config) :
    ∃ m ∈ recorded config, m.location = (PurePath.of t.2.2).text ∧ t.1 ∈ m.environments := by
  obtain ⟨⟨fraiseName, fraise⟩, hfraise, ht⟩ := List.mem_flatMap.mp ht
  obtain ⟨⟨envName, env⟩, henv, ht⟩ := List.mem_flatMap.mp ht
  obtain ⟨path, hpath, rfl⟩ := List.mem_map.mp ht
  obtain ⟨hpath, hne⟩ := List.mem_filter.mp hpath
  have hne : path ≠ [] := by simpa using hne
  have hmem : ∃ m ∈ environmentPaths config fraiseName fraise envName env,
      m.location = (PurePath.of path).text ∧ (fraiseName, envName) ∈ m.environments := by
    unfold environmentPaths
    dsimp only
    -- The path is that of the repository or that of the application.
    obtain rfl | rfl : path = env.gitRepo ∨ path = env.appPath := by simpa using hpath
    · rw [if_pos hne]
      exact ⟨_, List.mem_append_left _ (List.mem_singleton_self _), rfl, List.mem_singleton_self _⟩
    · rw [if_pos hne]
      exact ⟨_, List.mem_append_right _ List.mem_cons_self, rfl, List.mem_singleton_self _⟩
  obtain ⟨m, hm, hlocation, howner⟩ := hmem
  exact ⟨m, List.mem_flatMap.mpr ⟨_, hfraise, List.mem_flatMap.mpr ⟨_, henv, hm⟩⟩, hlocation, howner⟩

/-- The entry at the location of a tree has the units of the one that was recorded first, and the
environment among its owners. -/
theorem exists_entry (ht : t ∈ trees config) : ∃ first entry,
    (recorded config).find? (·.location = (PurePath.of t.2.2).text) = some first ∧
      (buildManifest config).envPaths.filter (·.location = (PurePath.of t.2.2).text) = [entry] ∧
      t.1 ∈ entry.environments ∧ entry.readWriteUnits = first.readWriteUnits := by
  obtain ⟨m, hm, hlocation, howner⟩ := exists_recorded ht
  have hmem : m ∈ (recorded config).filter (·.location = (PurePath.of t.2.2).text) :=
    List.mem_filter.mpr ⟨hm, by simpa using hlocation⟩
  have hentries := Merge.filter_recordAll location_addOwners (recorded config) (PurePath.of t.2.2).text
  -- All that is recorded at the location is merged into what was recorded first.
  cases hfilter : (recorded config).filter (·.location = (PurePath.of t.2.2).text) with
  | nil =>
    rw [hfilter] at hmem
    exact absurd hmem List.not_mem_nil
  | cons first rest =>
    rw [hfilter] at hentries hmem
    refine ⟨first, rest.foldl addOwners first, ?_, hentries, ?_, foldl_readWriteUnits first rest⟩
    · rw [← List.head?_filter, hfilter]
      rfl
    · exact (mem_foldl_environments first rest).mpr ⟨m, hmem, howner⟩

/-- The manifest loses nothing when no tree is at a location of fraisier itself and each one is
recorded first by an environment with its deploy unit, and only then. -/
theorem losesNothing_iff (config : Config) :
    LosesNothing config ↔ ∀ t ∈ trees config, NamedFirst config t := by
  refine forall₂_congr fun t ht => ?_
  obtain ⟨first, entry, hfirst, hentries, howner, hunits⟩ := exists_entry ht
  have hall : (buildManifest config).allPaths.filter (·.location = (PurePath.of t.2.2).text) =
      (globalPaths config).filter (·.location = (PurePath.of t.2.2).text) ++ [entry] := by
    rw [← hentries]
    exact List.filter_append ..
  have hmem : entry ∈ (buildManifest config).allPaths :=
    List.mem_of_mem_filter (hall ▸ List.mem_append_right _ (List.mem_singleton_self entry))
  rw [hall]
  constructor
  · rintro ⟨m, hm, -, hunit⟩
    -- the entry of the environment is one of those at the location
    have hglobal : (globalPaths config).filter (·.location = (PurePath.of t.2.2).text) = [] := by
      have hlength := congrArg List.length hm
      simpa using hlength
    rw [hglobal, List.nil_append] at hm
    obtain rfl := List.singleton_inj.mp hm
    constructor
    case notGlobal =>
      intro m hm
      simpa using List.filter_eq_nil_iff.mp hglobal m hm
    case first =>
      intro m hm
      obtain rfl := Option.some.inj (hfirst.symm.trans hm)
      rw [← hunits]
      simpa using (List.mem_filter.mp hunit).2
  · rintro ⟨hglobal, hlists⟩
    have hnone : (globalPaths config).filter (·.location = (PurePath.of t.2.2).text) = [] :=
      List.filter_eq_nil_iff.mpr fun m hm => by simpa using hglobal m hm
    refine ⟨entry, by rw [hnone, List.nil_append], howner, List.mem_filter.mpr ⟨hmem, ?_⟩⟩
    rw [hunits]
    simpa using hlists first hfirst

end Entries

/-! ## Two environments with one repository -/

/-- Two environments of one fraise, deployed from one repository. -/
def sharedRepo : Config where
  deployUser := "fraisier".toList
  projectName := "shop".toList
  configDir := "/etc/fraisier".toList
  fraises := [("api".toList, { environments := ["staging", "production"].map fun envName =>
    (envName.toList, { gitRepo := "/srv/git/api.git".toList }) })]

/-- The entry of the repository does not list the unit of the second environment. -/
theorem sharedRepo_loses : ¬LosesNothing sharedRepo := by
  intro h
  have tree : (("api".toList, "production".toList), { gitRepo := "/srv/git/api.git".toList },
      "/srv/git/api.git".toList) ∈ trees sharedRepo := .tail _ (.head _)
  obtain ⟨m, hm, -, hunit⟩ := h _ tree
  have hentry : m ∈ (buildManifest sharedRepo).allPaths.filter
      (·.location = (PurePath.of "/srv/git/api.git".toList).text) :=
    hm ▸ List.mem_singleton_self m
  have hunits : ∀ m ∈ (buildManifest sharedRepo).allPaths.filter
      (·.location = (PurePath.of "/srv/git/api.git".toList).text),
      ¬decide (deployUnit ("api".toList, "production".toList)
        { gitRepo := "/srv/git/api.git".toList } ∈ m.readWriteUnits) := by decide
  exact hunits m hentry (List.mem_filter.mp hunit).2

end Fraisier.Scaffold.Manifest
