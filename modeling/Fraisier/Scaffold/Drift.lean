import Mathlib.Data.List.Pairwise
import Fraisier.Lib.Lines
import Fraisier.Lib.PosixPath
import Fraisier.Config.Quote
import Fraisier.Scaffold.Naming

/-!
# Scaffold drift

`scaffold/diff.py`. `compute_scaffold_diff` renders the scaffold into a temporary directory and compares
each file with the one that is installed; `apply_scaffold_diffs` renders it again, and installs for
each difference the file that the difference names. The name is what is left of the path of the
compared file below the directory two above it, which is the path below the root of the tree for the
files that lie one directory deep, and for no others (`generatedPath_eq_iff`).

`everyDiffApplies_iff` says for which trees, mappings and hosts each difference is repaired by the file
that it was computed from. The lines of a difference, which are only printed, are left out.
-/

namespace Fraisier.Scaffold.Drift

open Fraisier.Lib Str
open Fraisier.Config (utf8 decodeUtf8_utf8)

/-! ## The rendered tree -/

/-- The path of a file below the root of its tree. -/
structure Rel where
  parts : List Str
  nonempty : parts ≠ []
  kept : ∀ p ∈ parts, Kept p ∧ p ≠ ['.', '.'] ∧ '/' ∉ p
  deriving DecidableEq

namespace Rel

def path (rel : Rel) : PurePath := ⟨[], rel.parts⟩

/-- The path as `render` returns it. -/
def text (rel : Rel) : Str := rel.path.text

/-- The path of the text is the path. -/
theorem of_text (rel : Rel) : PurePath.of rel.text = rel.path :=
  PurePath.of_text rel.nonempty (fun p hp => (rel.kept p hp).1) fun p hp => (rel.kept p hp).2.2

end Rel

/-- What is at a path of the tree. -/
inductive Node
  | missing
  | directory
  | file (text : Str)
  deriving DecidableEq, Repr

/-- Neither of two files stands where the other one is, or a directory of it. -/
def Apart (f g : Rel × Str) : Prop := ¬f.1.parts <+: g.1.parts ∧ ¬g.1.parts <+: f.1.parts

instance : Std.Symm Apart := ⟨fun _ _ h => ⟨h.2, h.1⟩⟩

/-- What `ScaffoldRenderer.render` writes and what it returns. -/
structure Rendered where
  /-- The files, with their texts. -/
  files : List (Rel × Str)
  apart : files.Pairwise Apart
  /-- The paths that are returned. -/
  listed : List Rel
  written : ∀ rel ∈ listed, rel ∈ files.map Prod.fst

namespace Rendered

/-- What `temp_path / path` is. -/
def node (tree : Rendered) (path : PurePath) : Node :=
  match tree.files.find? fun f => f.1.parts = path.parts with
  | some f => .file f.2
  | none =>
    if path.parts = [] ∨ ∃ f ∈ tree.files, path.parts <+: f.1.parts then .directory else .missing

/-- A file of the tree is found at its path. -/
theorem node_of_mem {tree : Rendered} {f : Rel × Str} (h : f ∈ tree.files) :
    tree.node f.1.path = .file f.2 := by
  have hfound : tree.files.find? (fun g => g.1.parts = f.1.parts) = some f := by
    cases hfind : tree.files.find? fun g => g.1.parts = f.1.parts with
    | none => exact absurd (List.find?_eq_none.mp hfind f h) (by simp)
    | some g =>
      have hparts : g.1.parts = f.1.parts := by simpa using List.find?_some hfind
      by_contra hne
      have hapart : Apart f g := tree.apart.forall h (List.mem_of_find?_eq_some hfind)
        fun heq => hne (congrArg some heq.symm)
      exact hapart.1 (hparts ▸ List.prefix_rfl)
  unfold node
  rw [show f.1.path.parts = f.1.parts from rfl, hfound]

/-- What is listed of the tree is a file. -/
theorem exists_text {tree : Rendered} {rel : Rel} (h : rel ∈ tree.listed) :
    ∃ text, tree.node rel.path = .file text := by
  obtain ⟨f, hf, rfl⟩ := List.mem_map.mp (tree.written rel h)
  exact ⟨f.2, node_of_mem hf⟩

end Rendered

/-- `get_install_mapping`. -/
structure Mapping where
  entries : List (Rel × PurePath)
  nodup : (entries.map Prod.fst).Nodup

/-- A temporary directory. -/
structure TempDir where
  path : PurePath
  named : path.parts ≠ []

/-- `temp_path / rel_path`. -/
def TempDir.file (temp : TempDir) (rel : Rel) : PurePath :=
  { temp.path with parts := temp.path.parts ++ rel.parts }

/-! ## The filters -/

/-- The fraises of the configuration with their environments, and the two filters, which are empty
when they are not given. -/
structure Filters where
  fraises : List (Str × List (Str × EnvConfig)) := []
  fraiseFilter : Str := []
  envFilter : Str := []

namespace Filters

/-- `matching_deploy_paths`. -/
def matchingDeployPaths (filters : Filters) : List Str :=
  filters.fraises.flatMap fun (fraiseName, environments) =>
    if filters.fraiseFilter ≠ [] ∧ fraiseName ≠ filters.fraiseFilter then []
    else environments.flatMap fun (envKey, envCfg) =>
      if filters.envFilter ≠ [] ∧ envKey ≠ filters.envFilter then []
      else (deployUnitNames envCfg envKey fraiseName).map ("systemd/".toList ++ ·)

/-- `_file_matches_filters`. -/
def fileMatchesFilters (relPath : Str) (matchingDeployPaths : List Str) : Bool :=
  if matchingDeployPaths = [] then true
  else if hasSub "systemd/".toList relPath && hasSub "deploy".toList relPath then
    relPath ∈ matchingDeployPaths
  else true

/-- The file is among those that the filters ask for. -/
def includes (filters : Filters) (rel : Rel) : Bool :=
  if filters.fraiseFilter ≠ [] ∨ filters.envFilter ≠ [] then
    fileMatchesFilters rel.text filters.matchingDeployPaths
  else true

end Filters

/-! ## The installed files -/

/-- What is at a path of the host, for the caller. -/
inductive Place
  | absent
  /-- A directory above cannot be searched: `exists` raises `PermissionError`. -/
  | denied
  | directory
  /-- A file, and whether the caller may read it. -/
  | file (data : List UInt8) (readable : Bool)
  deriving DecidableEq, Repr

/-- The host, by its paths as the system resolves them. -/
abbrev Host := PurePath → Place

/-- The lines of a text, with the newlines that end them. -/
def keepLines : Str → List Str
  | [] => []
  | c :: s =>
    if c = '\n' then [c] :: keepLines s
    else match keepLines s with
      | [] => [[c]]
      | line :: lines => (c :: line) :: lines

/-- `readlines` of an opened file: `none` when `UnicodeDecodeError` is raised. -/
def readLines (data : List UInt8) : Option (List Str) :=
  (decodeUtf8 ⟨data.toArray⟩).map fun s => keepLines (universalNewlines s)

/-- Opening and reading an installed file: `none` when this raises. -/
def Place.lines : Place → Option (List Str)
  | .file data true => readLines data
  | _ => none

/-- Opening and reading a rendered file, which `_write_output` wrote. -/
def Node.lines : Node → Option (List Str)
  | .file text => readLines (utf8 text)
  | _ => none

/-- The lines of a file are those of its text, its line ends made uniform. -/
theorem Node.lines_file (text : Str) :
    (Node.file text).lines = some (keepLines (universalNewlines text)) := by
  show (decodeUtf8 ⟨(utf8 text).toArray⟩).map _ = _
  rw [decodeUtf8_utf8, Option.map_some]

/-! ## The differences -/

/-- The status of a difference. -/
inductive Status
  | matched
  | differs
  | missingInstalled
  | missingGenerated
  | permissionDenied
  deriving DecidableEq, Repr

/-- `FileDiff`. -/
structure FileDiff where
  generatedPath : Str
  installedPath : PurePath
  status : Status
  deriving DecidableEq, Repr

/-- `path.relative_to(above)` of a path below another. -/
def relativeTo (path above : PurePath) : PurePath := ⟨[], path.parts.drop above.parts.length⟩

/-- The status that `_compare_files` finds. -/
def compareStatus (generated : Node) (installed : Place) : Status :=
  match installed with
  | .denied => .permissionDenied
  | .absent => .missingInstalled
  | place => match generated.lines, place.lines with
    | some generatedContent, some installedContent =>
      if generatedContent = installedContent then .matched else .differs
    | _, _ => .differs

/-- `_compare_files`. -/
def compareFiles (tree : Rendered) (temp : TempDir) (rel : Rel) (installedPath : PurePath)
    (host : Host) : FileDiff :=
  let generatedFile := temp.file rel
  { generatedPath := (relativeTo generatedFile generatedFile.parent.parent).text
    installedPath
    status := compareStatus (tree.node rel.path) (host installedPath) }

section Naming

variable (tree : Rendered) (temp : TempDir) (rel : Rel) (installedPath : PurePath) (host : Host)

/-- What is shown of a rendered file has two parts. -/
theorem length_rtake_two : ((temp.path.parts ++ rel.parts).rtake 2).length = 2 := by
  have hrel := List.length_pos_iff.mpr rel.nonempty
  have htemp := List.length_pos_iff.mpr temp.named
  unfold List.rtake
  simp only [List.length_drop, List.length_append]
  omega

/-- What is shown of a rendered file is not empty. -/
theorem rtake_two_ne_nil : (temp.path.parts ++ rel.parts).rtake 2 ≠ [] :=
  List.ne_nil_of_length_eq_add_one (length_rtake_two temp rel)

/-- A difference is named by the last two components of the path of the compared file. -/
theorem generatedPath_eq : (compareFiles tree temp rel installedPath host).generatedPath =
    ['/'].intercalate ((temp.path.parts ++ rel.parts).rtake 2) := by
  have hlength : (temp.path.parts ++ rel.parts).dropLast.dropLast.length =
      (temp.path.parts ++ rel.parts).length - 2 := by
    simp only [List.length_dropLast]
    omega
  show PurePath.text ⟨[], (temp.path.parts ++ rel.parts).drop
    (temp.path.parts ++ rel.parts).dropLast.dropLast.length⟩ = _
  rw [hlength]
  exact PurePath.text_relative (rtake_two_ne_nil temp rel)

/-- They are the path below the root of the tree for a file that lies one directory deep. -/
theorem generatedPath_eq_iff :
    (compareFiles tree temp rel installedPath host).generatedPath = rel.text ↔
      rel.parts.length = 2 := by
  have hlength := length_rtake_two temp rel
  have hend : (temp.path.parts ++ rel.parts).rtake 2 <:+ temp.path.parts ++ rel.parts :=
    List.drop_suffix _ _
  have hrel : rel.parts <:+ temp.path.parts ++ rel.parts := List.suffix_append _ _
  rw [generatedPath_eq, show rel.text = _ from PurePath.text_relative rel.nonempty,
    intercalate_inj_of_suffix hend hrel (rtake_two_ne_nil temp rel) rel.nonempty]
  constructor
  · intro h
    rw [← h, hlength]
  · intro h
    exact (List.suffix_of_suffix_length_le hend hrel (by omega)).eq_of_length (by omega)

end Naming

section Compute

variable (tree : Rendered) (mapping : Mapping) (filters : Filters)

/-- The files that the first loop of `compute_scaffold_diff` compares, with the paths that they are
installed at. -/
def compared : List (Rel × PurePath) :=
  tree.listed.filterMap fun rel =>
    (mapping.entries.lookup rel).bind fun installedPath =>
      if filters.includes rel then some (rel, installedPath) else none

/-- The second loop of `compute_scaffold_diff`. -/
def notGenerated (host : Host) : List FileDiff :=
  mapping.entries.filterMap fun (rel, installedPath) =>
    match host installedPath with
    | .denied => some ⟨rel.text, installedPath, .permissionDenied⟩
    | .absent => none
    | _ =>
      if tree.node rel.path = .missing ∧ filters.includes rel then
        some ⟨rel.text, installedPath, .missingGenerated⟩
      else none

/-- `compute_scaffold_diff`. -/
def computeScaffoldDiff (temp : TempDir) (host : Host) : List FileDiff :=
  (compared tree mapping filters).map (fun c => compareFiles tree temp c.1 c.2 host) ++
    notGenerated tree mapping filters host

end Compute

/-! ## Applying them -/

/-- What `sudo cp` does on the host. -/
structure Sudo where
  /-- Writing there fails. -/
  refuses : PurePath → Bool
  /-- What a copy that fails writes to `stderr`. -/
  stderr : Str → PurePath → Str
  /-- The caller may read a file that is made there. -/
  opens : PurePath → Bool

/-- Writing a file. One that exists keeps its permissions. -/
def Place.put (opens : Bool) (data : List UInt8) : Place → Place
  | .absent => .file data opens
  | .file _ readable => .file data readable
  | place => place

/-- Where `cp` writes a file of this name: into a directory when the destination is one. -/
def copyTarget (host : Host) (name : Str) (dst : PurePath) : PurePath :=
  match host dst with
  | .directory => { dst with parts := dst.parts ++ [name] }
  | _ => dst

section Apply

variable (cp : Sudo) (tree : Rendered)

/-- `_sudo_copy` of what is at a path of the tree. -/
def sudoCopy (src : Str) (node : Node) (dst : PurePath) (host : Host) : (Bool × Str) × Host :=
  let target := copyTarget host (PurePath.of src).name dst
  match node with
  | .file text =>
    if cp.refuses target ∨ host target = .directory then
      ((false, strip (cp.stderr src dst)), host)
    else
      ((true, []), Function.update host target ((host target).put (cp.opens target) (utf8 text)))
  | _ => ((false, strip (cp.stderr src dst)), host)

/-- What `apply_scaffold_diffs` returns, with the host that it leaves. -/
structure Applied where
  host : Host
  applied : List PurePath := []
  failed : List (PurePath × Str) := []

/-- One turn of the loop of `apply_scaffold_diffs`. -/
def applyDiff (a : Applied) (diff : FileDiff) : Applied :=
  match tree.node (PurePath.of diff.generatedPath) with
  | .missing =>
    let msg := "Generated file not found: ".toList ++ diff.generatedPath
    { a with failed := a.failed ++ [(diff.installedPath, msg)] }
  | node =>
    match sudoCopy cp diff.generatedPath node diff.installedPath a.host with
    | ((true, _), host) => { a with host, applied := a.applied ++ [diff.installedPath] }
    | ((false, errorMsg), host) =>
      { a with host, failed := a.failed ++ [(diff.installedPath, errorMsg)] }

/-- The statuses that are applied. -/
def FileDiff.toApply (diff : FileDiff) : Bool :=
  diff.status = .differs || diff.status = .missingInstalled

/-- `apply_scaffold_diffs`. -/
def applyScaffoldDiffs (diffs : List FileDiff) (host : Host) : Applied :=
  (diffs.filter FileDiff.toApply).foldl (applyDiff cp tree) { host }

/-- `systemctl daemon-reload` is run at the end. -/
def Applied.systemdChanged (a : Applied) : Bool :=
  a.applied.any fun p => startsWith p.text "/etc/systemd/".toList

end Apply

/-! ## What a copy does -/

namespace Place

/-- The caller could read what is at a place after a copy to it. -/
def opensTo (opens : Bool) : Place → Bool
  | .absent => opens
  | .file _ readable => readable
  | _ => false

variable (opens : Bool) (data data' : List UInt8) (place : Place)

/-- The last write into a place is the one that counts. -/
@[simp] theorem put_put : (place.put opens data).put opens data' = place.put opens data' := by
  cases place <;> rfl

/-- A write makes no directory and removes none. -/
@[simp] theorem put_eq_directory : place.put opens data = .directory ↔ place = .directory := by
  cases place <;> simp [put]

/-- A write leaves where a place opens to. -/
@[simp] theorem opensTo_put : (place.put opens data).opensTo opens = place.opensTo opens := by
  cases place <;> rfl

/-- A place that the caller could read holds what is written there. -/
theorem put_of_opensTo {opens : Bool} {place : Place} (h : place.opensTo opens = true) :
    place.put opens data = .file data true := by
  cases place with
  | absent => exact congrArg (Place.file data) h
  | file old readable => exact congrArg (Place.file data) h
  | denied => cases h
  | directory => cases h

end Place

/-- What copies leave as it was on a host. -/
structure Keeps (cp : Sudo) (before after : Host) : Prop where
  directory : ∀ p, after p = .directory ↔ before p = .directory
  refused : ∀ p, cp.refuses p = true → after p = before p
  opens : ∀ p, (after p).opensTo (cp.opens p) = (before p).opensTo (cp.opens p)

section Copy

variable {cp : Sudo} {tree : Rendered} {host : Host} {src : Str} {node : Node} {dst p : PurePath}

/-- What does nothing keeps everything. -/
theorem Keeps.refl : Keeps cp host host := ⟨fun _ => .rfl, fun _ _ => rfl, fun _ => rfl⟩

/-- Two steps that keep what is not theirs keep it together. -/
theorem Keeps.trans {h h' h'' : Host} (k : Keeps cp h h') (k' : Keeps cp h' h'') : Keeps cp h h'' where
  directory p := (k'.directory p).trans (k.directory p)
  refused p hp := (k'.refused p hp).trans (k.refused p hp)
  opens p := (k'.opens p).trans (k.opens p)

/-- A write into a place that takes it keeps the rest. -/
theorem Keeps.update {data : List UInt8} (hp : cp.refuses p = false) :
    -- Only the place itself changes, and it does not become one that refuses.
    Keeps cp host (Function.update host p ((host p).put (cp.opens p) data)) where
  directory q := by
    by_cases h : q = p
    · subst h
      simp
    · rw [Function.update_of_ne h]
  refused q hq := by
    have hne : q ≠ p := by
      rintro rfl
      rw [hp] at hq
      cases hq
    rw [Function.update_of_ne hne]
  opens q := by
    by_cases h : q = p
    · subst h
      simp
    · rw [Function.update_of_ne h]

/-- A copy keeps what is not its own. -/
theorem sudoCopy_keeps : Keeps cp host (sudoCopy cp src node dst host).2 := by
  cases node with
  | missing => exact .refl
  | directory => exact .refl
  | file text =>
    unfold sudoCopy
    dsimp only
    split_ifs with h
    · exact .refl
    · rw [not_or, Bool.not_eq_true] at h
      exact .update h.1

/-- A destination that is no directory is written itself. -/
theorem copyTarget_eq (name : Str) (hdst : host dst ≠ .directory) : copyTarget host name dst = dst := by
  unfold copyTarget
  split
  · next h => exact absurd h hdst
  · rfl

/-- A copy of a file that is let in puts its text there. -/
theorem sudoCopy_file (text : Str) (hdst : host dst ≠ .directory) (hrefuses : cp.refuses dst = false) :
    (sudoCopy cp src (.file text) dst host).2 =
      Function.update host dst ((host dst).put (cp.opens dst) (utf8 text)) := by
  unfold sudoCopy
  simp only [copyTarget_eq _ hdst, hrefuses, hdst, Bool.false_eq_true, or_self, if_false]

/-- A copy touches no other path. -/
theorem sudoCopy_other (hdst : host dst ≠ .directory) (hp : p ≠ dst) :
    (sudoCopy cp src node dst host).2 p = host p := by
  cases node with
  | missing => rfl
  | directory => rfl
  | file text =>
    unfold sudoCopy
    simp only [copyTarget_eq _ hdst]
    split_ifs
    · rfl
    · exact Function.update_of_ne hp _ _

/-- A turn of the loop leaves the host that the copy leaves. -/
theorem applyDiff_host (a : Applied) (diff : FileDiff) : (applyDiff cp tree a diff).host =
    (sudoCopy cp diff.generatedPath (tree.node (PurePath.of diff.generatedPath)) diff.installedPath
      a.host).2 := by
  unfold applyDiff
  cases hnode : tree.node (PurePath.of diff.generatedPath) with
  | missing => rfl
  | directory => rfl
  | file text =>
    dsimp only
    split
    · next h => rw [h]
    · next h => rw [h]

/-- Applying a difference keeps what is not its own. -/
theorem applyDiff_keeps (a : Applied) (diff : FileDiff) :
    Keeps cp a.host (applyDiff cp tree a diff).host := by
  rw [applyDiff_host]
  exact sudoCopy_keeps

/-- Applying differences in turn keeps what is not their own. -/
theorem foldl_keeps (diffs : List FileDiff) (a : Applied) :
    Keeps cp a.host (diffs.foldl (applyDiff cp tree) a).host := by
  induction diffs generalizing a with
  | nil => exact .refl
  | cons diff diffs ih => exact (applyDiff_keeps a diff).trans (ih _)

/-- Where all that is copied to a path has one text, the path is written with it, and else left
alone. -/
theorem foldl_host (text : Str) (hrefuses : cp.refuses p = false) (diffs : List FileDiff) (a : Applied)
    (hdir : ∀ diff ∈ diffs, a.host diff.installedPath ≠ .directory)
    (htext : ∀ diff ∈ diffs, diff.installedPath = p →
      tree.node (PurePath.of diff.generatedPath) = .file text) :
    (diffs.foldl (applyDiff cp tree) a).host p =
      if ∃ diff ∈ diffs, diff.installedPath = p then (a.host p).put (cp.opens p) (utf8 text)
      else a.host p := by
  -- Induction on the differences: one that is copied elsewhere leaves the path alone.
  induction diffs generalizing a with
  | nil => simp
  | cons diff diffs ih =>
    obtain ⟨hdiff, hdiffs⟩ := List.forall_mem_cons.mp hdir
    obtain ⟨htextDiff, htextDiffs⟩ := List.forall_mem_cons.mp htext
    have hkeeps : Keeps cp a.host (applyDiff cp tree a diff).host := applyDiff_keeps a diff
    rw [List.foldl_cons, ih _ (fun d hd => mt (hkeeps.directory _).mp (hdiffs d hd)) htextDiffs,
      applyDiff_host]
    by_cases hp : diff.installedPath = p
    · subst hp
      rw [htextDiff rfl, sudoCopy_file text hdiff hrefuses, Function.update_self]
      simp
    · rw [sudoCopy_other hdiff (Ne.symm hp)]
      simp [hp]

end Copy

/-! ## A difference that can be applied -/

section Repair

variable (cp : Sudo) (tree : Rendered) (mapping : Mapping) (filters : Filters)
  (temp again : TempDir) (host : Host)

/-- The host after the differences that `temp` shows are applied. -/
def repaired : Host :=
  (applyScaffoldDiffs cp tree (computeScaffoldDiff tree mapping filters temp host) host).host

/-- The difference computed from a rendered file names it, and applying the differences installs the
bytes of that file, after which another computation finds no difference. -/
structure Applies (c : Rel × PurePath) (text : Str) : Prop where
  named : (compareFiles tree temp c.1 c.2 host).generatedPath = c.1.text
  installed : (compareFiles tree temp c.1 c.2 host).toApply = true →
    ∃ readable, repaired cp tree mapping filters temp host c.2 = .file (utf8 text) readable
  settled : (compareFiles tree temp c.1 c.2 host).toApply = true →
    (compareFiles tree again c.1 c.2 (repaired cp tree mapping filters temp host)).status = .matched

/-- Every difference that is computed can be applied. -/
def EveryDiffApplies : Prop :=
  ∀ c ∈ compared tree mapping filters, ∀ text, tree.node c.1.path = .file text →
    Applies cp tree mapping filters temp again host c text

/-! ## When it holds -/

/-- The installed file of a compared file is missing or reads differently. -/
def Outdated (c : Rel × PurePath) : Prop :=
  host c.2 ≠ .denied ∧ (host c.2).lines ≠ (tree.node c.1.path).lines

/-- The compared file lies one directory deep. If its installed file is outdated, that file can be
written, the caller may read it, and no outdated file with another text is installed there too. -/
structure Repairable (c : Rel × PurePath) : Prop where
  depth : c.1.parts.length = 2
  writable : Outdated tree host c → cp.refuses c.2 = false
  readable : Outdated tree host c → (host c.2).opensTo (cp.opens c.2) = true
  alone : Outdated tree host c → ∀ c' ∈ compared tree mapping filters, Outdated tree host c' →
    c'.2 = c.2 → tree.node c'.1.path = tree.node c.1.path

end Repair

section Status

variable {text : Str} {place : Place}

/-- A file that exists is compared by its lines. -/
theorem compareStatus_file (data : List UInt8) (readable : Bool) :
    compareStatus (.file text) (.file data readable) =
      if (Place.file data readable).lines = (Node.file text).lines then .matched else .differs := by
  show (match (Node.file text).lines, (Place.file data readable).lines with
    | some generated, some installed => if generated = installed then Status.matched else .differs
    | _, _ => .differs) = _
  rw [Node.lines_file]
  cases (Place.file data readable).lines with
  | none => rfl
  | some lines => simp only [Option.some.injEq, eq_comm]

/-- A file matches when the lines are the same. -/
theorem compareStatus_matched_iff :
    compareStatus (.file text) place = .matched ↔ place.lines = (Node.file text).lines := by
  cases place with
  | absent => simp [compareStatus, Place.lines, Node.lines_file]
  | denied => simp [compareStatus, Place.lines, Node.lines_file]
  | directory => simp [compareStatus, Place.lines, Node.lines_file]
  | file data readable => simp [compareStatus_file]

/-- A difference is to be applied when the place can be read and its lines are others. -/
theorem compareStatus_toApply_iff (path : Str) (installedPath : PurePath) :
    (FileDiff.mk path installedPath (compareStatus (.file text) place)).toApply = true ↔
      place ≠ .denied ∧ place.lines ≠ (Node.file text).lines := by
  cases place with
  | absent => simp [FileDiff.toApply, compareStatus, Place.lines, Node.lines_file]
  | denied => simp [FileDiff.toApply, compareStatus]
  | directory => simp [FileDiff.toApply, compareStatus, Place.lines, Node.lines_file]
  | file data readable =>
    rw [compareStatus_file]
    by_cases h : (Place.file data readable).lines = (Node.file text).lines
    · simp [FileDiff.toApply, h]
    · simp [FileDiff.toApply, h]

/-- What is read is at a place that the caller may read. -/
theorem opensTo_of_lines {lines : List Str} (h : place.lines = some lines) (opens : Bool) :
    place.opensTo opens = true := by
  cases place with
  | file data readable =>
    cases readable with
    | true => rfl
    | false => cases h
  | absent => cases h
  | denied => cases h
  | directory => cases h

end Status

section Exact

variable {cp : Sudo} {tree : Rendered} {mapping : Mapping} {filters : Filters} {temp again : TempDir}
  {host : Host} {c : Rel × PurePath}

/-- What is compared is a file of the tree. -/
theorem exists_text_of_compared (hc : c ∈ compared tree mapping filters) :
    ∃ text, tree.node c.1.path = .file text := by
  obtain ⟨rel, hrel, h⟩ := List.mem_filterMap.mp hc
  obtain ⟨installedPath, -, h⟩ := Option.bind_eq_some_iff.mp h
  obtain ⟨-, h⟩ := Option.ite_none_right_eq_some.mp h
  obtain rfl := Option.some.inj h
  exact Rendered.exists_text hrel

/-- What is compared is to be applied when the host's file is outdated. -/
theorem toApply_iff (hc : c ∈ compared tree mapping filters) :
    (compareFiles tree temp c.1 c.2 host).toApply = true ↔ Outdated tree host c := by
  obtain ⟨text, htext⟩ := exists_text_of_compared hc
  unfold compareFiles Outdated
  rw [htext]
  exact compareStatus_toApply_iff _ _

/-- What is applied was computed from a compared file. -/
theorem mem_toApply {diff : FileDiff} :
    diff ∈ (computeScaffoldDiff tree mapping filters temp host).filter FileDiff.toApply ↔
      ∃ c ∈ compared tree mapping filters,
        Outdated tree host c ∧ compareFiles tree temp c.1 c.2 host = diff := by
  -- What is only not generated is never applied.
  have hnot : ∀ d ∈ notGenerated tree mapping filters host, d.toApply = false := by
    intro d hd
    obtain ⟨⟨rel, installedPath⟩, -, h⟩ := List.mem_filterMap.mp hd
    dsimp only at h
    split at h
    · exact Option.some.inj h ▸ rfl
    · cases h
    · obtain ⟨-, h⟩ := Option.ite_none_right_eq_some.mp h
      exact Option.some.inj h ▸ rfl
  rw [List.mem_filter, computeScaffoldDiff, List.mem_append, List.mem_map]
  constructor
  · rintro ⟨⟨c, hc, rfl⟩ | hd, happly⟩
    · exact ⟨c, hc, (toApply_iff hc).mp happly, rfl⟩
    · rw [hnot diff hd] at happly
      cases happly
  · rintro ⟨c, hc, houtdated, rfl⟩
    exact ⟨.inl ⟨c, hc, rfl⟩, (toApply_iff hc).mpr houtdated⟩

/-- A repair keeps what is not its own. -/
theorem repaired_keeps : Keeps cp host (repaired cp tree mapping filters temp host) :=
  foldl_keeps _ { host }

/-- A file that is outdated on one host and not on another changed in between. -/
theorem settled_lines {after : Host} {text : Str} (htext : tree.node c.1.path = .file text)
    (h : (compareFiles tree again c.1 c.2 after).status = .matched) :
    (after c.2).lines = (Node.file text).lines := by
  unfold compareFiles at h
  rw [htext] at h
  exact compareStatus_matched_iff.mp h

/-- A difference that applies comes from a file that can be repaired. -/
theorem repairable_of_applies
    (happlies : EveryDiffApplies cp tree mapping filters temp again host)
    (hc : c ∈ compared tree mapping filters) : Repairable cp tree mapping filters host c := by
  obtain ⟨text, htext⟩ := exists_text_of_compared hc
  have h := happlies c hc text htext
  have hkeeps : Keeps cp host (repaired cp tree mapping filters temp host) := repaired_keeps
  -- A file that is out of date has the lines of the rendered one afterwards.
  have hlines : Outdated tree host c →
      (repaired cp tree mapping filters temp host c.2).lines = (Node.file text).lines :=
    fun houtdated => settled_lines htext (h.settled ((toApply_iff hc).mpr houtdated))
  constructor
  case depth => exact (generatedPath_eq_iff ..).mp h.named
  case writable =>
    intro houtdated
    by_contra hrefuses
    rw [Bool.not_eq_false] at hrefuses
    apply houtdated.2
    rw [htext, ← hlines houtdated, hkeeps.refused c.2 hrefuses]
  case readable =>
    intro houtdated
    rw [← hkeeps.opens c.2]
    exact opensTo_of_lines ((hlines houtdated).trans (Node.lines_file text)) _
  -- Two differences of one destination would leave it with two texts.
  case alone =>
    intro houtdated c' hc' houtdated' hdest
    obtain ⟨text', htext'⟩ := exists_text_of_compared hc'
    obtain ⟨r, hr⟩ := h.installed ((toApply_iff hc).mpr houtdated)
    obtain ⟨r', hr'⟩ :=
      (happlies c' hc' text' htext').installed ((toApply_iff hc').mpr houtdated')
    rw [hdest, hr, Place.file.injEq] at hr'
    have hsame : some text = some text' := by
      rw [← decodeUtf8_utf8 text, ← decodeUtf8_utf8 text', hr'.1]
    rw [htext, htext', Option.some.inj hsame]

/-- The place of an outdated file holds its text after the differences are applied, when all files can
be repaired. -/
theorem repaired_eq (hrepairable : ∀ c ∈ compared tree mapping filters,
      Repairable cp tree mapping filters host c) (hc : c ∈ compared tree mapping filters)
    (houtdated : Outdated tree host c) {text : Str} (htext : tree.node c.1.path = .file text) :
    repaired cp tree mapping filters temp host c.2 = .file (utf8 text) true := by
  have hc' := hrepairable c hc
  unfold repaired applyScaffoldDiffs
  rw [foldl_host text (hc'.writable houtdated), if_pos]
  -- The path is copied to by the file's own difference, and by no other text.
  · exact Place.put_of_opensTo _ (hc'.readable houtdated)
  · exact ⟨_, mem_toApply.mpr ⟨c, hc, houtdated, rfl⟩, rfl⟩
  · -- a directory is no place that the caller could read
    intro diff hdiff
    obtain ⟨d, hd, hdOutdated, rfl⟩ := mem_toApply.mp hdiff
    intro hdir
    have hopens := (hrepairable d hd).readable hdOutdated
    rw [show host d.2 = .directory from hdir] at hopens
    cases hopens
  · intro diff hdiff hdest
    obtain ⟨d, hd, hdOutdated, rfl⟩ := mem_toApply.mp hdiff
    rw [(generatedPath_eq_iff ..).mpr (hrepairable d hd).depth, Rel.of_text,
      hc'.alone houtdated d hd hdOutdated hdest, htext]

end Exact

section Main

variable (cp : Sudo) (tree : Rendered) (mapping : Mapping) (filters : Filters)
  (temp again : TempDir) (host : Host)

/-- Every difference applies exactly when every compared file can be repaired. -/
theorem everyDiffApplies_iff : EveryDiffApplies cp tree mapping filters temp again host ↔
    ∀ c ∈ compared tree mapping filters, Repairable cp tree mapping filters host c := by
  constructor
  · intro happlies c hc
    exact repairable_of_applies happlies hc
  · intro hrepairable c hc text htext
    -- What is applied is copied to a place that takes it.
    have hplace : (compareFiles tree temp c.1 c.2 host).toApply = true →
        repaired cp tree mapping filters temp host c.2 = .file (utf8 text) true :=
      fun happly => repaired_eq hrepairable hc ((toApply_iff hc).mp happly) htext
    constructor
    case named => exact (generatedPath_eq_iff ..).mpr (hrepairable c hc).depth
    case installed => exact fun happly => ⟨true, hplace happly⟩
    case settled =>
      intro happly
      show compareStatus (tree.node c.1.path) (repaired cp tree mapping filters temp host c.2) = _
      rw [htext, hplace happly, compareStatus_matched_iff]
      rfl

end Main

/-! ## A file at the root of the tree -/

/-- The unit of the webhook, which is rendered at the root of the tree. -/
def webhookUnit : Rel := ⟨["fraisier-shop-webhook.service".toList], by decide, by decide⟩

/-- A tree with this one file. -/
def webhookTree : Rendered where
  files := [(webhookUnit, "[Service]\n".toList)]
  apart := List.pairwise_singleton _ _
  listed := [webhookUnit]
  written := by decide

/-- Where it is installed. -/
def webhookMapping : Mapping where
  entries := [(webhookUnit, .of "/etc/systemd/system/fraisier-shop-webhook.service".toList)]
  nodup := by decide

def scratchDir : TempDir := ⟨.of "/tmp/tmp1".toList, by decide⟩

def freeSudo : Sudo := ⟨fun _ => false, fun _ _ => [], fun _ => true⟩

/-- The unit is not installed, and its difference names a file that is not in the tree. -/
theorem webhookUnit_notFound :
    (applyScaffoldDiffs freeSudo webhookTree
      (computeScaffoldDiff webhookTree webhookMapping {} scratchDir fun _ => .absent)
      fun _ => .absent).failed = [(.of "/etc/systemd/system/fraisier-shop-webhook.service".toList,
        "Generated file not found: tmp1/fraisier-shop-webhook.service".toList)] ∧
    ¬EveryDiffApplies freeSudo webhookTree webhookMapping {} scratchDir scratchDir
      fun _ => .absent := by
  constructor
  · decide
  · intro happlies
    have hmem : (webhookUnit, PurePath.of "/etc/systemd/system/fraisier-shop-webhook.service".toList) ∈
        compared webhookTree webhookMapping {} := by decide
    have hnamed := (happlies _ hmem "[Service]\n".toList (by decide)).named
    exact absurd hnamed (by decide)

end Fraisier.Scaffold.Drift
