import Mathlib.Data.List.Forall2
import Fraisier.Install.Report

/-!
# What installing does to a host

A `Host` answers the calls of both ways of applying diffs, and of the helper, from one state of the file
system. `applyUnitDiffs_ends` and `handleManifest_ends` say what each does there: which unit files it
writes with which contents, and what it has `systemctl` do.
-/

namespace Fraisier.Install

open Fraisier.Lib Interaction Str Fraisier.Unit

/-! ## Effects -/

/-- What a run does to the host. -/
inductive Effect
  /-- A unit file of the name is written in the directory. -/
  | unit (dir : PurePath) (name : Str) (data : ByteArray)
  /-- The marker of the unit is. -/
  | marker (dir : PurePath) (unit : Str) (marker : MarkerMeta)
  | reload
  | enable (unit : Str)

/-- The effect is a marker. -/
def Effect.isMarker : Effect → Bool
  | .marker _ _ _ => true
  | .unit _ _ _ | .reload | .enable _ => false

/-- What a command of `systemctl` does when it succeeds. -/
def effectsOfCommand (args : List Str) : List Effect :=
  if args = ["daemon-reload".toList] then [.reload]
  else match args with
    | [verb, now, unit] =>
      if verb = "enable".toList ∧ now = "--now".toList then [.enable unit] else []
    | _ => []

/-- What a call of the helper does. -/
def effectsOfServed : Sigma InstallCall.Answer → List Effect
  | ⟨.writeFile dir name data, .done⟩ => [.unit dir.path name data]
  | ⟨.writeMarker dir unit marker, .done⟩ => [.marker dir.path unit marker]
  | ⟨.systemctl args, .exited 0 _⟩ => effectsOfCommand args
  | _ => []

/-- What the helper does. -/
def served (calls : Calls) : List Effect := calls.flatMap effectsOfServed

/-! ## A host -/

/-- The file of the name in the directory. -/
def fileAt (dir : PurePath) (name : Str) : PurePath := { dir with parts := dir.parts ++ [name] }

/-- A host as it is when a command starts, and the helper's allowlist there. -/
structure Host where
  /-- `Path.resolve()`. -/
  resolve : PurePath → Option PurePath
  /-- `Path.resolve(strict=True)`, and how the system finds a file. -/
  strict : PurePath → Resolved
  pathExists : PurePath → Bool
  /-- What a file holds, by its resolved path. -/
  holds : PurePath → SourceRead
  /-- How a file of the name is written in a directory. -/
  write : PurePath → Str → FileEnd
  systemctl : List Str → Ran
  allowlist : List AllowlistEntry
  resolved : ResolvedAllowlist

variable (host : Host)

/-- What a call of applying diffs does. A copy follows the links to the destination's directory. -/
def Host.effectsOf : Sigma ApplyCall.Answer → List Effect
  | ⟨.copy _ dest, .copied data⟩ => match host.strict dest.parent with
    | .path dir => [.unit dir dest.name data]
    | .notFound | .raised => []
  | ⟨.systemctl args, .exited 0 _⟩ => effectsOfCommand args
  | ⟨.exchange _, .replied calls _⟩ => served calls
  | _ => []

/-- What applying diffs does. -/
def Host.effects (calls : History ApplyCall.Answer) : List Effect := calls.flatMap host.effectsOf

/-- The file was not written. -/
def Untouched (effects : List Effect) (path : PurePath) : Prop :=
  ∀ dir name data, .unit dir name data ∈ effects → fileAt dir name ≠ path

/-- How the host answers the helper, which reads before it writes. -/
def Host.serves : Rely InstallCall.Answer := fun _ e =>
  match e with
  | ⟨.resolve path, answer⟩ => answer = host.strict path
  | ⟨.readFile path, answer⟩ => answer = host.holds path
  | ⟨.writeFile dir name _, answer⟩ => answer = host.write dir.path name
  | ⟨.systemctl args, answer⟩ => answer = host.systemctl args
  | _ => True

/-- How the host answers. A copy holds what its source did, unless that was written since. -/
def Host.answers : Rely ApplyCall.Answer := fun h e =>
  match e with
  | ⟨.resolve path, answer⟩ => answer = host.resolve path
  | ⟨.resolveStrict path, answer⟩ => answer = host.strict path
  | ⟨.pathExists path, answer⟩ => answer = host.pathExists path
  | ⟨.copy source dest, answer⟩ => ∀ path dir data, host.strict source = .path path →
      host.strict dest.parent = .path dir → Untouched (host.effects h) path →
        host.holds path = .bytes data → host.write dir dest.name = .done → answer = .copied data
  | ⟨.chmod path, answer⟩ => ∀ dir, host.strict path.parent = .path dir →
      host.write dir path.name = .done → answer = some ()
  | ⟨.systemctl args, answer⟩ => answer = host.systemctl args
  | ⟨.exchange manifest, answer⟩ => ∀ calls response, answer = .replied calls response →
      (handleManifest host.allowlist host.resolved manifest).Runs host.serves [] calls (.ok response)

/-! ## What both refuse -/

variable {host} {force : Bool} {diffs : List UnitDiff} {h : History ApplyCall.Answer}

/-- What `_validate_unit_path_safety` lets through. -/
def Host.safe (host : Host) (destDir : PurePath) (install : ScheduledUnitInstall) : Prop :=
  (hasSub ['/'] install.unitName || hasSub ['.', '.'] install.unitName) = false ∧
    ∃ dest root, host.resolve destDir = some dest ∧
      host.resolve (PurePath.of install.destPath).parent = some dest ∧
      host.resolve ((PurePath.of install.appPath).join appPathUnitsSubdir) = some root ∧
      (host.pathExists (.of install.sourcePath) = true →
        ∃ source, host.resolve (.of install.sourcePath) = some source ∧
          source.isRelativeTo root = true)

/-- What the checks of both let through. -/
structure Host.Passes (host : Host) (destDir : PurePath) (force : Bool) (diffs : List UnitDiff) :
    Prop where
  safe : ∀ diff ∈ diffs, host.safe destDir diff.install
  present : ∀ diff ∈ diffs, diff.state ≠ .missingSource
  forced : force = true ∨ ∀ diff ∈ diffs, diff.state ≠ .drifted

/-- The effects of a history are those of its parts in order. -/
theorem effects_append (es es' : History ApplyCall.Answer) :
    host.effects (es ++ es') = host.effects es ++ host.effects es' :=
  List.flatMap_append

/-- A call without effects. -/
theorem effects_snoc {e : Sigma ApplyCall.Answer} (he : host.effectsOf e = []) :
    host.effects (h ++ [e]) = host.effects h := by
  have hsingle : host.effects [e] = [] := (List.flatMap_singleton _ e).trans he
  rw [effects_append, hsingle, List.append_nil]

section

variable {α : Type} {f : PurePath → ApplyM α} {Q : α → History ApplyCall.Answer → Prop}
  {E : ApplyError → History ApplyCall.Answer → Prop}

/-- The rule of `Path.resolve()`. -/
theorem ends_resolvePath {path : PurePath}
    (hsome : ∀ p h', host.resolve path = some p → host.effects h' = host.effects h →
      (f p).Ends host.answers h' Q E)
    (hnone : ∀ h', host.resolve path = none → E .raised h') :
    (resolvePath path >>= f).Ends host.answers h Q E := by
  rw [ends_bind, resolvePath, ends_bind, ends_ask]
  intro answer hanswer
  cases answer with
  | some p => exact hsome p _ hanswer.symm (effects_snoc rfl)
  | none => exact hnone _ hanswer.symm

end

/-- The path check lets only safe units pass and has no effect. -/
theorem validateUnitPathSafety_ends (destDir : PurePath) (install : ScheduledUnitInstall) :
    (validateUnitPathSafety destDir install).Ends host.answers h
      (fun _ h' => host.safe destDir install ∧ host.effects h' = host.effects h)
      fun _ _ => ¬host.safe destDir install := by
  unfold validateUnitPathSafety
  split
  -- The name is not safe.
  · rename_i hname
    exact fun hsafe => Bool.false_ne_true (hsafe.1.symm.trans hname)
  rename_i hname
  rw [Bool.not_eq_true] at hname
  -- The destination directory, as it is and as it resolves, has to be the same place.
  refine ends_resolvePath (fun dest h₁ hdest heffects₁ => ?_) ?_
  case refine_2 =>
    rintro _ hnone ⟨-, dest, -, hdest, -⟩
    cases hnone.symm.trans hdest
  refine ends_resolvePath (fun actual h₂ hactual heffects₂ => ?_) ?_
  case refine_2 =>
    rintro _ hnone ⟨-, dest, -, -, hactual, -⟩
    cases hnone.symm.trans hactual
  split
  · rename_i hne
    rintro ⟨-, dest', -, hdest', hactual', -⟩
    rw [hdest] at hdest'
    rw [hactual] at hactual'
    exact hne (Option.some.inj (hactual'.trans hdest'.symm))
  rename_i heq
  rw [not_not] at heq
  subst heq
  -- The source directory is resolved, whether the source exists or not.
  refine ends_resolvePath (fun root h₃ hroot heffects₃ => ?_) ?_
  case refine_2 =>
    rintro _ hnone ⟨-, -, root, -, -, hroot, -⟩
    cases hnone.symm.trans hroot
  rw [ends_bind, ends_ask]
  intro exists_ hexists
  have heffects₄ : host.effects (h₃ ++ [⟨.pathExists (.of install.sourcePath), exists_⟩]) =
      host.effects h :=
    (effects_snoc rfl).trans (heffects₃.trans (heffects₂.trans heffects₁))
  have hexists' : exists_ = host.pathExists (.of install.sourcePath) := hexists
  -- Only a source that exists is compared with its root.
  cases exists_ with
  | false =>
    refine ⟨⟨hname, actual, root, hdest, hactual, hroot, fun htrue => ?_⟩, heffects₄⟩
    exact absurd (hexists'.trans htrue) Bool.false_ne_true
  | true =>
    refine ends_resolvePath (fun source h₅ hsource heffects₅ => ?_) ?_
    case refine_2 =>
      rintro _ hnone ⟨-, -, root, -, -, -, hsource⟩
      obtain ⟨source, hsource, -⟩ := hsource hexists'.symm
      cases hnone.symm.trans hsource
    cases hrelative : source.isRelativeTo root with
    | false =>
      rintro ⟨-, -, root', -, -, hroot', hlinked⟩
      obtain ⟨source', hsource', hrelative'⟩ := hlinked hexists'.symm
      rw [hroot] at hroot'
      rw [hsource] at hsource'
      cases hroot'
      cases hsource'
      exact Bool.false_ne_true (hrelative.symm.trans hrelative')
    | true =>
      exact ⟨⟨hname, actual, root, hdest, hactual, hroot, fun _ => ⟨source, hsource, hrelative⟩⟩,
        heffects₅.trans heffects₄⟩

/-- The checks of both pass exactly the diffs that `Passes` describes. -/
theorem checkDiffs_ends (destDir : PurePath) (missingText driftedText : Message → Message) :
    (checkDiffs destDir missingText driftedText force diffs).Ends host.answers h
      (fun _ h' => host.Passes destDir force diffs ∧ host.effects h' = host.effects h)
      fun _ _ => ¬host.Passes destDir force diffs := by
  unfold checkDiffs
  rw [ends_bind]
  -- The loop over the units, each of which is safe or the call is refused.
  refine (Ends.foldlM (I := fun done _ h' => (∀ diff ∈ done, host.safe destDir diff.install) ∧
    host.effects h' = host.effects h) [] ⟨nofun, rfl⟩ fun done diff rest _ h₁ hsplit hdone => ?_).mono
      (fun _ h₁ hsafe => ?_) fun _ _ => id
  · refine (validateUnitPathSafety_ends destDir diff.install).mono ?_ ?_
    · rintro - h₂ ⟨hsafe, heffects⟩
      refine ⟨?_, heffects.trans hdone.2⟩
      intro diff' hmem
      rcases List.mem_append.mp hmem with hmem | hmem
      · exact hdone.1 diff' hmem
      · rw [List.mem_singleton.mp hmem]
        exact hsafe
    · intro _ _ hnot hpasses
      have hmem : diff ∈ diffs := by
        rw [List.nil_append] at hsplit
        rw [hsplit]
        exact List.mem_append_right _ List.mem_cons_self
      exact hnot (hpasses.safe diff hmem)
  obtain ⟨hsafe, heffects⟩ := hsafe
  -- No source may be missing.
  split
  · rename_i hmissing
    obtain ⟨diff, hdiff, hstate⟩ := List.any_eq_true.mp hmissing
    exact fun hpasses => hpasses.present diff hdiff (of_decide_eq_true hstate)
  rename_i hmissing
  have hpresent : ∀ diff ∈ diffs, diff.state ≠ .missingSource := fun diff hdiff hstate =>
    hmissing (List.any_eq_true.mpr ⟨diff, hdiff, decide_eq_true hstate⟩)
  -- No unit may have drifted, unless the call is forced.
  split
  · rename_i hdrifted
    rw [Bool.and_eq_true, Bool.not_eq_true'] at hdrifted
    obtain ⟨diff, hdiff, hstate⟩ := List.any_eq_true.mp hdrifted.2
    intro hpasses
    rcases hpasses.forced with hforce | hnone
    · exact Bool.false_ne_true (hdrifted.1.symm.trans hforce)
    · exact hnone diff hdiff (of_decide_eq_true hstate)
  · rename_i hdrifted
    refine ⟨⟨hsafe, hpresent, ?_⟩, heffects⟩
    cases hforce : force with
    | true => exact Or.inl rfl
    | false =>
      refine Or.inr fun diff hdiff hstate => hdrifted ?_
      rw [hforce]
      exact List.any_eq_true.mpr ⟨diff, hdiff, decide_eq_true hstate⟩

/-! ## Without the helper -/

/-- The file that a copy writes, of a source that can be read to a destination that can be written. -/
inductive Host.Copies (host : Host) (file : Str × Str) : Effect → Prop
  | mk {source dir : PurePath} {data : ByteArray} (hsource : host.strict (.of file.1) = .path source)
      (hdest : host.strict (PurePath.of file.2).parent = .path dir)
      (hread : host.holds source = .bytes data)
      (hwrite : host.write dir (unitName file.2) = .done) :
      Copies host file (.unit dir (unitName file.2) data)

/-- No source is one of the files that are written. -/
def SourcesApart (host : Host) (files : List (Str × Str)) : Prop :=
  ∀ file ∈ files, ∀ file' ∈ files, ∀ source dir, host.strict (.of file.1) = .path source →
    host.strict (PurePath.of file'.2).parent = .path dir → fileAt dir (unitName file'.2) ≠ source

/-- What follows the units: they are reloaded, and their timers enabled. -/
def followUp (installs : List ScheduledUnitInstall) : List Effect :=
  (if installs = [] then [] else [.reload]) ++
    (installs.filter (·.isTimer)).map fun install => .enable install.unitName

/-- A copy of a file has one effect. -/
theorem Host.Copies.unique {file : Str × Str} {e e' : Effect} (he : host.Copies file e)
    (he' : host.Copies file e') : e = e' := by
  obtain ⟨hsource, hdest, hread, -⟩ := he
  obtain ⟨hsource', hdest', hread', -⟩ := he'
  cases hsource.symm.trans hsource'
  cases hdest.symm.trans hdest'
  cases hread.symm.trans hread'
  rfl

/-- `systemctl` exits with zero. -/
def Host.Succeeds (host : Host) : Prop := ∀ args, ∃ stderr, host.systemctl args = .exited 0 stderr

/-- A systemctl command that succeeds has the effects of its arguments. -/
theorem runSystemctl_ends (hsystemctl : host.Succeeds) (args : List Str) :
    (runSystemctl args).Ends host.answers h
      (fun _ h' => host.effects h' = host.effects h ++ effectsOfCommand args) fun _ _ => False := by
  rw [runSystemctl, ends_bind, ends_ask]
  intro answer hanswer
  obtain ⟨stderr, hexited⟩ := hsystemctl args
  obtain rfl : answer = .exited 0 stderr := hanswer.trans hexited
  show host.effects (h ++ [⟨.systemctl args, .exited 0 stderr⟩]) = _
  rw [effects_append]
  exact congrArg _ (List.flatMap_singleton _ _)

/-- The units of the diffs that are done were copied, and nothing else was done. -/
structure CopiedUnits (host : Host) (force : Bool) (done : List UnitDiff)
    (acc : List ScheduledUnitInstall × List ScheduledUnitInstall)
    (calls : History ApplyCall.Answer) : Prop where
  written : acc.1 = written force done
  units : List.Forall₂ host.Copies (filesOf (Install.written force done)) (host.effects calls)

/-- A unit that is written adds its file to those written. -/
theorem filesOf_written_append {done : List UnitDiff} {diff : UnitDiff}
    (hwrites : diff.writes force = true) : filesOf (written force (done ++ [diff])) =
      filesOf (written force done) ++ [(diff.install.sourcePath, diff.install.destPath)] := by
  rw [written_append, if_pos hwrites, filesOf, List.map_append]
  rfl

/-- Copying one more unit keeps the effects in step with the units copied. -/
theorem copyUnit_ends {done : List UnitDiff} {diff : UnitDiff}
    {acc : List ScheduledUnitInstall × List ScheduledUnitInstall}
    (hacc : CopiedUnits host force done acc h)
    (hcopies : diff.writes force = true →
      ∃ e, host.Copies (diff.install.sourcePath, diff.install.destPath) e)
    (hapart : SourcesApart host (filesOf (written force (done ++ [diff])))) :
    (copyUnit force acc diff).Ends host.answers h (CopiedUnits host force (done ++ [diff]))
      fun _ _ => False := by
  unfold copyUnit
  split
  · rename_i hwrites
    -- The source has not been overwritten by an earlier copy, so its data is the host's.
    have hfiles : filesOf (written force (done ++ [diff])) = _ := filesOf_written_append hwrites
    obtain ⟨_, @⟨source, dir, data, hsource, hdest, hread, hwrite⟩⟩ := hcopies hwrites
    have huntouched : Untouched (host.effects h) source := by
      intro dir' name data' hmem
      obtain ⟨file, hfile, -, @⟨_, _, _, -, hdest', -, -⟩⟩ := exists_of_mem_right hacc.units hmem
      rw [hfiles] at hapart
      exact hapart _ (List.mem_append_right _ List.mem_cons_self) file (List.mem_append_left _ hfile)
        source dir' hsource hdest'
    rw [ends_bind, ends_ask]
    intro answer hanswer
    obtain rfl : answer = .copied data := hanswer source dir data hsource hdest huntouched hread hwrite
    rw [ends_bind, ends_ask]
    intro changed hchanged
    obtain rfl : changed = some () := hchanged dir hdest hwrite
    refine ⟨?_, ?_⟩
    · rw [written_append, if_pos hwrites, hacc.written]
    · rw [effects_snoc rfl, effects_append, hfiles]
      refine List.rel_append hacc.units ?_
      have heffect : host.effects [⟨.copy (.of diff.install.sourcePath) (.of diff.install.destPath),
          .copied data⟩] = [.unit dir (unitName diff.install.destPath) data] := by
        refine (List.flatMap_singleton _ _).trans ?_
        rw [Host.effectsOf, hdest]
        rfl
      rw [heffect]
      exact .cons ⟨hsource, hdest, hread, hwrite⟩ .nil
  -- A unit that is up to date has nothing to copy.
  · rename_i hwrites
    have hsame : written force (done ++ [diff]) = written force done := by
      rw [written_append, if_neg hwrites, List.append_nil]
    split
    · exact ⟨hacc.written.trans hsame.symm, hsame ▸ hacc.units⟩
    · exact ⟨hacc.written.trans hsame.symm, hsame ▸ hacc.units⟩

/-- Enabling the units enables their timers, in order. -/
theorem enableUnits_ends (hsystemctl : host.Succeeds) (installs : List ScheduledUnitInstall) :
    (installs.foldlM enableUnit []).Ends host.answers h
      (fun _ h' => host.effects h' = host.effects h ++
        (installs.filter (·.isTimer)).map fun install => .enable install.unitName)
      fun _ _ => False := by
  refine Ends.foldlM (I := fun (done : List ScheduledUnitInstall) _ h' => host.effects h' =
    host.effects h ++ (done.filter (·.isTimer)).map fun install => .enable install.unitName) []
      (List.append_nil _).symm fun done install rest _ h₁ _ hdone => ?_
  unfold enableUnit
  rw [List.filter_append, List.map_append, ← List.append_assoc, ← hdone]
  -- Only timers are enabled.
  cases htimer : install.isTimer with
  | true =>
    rw [if_pos rfl, ends_bind]
    refine (runSystemctl_ends hsystemctl _).mono (fun _ h₂ heffects => ?_) fun _ _ => id
    rw [List.filter_cons_of_pos htimer]
    exact heffects
  | false =>
    rw [if_neg Bool.false_ne_true, List.filter_cons_of_neg (by rw [htimer]; exact Bool.false_ne_true)]
    exact (List.append_nil _).symm

/-- The files written so far are among those of the whole plan. -/
theorem written_subset {done rest : List UnitDiff} (hsplit : diffs = done ++ rest) :
    filesOf (written force done) ⊆ filesOf (written force diffs) := by
  rw [hsplit, written, written, List.filter_append, List.map_append, filesOf, filesOf, List.map_append]
  exact List.subset_append_left _ _

/-- Diffs that pass the checks and can be copied are. -/
theorem applyUnitDiffs_ends (hsystemctl : host.Succeeds)
    (hpasses : host.Passes systemdDestDir force diffs) {units : List Effect}
    (hcopies : List.Forall₂ host.Copies (filesOf (written force diffs)) units)
    (hapart : SourcesApart host (filesOf (written force diffs))) :
    (applyUnitDiffs systemdDestDir force diffs).Ends host.answers []
      (fun _ h => host.effects h = units ++ followUp (written force diffs)) fun _ _ => False := by
  unfold applyUnitDiffs
  rw [ends_bind]
  refine (checkDiffs_ends _ _ _).mono (fun _ h₁ hchecked => ?_) fun _ _ hnot => hnot hpasses
  have hnothing : host.effects h₁ = [] := hchecked.2
  rw [ends_bind]
  -- The copies, in the order of the diffs.
  refine (Ends.foldlM (I := CopiedUnits host force) [] ⟨rfl, hnothing ▸ .nil⟩
    fun done diff rest acc h₂ hsplit hacc => ?_).mono (fun acc h₂ hacc => ?_) fun _ _ => id
  · have hsplit' : diffs = (done ++ [diff]) ++ rest := by
      rw [List.append_assoc]
      exact hsplit
    have hsubset : filesOf (written force (done ++ [diff])) ⊆ filesOf (written force diffs) :=
      written_subset hsplit'
    refine copyUnit_ends hacc (fun hwrites => ?_) fun file hfile file' hfile' =>
      hapart file (hsubset hfile) file' (hsubset hfile')
    have hfile : (diff.install.sourcePath, diff.install.destPath) ∈ filesOf (written force diffs) := by
      refine hsubset ?_
      rw [filesOf_written_append hwrites]
      exact List.mem_append_right _ List.mem_cons_self
    obtain ⟨e, -, -, he⟩ := exists_of_mem_right hcopies.flip hfile
    exact ⟨e, he⟩
  rw [List.nil_append] at hacc
  -- A copy has one effect, so the effects are those the caller named.
  have hunique : Relator.RightUnique host.Copies := fun _ _ _ => Host.Copies.unique
  have hunits : host.effects h₂ = units := List.right_unique_forall₂' hunique hacc.units hcopies
  dsimp only
  rw [hacc.written]
  -- Something was written, so systemd is reloaded before the timers are enabled.
  split
  · rename_i hsome
    rw [ends_bind]
    refine (runSystemctl_ends hsystemctl _).mono (fun _ h₃ hreloaded => ?_) fun _ _ => id
    rw [ends_bind]
    refine (enableUnits_ends hsystemctl _).mono (fun enabled h₄ heffects => ?_) fun _ _ => id
    show host.effects h₄ = _
    rw [heffects, hreloaded, hunits, followUp, if_neg hsome, List.append_assoc]
    rfl
  · rename_i hnone
    rw [ends_bind]
    refine (enableUnits_ends hsystemctl _).mono (fun enabled h₄ heffects => ?_) fun _ _ => id
    show host.effects h₄ = _
    rw [heffects, hunits, followUp, if_pos (not_not.mp hnone), List.nil_append]

/-! ## The helper -/

variable {manifest : Manifest} {resolved : ResolvedAllowlist} {c : Calls}

/-- What an operation does. -/
inductive Host.Executes (host : Host) : Operation → List Effect → Prop
  | installFile {op : InstallFileOp} {dir : PurePath} {data : ByteArray}
      (hcopies : host.Copies (op.sourcePath, op.destPath) (.unit dir (unitName op.destPath) data)) :
      Executes host (.installFile op) (.unit dir (unitName op.destPath) data ::
        op.marker.toList.map fun marker => .marker dir (unitName op.destPath) marker)
  | writeMarker {op : WriteMarkerOp} (dir : PurePath) :
      Executes host (.writeMarker op) [.marker dir (unitName op.destPath) op.marker]

/-- What a post-action does when it succeeds. -/
def PostAction.effects (action : PostAction) : List Effect := effectsOfCommand (postActionCmd action)

/-- The sources that are read are those of the operations. -/
def Held (host : Host) (done : List (Operation × ℕ)) (contents : List (ℕ × ByteArray)) : Prop :=
  ∀ op i, (Operation.installFile op, i) ∈ done → ∃ source data,
    host.strict (.of op.sourcePath) = .path source ∧ host.holds source = .bytes data ∧
      contents.lookup i = some data

/-- The effects of a helper's calls are those of its parts in order. -/
theorem served_append (es es' : Calls) : served (es ++ es') = served es ++ served es' :=
  List.flatMap_append

/-- A call without effect adds none. -/
theorem served_snoc {e : Sigma InstallCall.Answer} (he : effectsOfServed e = []) :
    served (c ++ [e]) = served c := by
  have hsingle : served [e] = [] := (List.flatMap_singleton _ e).trans he
  rw [served_append, hsingle, List.append_nil]

/-- What only looks has no effects. -/
theorem effectsOfServed_of_looks {e : Sigma InstallCall.Answer} (he : ¬e.1.Acts) :
    effectsOfServed e = [] := by
  obtain ⟨call, answer⟩ := e
  cases call with
  | writeFile | writeMarker | systemctl => exact absurd trivial he
  | _ => rfl

/-- A program that only looks has no effect. -/
theorem looks_ends {α : Type} {p : InstallM α} {Q : α → Prop} (hp : p.Makes (¬·.Acts) Q)
    {R : Rely InstallCall.Answer} :
    p.Ends R c (fun a c' => served c' = served c ∧ Q a) fun _ c' => served c' = served c := by
  have hnothing : ∀ es : Calls, (∀ e ∈ es, ¬e.1.Acts) → served (c ++ es) = served c := by
    intro es hes
    rw [served_append, served, served, List.flatMap_eq_nil_iff.mpr fun e he =>
      effectsOfServed_of_looks (hes e he), List.append_nil]
  refine (hp.ends R c).mono ?_ ?_
  · rintro a _ ⟨es, rfl, hes, ha⟩
    exact ⟨hnothing es hes, ha⟩
  · rintro - _ ⟨es, rfl, hes⟩
    exact hnothing es hes

/-- A source that is read is held by the host under its resolved path. -/
theorem readSource_ends (sourcePath : Str) :
    (readSource sourcePath resolved).Ends host.serves c
      (fun data _ => ∃ source, host.strict (.of sourcePath) = .path source ∧
        host.holds source = .bytes data) fun _ _ => True := by
  rw [readSource, ends_bind, resolve, ends_ask]
  -- The host answers both calls from one state of its files.
  intro found hfound
  cases found with
  | notFound | raised => trivial
  | path source =>
    dsimp only
    split
    · trivial
    rw [ends_bind, ends_ask]
    intro read hread
    cases read with
    | link | raised => trivial
    | bytes data =>
      dsimp only
      split
      · trivial
      · exact ⟨source, hfound.symm, hread.symm⟩

/-- Judging one more source keeps what is held in step with the host. -/
theorem judgeSource_ends {policy : RootPolicy} {done : List (Operation × ℕ)} {acc : Judgement}
    {item : Operation × ℕ} (hfresh : ∀ op, (op, item.2) ∉ done)
    (hindices : ∀ i, acc.1.lookup i ≠ none → ∃ op, (op, i) ∈ done)
    (hheld : acc.2 = [] → Held host done acc.1) :
    (judgeSource resolved policy acc item).Ends host.serves c
      (fun acc' _ => (∀ i, acc'.1.lookup i ≠ none → ∃ op, (op, i) ∈ done ++ [item]) ∧
        (acc'.2 = [] → Held host (done ++ [item]) acc'.1)) fun _ _ => True := by
  obtain ⟨op, i⟩ := item
  -- An index that is held belongs to an operation already seen.
  have hkeep : ∀ j, acc.1.lookup j ≠ none → ∃ op', (op', j) ∈ done ++ [(op, i)] := by
    intro j hj
    obtain ⟨op', hop'⟩ := hindices j hj
    exact ⟨op', List.mem_append_left _ hop'⟩
  unfold judgeSource
  cases op with
  -- A marker has no source.
  | writeMarker op =>
    refine ⟨hkeep, fun hnil op' j hmem => ?_⟩
    rcases List.mem_append.mp hmem with hold | hnew
    · exact hheld hnil op' j hold
    · cases (Prod.mk.inj (List.mem_singleton.mp hnew)).1
  | installFile op =>
    rw [ends_bind]
    refine (readSource_ends op.sourcePath).mono ?_ fun _ _ _ => trivial
    rintro data - ⟨source, hsource, hread⟩
    split
    · exact ⟨hkeep, fun hnil => absurd hnil (List.append_ne_nil_of_right_ne_nil _ (by simp))⟩
    split
    · trivial
    rename_i refusals _
    -- What is held under the index is this operation's, which no earlier one has.
    refine ⟨fun j hj => ?_, fun hnil op' j hmem => ?_⟩
    · by_cases hji : j = i
      · rw [hji]
        exact ⟨_, List.mem_append_right _ List.mem_cons_self⟩
      · refine hkeep j fun hno => hj ?_
        rw [List.lookup_append, hno]
        simp [hji]
    · obtain ⟨hacc, -⟩ := List.append_eq_nil_iff.mp hnil
      rcases List.mem_append.mp hmem with hold | hnew
      · obtain ⟨source', data', hsource', hread', hlookup⟩ := hheld hacc op' j hold
        exact ⟨source', data', hsource', hread', by rw [List.lookup_append, hlookup]; rfl⟩
      · obtain ⟨hop, rfl⟩ := Prod.mk.inj (List.mem_singleton.mp hnew)
        obtain rfl := Operation.installFile.inj hop
        have hnone : acc.1.lookup j = none := by
          by_contra hsome
          obtain ⟨op'', hop''⟩ := hindices j hsome
          exact hfresh op'' hop''
        refine ⟨source, data, hsource, hread, ?_⟩
        rw [List.lookup_append, hnone]
        simp

/-- What is accepted was read from the sources, and nothing was done for it. -/
theorem accept_holds (allowlist : List AllowlistEntry) :
    (accept allowlist resolved manifest).Ends host.serves []
      (fun contents c => served c = [] ∧ Held host manifest.operations.zipIdx contents)
      fun _ _ => True := by
  -- Accepting only looks.
  have hlooks : (accept allowlist resolved manifest).Makes (¬·.Acts) fun _ => True := by
    refine (onlyLooks_validateManifest manifest allowlist).bind fun _ _ => ?_
    refine (makes_ask id).bind fun read _ => ?_
    cases read with
    | raised | refused => trivial
    | policy policy =>
      exact (judgeSources_makes manifest resolved policy).mono (fun _ => id) fun _ _ => trivial
  -- What is held comes from the sources that were read.
  have hheld : (accept allowlist resolved manifest).Ends host.serves []
      (fun contents _ => Held host manifest.operations.zipIdx contents) fun _ _ => True := by
    unfold accept
    rw [ends_bind]
    refine (looks_ends (onlyLooks_validateManifest manifest allowlist)).mono (fun _ c₁ _ => ?_)
      fun _ _ _ => trivial
    rw [ends_bind, loadPolicy, ends_bind, ends_ask]
    intro read _
    cases read with
    | raised | refused => trivial
    | policy policy =>
      show (judgeSources manifest resolved policy).Ends _ _ _ _
      rw [judgeSources, ends_bind]
      refine (Ends.foldlM (I := fun done (acc : Judgement) _ =>
        (∀ i, acc.1.lookup i ≠ none → ∃ op, (op, i) ∈ done) ∧ (acc.2 = [] → Held host done acc.1)) []
          ⟨fun i hi => absurd rfl hi, fun _ _ _ hop => absurd hop List.not_mem_nil⟩ fun done item rest acc c₂ hsplit hacc =>
            judgeSource_ends (index_fresh hsplit) hacc.1 hacc.2).mono (fun acc c₂ hacc => ?_)
              fun _ _ _ => trivial
      dsimp only
      split
      · trivial
      · rename_i hreasons
        exact hacc.2 (not_not.mp hreasons)
  refine ((looks_ends hlooks).and hheld).mono ?_ fun _ _ _ => trivial
  rintro contents c₁ ⟨⟨hnothing, -⟩, hcontents⟩
  exact ⟨hnothing, hcontents⟩

/-- Opening a destination gives its directory and has no effect. -/
theorem openDest_ends (destPath : Str) :
    (openDest destPath resolved).Ends host.serves c
      (fun dir c' => served c' = served c ∧
        host.strict (PurePath.of destPath).parent = .path dir.path) fun _ _ => True := by
  -- Opening only looks.
  have hmakes : (openDest destPath resolved).Makes (¬·.Acts) fun _ => True :=
    (openDest_makes destPath).mono (fun _ => id) fun _ _ => trivial
  have hlooks := looks_ends (c := c) (R := host.serves) hmakes
  -- What is opened is the directory that the parent resolves to.
  have hdir : (openDest destPath resolved).Ends host.serves c
      (fun dir _ => host.strict (PurePath.of destPath).parent = .path dir.path) fun _ _ => True := by
    rw [openDest, ends_bind, resolve, ends_ask]
    intro found hfound
    cases found with
    | notFound | raised => trivial
    | path parent =>
      dsimp only
      unfold openAndVerifyDestParent
      split
      · trivial
      rw [ends_bind, ends_ask]
      intro opened _
      cases opened with
      | raised => trivial
      | opened id =>
        dsimp only
        split
        · trivial
        · exact hfound.symm
  refine (hlooks.and hdir).mono ?_ fun _ _ _ => trivial
  rintro dir c' ⟨⟨hnothing, -⟩, hparent⟩
  exact ⟨hnothing, hparent⟩

/-- A write into an open directory has the one effect of the file it names. -/
theorem writeIntoDirFd_ends (dir : OpenDir) (name : Str) (data : ByteArray) :
    (writeIntoDirFd dir name data).Ends host.serves c
      (fun _ c' => host.write dir.path name = .done ∧
        served c' = served c ++ [.unit dir.path name data]) fun _ _ => True := by
  rw [writeIntoDirFd, ends_bind, ends_ask]
  intro written hwritten
  cases written with
  | link | raised => trivial
  | done =>
    refine ⟨hwritten.symm, ?_⟩
    rw [served_append]
    rfl

/-- A marker written into an open directory has the one effect of that marker. -/
theorem writeMarkerIntoDirFd_ends (dir : OpenDir) (unit : Str) (marker : MarkerMeta) :
    (writeMarkerIntoDirFd dir unit marker).Ends host.serves c
      (fun _ c' => served c' = served c ++ [.marker dir.path unit marker]) fun _ _ => True := by
  rw [writeMarkerIntoDirFd, ends_bind, ends_ask]
  intro written _
  cases written with
  | link | raised => trivial
  | done =>
    show served (c ++ [_]) = _
    rw [served_append]
    rfl

/-- An operation that is executed has its own effects. -/
theorem executeOperation_ends {contents : List (ℕ × ByteArray)} {acc : List Str × List Str}
    {item : Operation × ℕ} (hitem : Held host [item] contents) :
    (executeOperation resolved contents acc item).Ends host.serves c
      (fun _ c' => ∃ effects, host.Executes item.1 effects ∧ served c' = served c ++ effects)
      fun _ _ => True := by
  obtain ⟨op, i⟩ := item
  unfold executeOperation
  rw [ends_bind]
  refine (looks_ends (onlyLooks_checkManifestDeadline _ _)).mono (fun _ c₁ hdeadline => ?_)
    fun _ _ _ => trivial
  cases op with
  -- A marker by itself has no effect but the marker.
  | writeMarker op =>
    dsimp only
    rw [ends_bind, executeWriteMarkerOp, ends_bind]
    refine (openDest_ends op.destPath).mono (fun dir c₂ hopened => ?_) fun _ _ _ => trivial
    refine (writeMarkerIntoDirFd_ends dir _ _).mono (fun _ c₃ hmarked => ?_) fun _ _ _ => trivial
    refine ⟨_, .writeMarker dir.path, ?_⟩
    rw [hmarked, hopened.1, hdeadline.1]
  | installFile op =>
    -- A unit is written from what is held of its source.
    obtain ⟨source, data, hsource, hread, hlookup⟩ := hitem op i List.mem_cons_self
    dsimp only
    rw [ends_bind, executeInstallFileOp, ends_bind, hlookup]
    refine (openDest_ends op.destPath).mono (fun dir c₂ hopened => ?_) fun _ _ _ => trivial
    dsimp only
    rw [ends_bind, ends_pure, ends_bind]
    refine (writeIntoDirFd_ends dir _ _).mono ?_ fun _ _ _ => trivial
    rintro - c₃ ⟨hwrite, hwritten⟩
    have hexecutes : host.Executes (.installFile op) (.unit dir.path (unitName op.destPath) data ::
        op.marker.toList.map fun marker => .marker dir.path (unitName op.destPath) marker) :=
      .installFile ⟨hsource, hopened.2, hread, hwrite⟩
    -- The marker of a unit comes after the unit.
    cases hmarker : op.marker with
    | none =>
      rw [hmarker] at hexecutes
      refine ⟨_, hexecutes, ?_⟩
      rw [hwritten, hopened.1, hdeadline.1]
      rfl
    | some marker =>
      rw [hmarker] at hexecutes
      refine (writeMarkerIntoDirFd_ends dir _ _).mono (fun _ c₄ hmarked => ?_) fun _ _ _ => trivial
      refine ⟨_, hexecutes, ?_⟩
      rw [hmarked, hwritten, hopened.1, hdeadline.1, List.append_assoc]
      rfl

/-- A post action that is executed has its own effects. -/
theorem executePostAction_ends (hsystemctl : host.Succeeds) {action : PostAction}
    (haction : action.guarded = none) :
    (executePostAction action resolved).Ends host.serves c
      (fun _ c' => served c' = served c ++ action.effects) fun _ _ => True := by
  rw [executePostAction, haction]
  show (runPostAction action).Ends _ _ _ _
  rw [runPostAction, ends_bind, ends_ask]
  intro ran hran
  obtain ⟨stderr, hexited⟩ := hsystemctl (postActionCmd action)
  obtain rfl : ran = .exited 0 stderr := hran.trans hexited
  show served (c ++ [⟨.systemctl (postActionCmd action), .exited 0 stderr⟩]) = _
  rw [served_append]
  exact congrArg _ (List.flatMap_singleton _ _)

/-- The operations have their effects in the order of the manifest. -/
theorem executeOperations_ends {contents : List (ℕ × ByteArray)}
    (hheld : Held host manifest.operations.zipIdx contents) (hstart : served c = []) :
    (manifest.operations.zipIdx.foldlM (executeOperation resolved contents) ([], [])).Ends host.serves
      c (fun _ c' => ∃ effects, List.Forall₂ host.Executes manifest.operations effects ∧
        served c' = effects.flatten) fun _ _ => True := by
  -- The effects so far are those of the operations done so far.
  refine (Ends.foldlM (E := fun _ _ => True) (I := fun (done : List (Operation × ℕ)) _ c =>
    ∃ effects, List.Forall₂ host.Executes (done.map Prod.fst) effects ∧ served c = effects.flatten) []
      ⟨[], .nil, hstart⟩ fun done item rest acc c₁ hsplit hdone => ?_).mono
        (fun acc c₁ hops => ?_) fun _ _ => id
  · obtain ⟨effects, hexecuted, hserved⟩ := hdone
    have hitem : Held host [item] contents := by
      intro op i hmem
      refine hheld op i ?_
      rw [List.nil_append] at hsplit
      rw [hsplit, List.mem_singleton.mp hmem]
      exact List.mem_append_right _ List.mem_cons_self
    refine (executeOperation_ends hitem).mono ?_ fun _ _ _ => trivial
    rintro - c₂ ⟨added, hadded, hserved'⟩
    refine ⟨effects ++ [added], ?_, ?_⟩
    · rw [List.map_append]
      exact List.rel_append hexecuted (.cons hadded .nil)
    · rw [hserved', hserved, List.flatten_append, List.flatten_singleton]
  · rwa [List.nil_append, List.zipIdx_map_fst] at hops

/-- The post actions have their effects in the order of the manifest. -/
theorem executeActions_ends (hsystemctl : host.Succeeds)
    (hactions : ∀ action ∈ manifest.postActions, action.guarded = none) :
    (manifest.postActions.zipIdx.foldlM (executeAction resolved) []).Ends host.serves c
      (fun _ c' => served c' = served c ++ manifest.postActions.flatMap (·.effects))
      fun _ _ => True := by
  -- One more action adds its effects at the end.
  refine (Ends.foldlM (E := fun _ _ => True) (I := fun (done : List (PostAction × ℕ)) _ c' =>
    served c' = served c ++ (done.map Prod.fst).flatMap (·.effects)) [] (List.append_nil _).symm
      fun done item rest results c₁ hsplit hdone => ?_).mono (fun results c₁ hserved => ?_)
        fun _ _ => id
  · have hmem : item.1 ∈ manifest.postActions := by
      rw [List.nil_append] at hsplit
      have hzip : item ∈ manifest.postActions.zipIdx := by
        rw [hsplit]
        exact List.mem_append_right _ List.mem_cons_self
      rw [← List.zipIdx_map_fst 0 manifest.postActions]
      exact List.mem_map_of_mem hzip
    unfold executeAction
    rw [ends_bind]
    refine (looks_ends (onlyLooks_checkManifestDeadline _ _)).mono (fun _ c₂ hdeadline => ?_)
      fun _ _ _ => trivial
    rw [ends_bind]
    refine (executePostAction_ends hsystemctl (hactions _ hmem)).mono (fun r c₃ hran => ?_)
      fun _ _ _ => trivial
    show served c₃ = _
    rw [hran, hdeadline.1, hdone, List.map_append, List.flatMap_append, List.append_assoc]
    exact congrArg _ (congrArg _ (List.flatMap_singleton _ _).symm)
  · rwa [List.nil_append, List.zipIdx_map_fst] at hserved

/-- The helper did what the manifest says. -/
def Executed (host : Host) (manifest : Manifest) (c : Calls) : Prop :=
  ∃ effects, List.Forall₂ host.Executes manifest.operations effects ∧
    served c = effects.flatten ++ manifest.postActions.flatMap (·.effects)

/-- A manifest has the effects of its operations and then of its actions. -/
theorem executeManifest_ends (hsystemctl : host.Succeeds) {contents : List (ℕ × ByteArray)}
    (hactions : ∀ action ∈ manifest.postActions, action.guarded = none)
    (hheld : Held host manifest.operations.zipIdx contents) (hstart : served c = []) :
    (executeManifest manifest resolved contents).Ends host.serves c
      (fun _ c' => Executed host manifest c') fun _ _ => True := by
  rw [executeManifest, ends_bind]
  refine (executeOperations_ends hheld hstart).mono ?_ fun _ _ => id
  rintro acc c₁ ⟨effects, hexecuted, hserved⟩
  dsimp only
  rw [ends_bind]
  refine (executeActions_ends hsystemctl hactions).mono (fun results c₂ hserved' => ?_) fun _ _ => id
  exact ⟨effects, hexecuted, hserved'.trans (congrArg (· ++ _) hserved)⟩

/-- What the helper does for a manifest that it accepts. -/
theorem handleManifest_ends (hsystemctl : host.Succeeds) (allowlist : List AllowlistEntry)
    (hactions : ∀ action ∈ manifest.postActions, action.guarded = none) :
    (handleManifest allowlist resolved manifest).Ends host.serves []
      (fun response c => ∀ installed markers results, response = .ok installed markers results →
        Executed host manifest c) fun _ _ => True := by
  unfold handleManifest
  rw [ends_bind, ends_attempt]
  refine (accept_holds allowlist).mono ?_ fun e _ _ => ?_
  case refine_2 =>
    cases e with
    | raised | timedOut => trivial
    -- A manifest that is rejected has nothing executed.
    | rejected =>
      intro _ _ _ h
      cases h
  rintro contents c₁ ⟨hnothing, hheld⟩
  dsimp only
  unfold execute
  rw [ends_bind, ends_ask]
  intro lock _
  -- Without the lock nothing is executed.
  cases lock with
  | raised => trivial
  | busy =>
    intro _ _ _ h
    cases h
  | taken =>
    -- Up to here the helper has only looked.
    have hstart : served (c₁ ++ [(⟨.lock, .taken⟩ : Sigma InstallCall.Answer)]) = [] :=
      (served_snoc rfl).trans hnothing
    dsimp only
    rw [ends_bind, ends_attempt]
    refine (executeManifest_ends hsystemctl hactions hheld hstart).mono
      (fun _ c₂ hexecuted _ _ _ _ => hexecuted) fun e _ _ => ?_
    cases e with
    | raised => trivial
    | rejected | timedOut =>
      intro _ _ _ h
      cases h

end Fraisier.Install
