import Fraisier.Scaffold.Consistent

/-!
# The files that a policy makes root read

A built policy grants the files that `EnvironmentFile=` and `LoadCredential=` name, except where the
name starts with that of a file or a directory that is never readable. The kernel does not read names
so: `no_secret_iff` says of which names none that is granted leads to such a file.
-/

namespace Fraisier.Scaffold

open Fraisier.Lib Str Fraisier.Unit

/-! ## What a path denotes -/

/-- The components that the kernel follows from the root: none for an empty one or a dot, and one less
for two dots. -/
def resolved (path : Str) : List Str := ((path.splitOn '/').foldl (normStep ['/']) []).reverse

/-- The path that they make from the root. -/
def resolvedText (path : Str) : Str := '/' :: List.intercalate ['/'] (resolved path)

/-- The path leads to the file, to what is below the directory, where the name ends with a slash, or to
a file whose name goes on after that, as `/etc/sudoers.d` does. -/
def denotes (path entry : Str) : Bool := (resolvedText path).startsWith entry

/-- The path denotes what is never readable. -/
def denotesSecret (path : Str) : Bool := neverReadable.any fun entry => denotes path entry.toList

example : denotesSecret "/etc/./shadow".toList = true ∧ denotesSecret "/srv/../root/x".toList = true ∧
    denotesSecret "//etc/sudoers.d/app".toList = true ∧ denotesSecret "/root/..".toList = false := by
  decide

/-- The name of the path starts with that of what is never readable. -/
def spelledOut (path : Str) : Bool := neverReadable.any fun entry => path.startsWith entry.toList

/-! ## What the units name -/

/-- The path that an assignment makes root read. -/
def namedPath (directive : Str × Str × Str) : Option Str :=
  if directive.1 = "Service".toList ∧
      isOneOf ["EnvironmentFile", "LoadCredential"] directive.2.1 then
    some (readPath directive.2.1 directive.2.2)
  else none

/-- The paths that units make root read. -/
def pathsNamed (texts : List Str) : List Str := (texts.flatMap unitDirectives).filterMap namedPath

/-- The units that `build_policy` observes: those of the render that a deploy may change, and the
app's own. -/
def observedTexts (input : BuildInput) : List Str :=
  ((hostArtifacts input.payload input.hostname).map fun chosen =>
    (chosen.foldl (collect input.readSource) {}).candidates.entries.map (·.2.2) ++
      input.appUnits.entries.map (·.2)).getD []

/-- The path is granted, if a unit names it. -/
def readable (path : Str) : Bool := path.isAbs && !spelledOut path

variable {trees : List Str} {uidOf gidOf : Str → Option ℕ}

/-- An assignment of a key that is none of the two names nothing. -/
theorem namedPath_none {section_ key value : Str} (h : section_ ≠ "Service".toList ∨
    isOneOf ["EnvironmentFile", "LoadCredential"] key ≠ true) :
    namedPath (section_, key, value) = none := by
  unfold namedPath
  rw [if_neg]
  rintro ⟨hsection, hkey⟩
  obtain hother | hother := h
  · exact hother hsection
  · exact hother hkey

/-- No key of a command reads a file. -/
theorem execKeys_read : ∀ name ∈ execKeys,
    isOneOf ["EnvironmentFile", "LoadCredential"] name.toList = false := by
  decide

/-- What one assignment adds. -/
theorem observeDirective_readPaths {seen seen' : Observed} {directive : Str × Str × Str}
    (h : observeDirective trees uidOf gidOf seen directive = some seen') :
    seen'.readPaths = seen.readPaths ++ (namedPath directive).toList.filter readable := by
  obtain ⟨section_, key, value⟩ := directive
  unfold observeDirective at h
  dsimp only at h
  split_ifs at h with hsection huser hgroup hexec hread hgranted hdirectory
  -- The sections and keys that name no file to read.
  · rw [namedPath_none (.inl hsection), ← Option.some.inj h]
    exact (List.append_nil _).symm
  · obtain ⟨root, -, rfl⟩ := Option.map_eq_some_iff.mp h
    rw [namedPath_none (.inr (by rw [huser]; decide))]
    cases root <;> exact (List.append_nil _).symm
  · obtain ⟨root, -, rfl⟩ := Option.map_eq_some_iff.mp h
    rw [namedPath_none (.inr (by rw [hgroup]; decide))]
    cases root <;> exact (List.append_nil _).symm
  · have hnot : isOneOf ["EnvironmentFile", "LoadCredential"] key ≠ true := by
      obtain ⟨name, hname, hkey⟩ := List.any_eq_true.mp hexec
      rw [← of_decide_eq_true hkey, execKeys_read name hname]
      decide
    rw [namedPath_none (.inr hnot), ← Option.some.inj h]
    exact (List.append_nil _).symm
  -- A file that is granted is added.
  · have hnamed : namedPath (section_, key, value) = some (readPath key value) := by
      unfold namedPath
      exact if_pos ⟨not_not.mp hsection, hread⟩
    rw [hnamed, ← Option.some.inj h, Option.toList_some, List.filter_cons_of_pos]
    · rfl
    · exact hgranted
  -- A file that is not granted is left out.
  · have hnamed : namedPath (section_, key, value) = some (readPath key value) := by
      unfold namedPath
      exact if_pos ⟨not_not.mp hsection, hread⟩
    rw [hnamed, ← Option.some.inj h, Option.toList_some, List.filter_cons_of_neg]
    · exact (List.append_nil _).symm
    · exact hgranted
  · rw [namedPath_none (.inr hread), ← Option.some.inj h]
    exact (List.append_nil _).symm
  · rw [namedPath_none (.inr hread), ← Option.some.inj h]
    exact (List.append_nil _).symm

/-- The paths that are observed are those that are named and readable. -/
theorem observe_readPaths {texts : List Str} {seen : Observed}
    (h : observe texts trees uidOf gidOf = some seen) :
    seen.readPaths = (pathsNamed texts).filter readable := by
  refine foldlM_option (I := fun done seen =>
    seen.readPaths = (done.filterMap namedPath).filter readable) h rfl ?_
  intro done directive seen seen' hseen hstep
  rw [observeDirective_readPaths hstep, hseen, List.filterMap_append, List.filter_append]
  cases hnamed : namedPath directive <;> simp [hnamed]

variable {input : BuildInput} {draft : PolicyDraft}

/-- The files that a built policy makes root read. -/
theorem buildPolicy_readPaths (h : buildPolicy input = .ok draft) :
    draft.policy.readPaths = (pathsNamed (observedTexts input)).filter readable := by
  unfold buildPolicy at h
  unfold observedTexts
  cases hchosen : hostArtifacts input.payload input.hostname with
  | none => simp [hchosen] at h
  | some chosen =>
    simp only [hchosen] at h
    obtain ⟨seen, hseen, h⟩ := of_orRaised_bind h
    obtain ⟨granted, -, h⟩ := of_orRaised_bind h
    obtain ⟨notes, -, h⟩ := of_orRaised_bind h
    obtain rfl := Except.ok.inj h
    exact observe_readPaths hseen

/-- No path that a built policy makes root read denotes what is never readable, exactly when each that
does, of those that the observed units name, starts with its name. -/
theorem no_secret_iff (h : buildPolicy input = .ok draft) :
    (∀ path ∈ draft.policy.readPaths, denotesSecret path = false) ↔
      ∀ path ∈ pathsNamed (observedTexts input), path.isAbs = true → denotesSecret path = true →
        spelledOut path = true := by
  rw [buildPolicy_readPaths h]
  simp only [List.mem_filter, readable, Bool.and_eq_true, Bool.not_eq_true', and_imp]
  refine forall₂_congr fun path _ => ?_
  -- A path is left out of what is read exactly when it is spelled out.
  constructor
  · intro hgranted habs hsecret
    by_contra hspelled
    rw [hgranted habs (by simpa using hspelled)] at hsecret
    cases hsecret
  · intro hnamed habs hspelled
    by_contra hsecret
    rw [hnamed habs (by simpa using hsecret)] at hspelled
    cases hspelled

/-- The render of an app, with a unit of the app's own. -/
def appInputWith (text : String) : BuildInput :=
  { appInput [appArtifact] with
    appUnits := (∅ : AList fun _ : Str => Str).insert "job.service".toList text.toList }

set_option maxRecDepth 100000 in
/-- A doubled slash is enough. -/
theorem grants_shadow : ∃ draft,
    buildPolicy (appInputWith "[Service]\nUser=app\nEnvironmentFile=/etc//shadow\n") = .ok draft ∧
      ¬∀ path ∈ draft.policy.readPaths, denotesSecret path = false := by
  obtain ⟨draft, hdraft, htest⟩ := buildPolicy_of_built
    (appInputWith "[Service]\nUser=app\nEnvironmentFile=/etc//shadow\n")
    (fun policy => policy.readPaths.any denotesSecret) (by decide)
  refine ⟨draft, hdraft, fun hnone => ?_⟩
  obtain ⟨path, hpath, hsecret⟩ := List.any_eq_true.mp htest
  rw [hnone path hpath] at hsecret
  cases hsecret

set_option maxRecDepth 100000 in
/-- The plain spelling is refused. -/
theorem no_secret_iff_spelled : ∃ draft,
    buildPolicy (appInputWith "[Service]\nUser=app\nEnvironmentFile=/etc/shadow\n") = .ok draft ∧
      ((∀ path ∈ draft.policy.readPaths, denotesSecret path = false) ↔
        ∀ path ∈ pathsNamed (observedTexts
            (appInputWith "[Service]\nUser=app\nEnvironmentFile=/etc/shadow\n")),
          path.isAbs = true → denotesSecret path = true → spelledOut path = true) := by
  obtain ⟨draft, hdraft, -⟩ := buildPolicy_of_built
    (appInputWith "[Service]\nUser=app\nEnvironmentFile=/etc/shadow\n") (fun _ => true) (by decide)
  exact ⟨draft, hdraft, no_secret_iff hdraft⟩

end Fraisier.Scaffold
