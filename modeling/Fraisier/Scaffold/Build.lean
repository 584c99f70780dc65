import Fraisier.Scaffold.Artifacts
import Fraisier.Unit.Validator

/-!
# Building the root policy

`root_policy_build.py`: the policy that `scaffold-install` writes, from the render that an operator
approved. What it grants is read off the units of the render and of the app; a unit that it does
not let a deploy change is listed for an operator. The lookups of users and groups and the files of
the render are given.
-/

namespace Fraisier.Scaffold

open Fraisier.Lib Str Fraisier.Unit

/-- `_GRANTABLE`. -/
def grantable (disposition : Str) : Option Action :=
  lookup [("plain", .plain), ("timer", .timer), ("webhook", .webhook),
    ("helper_rebake", .installHelper)] disposition

/-- `_NEVER_READABLE`. -/
def neverReadable : List String :=
  ["/etc/shadow", "/etc/gshadow", "/etc/sudoers", "/etc/ssh/", "/root/"]

/-- The arguments of `build_policy`. -/
structure BuildInput where
  project : Str
  scaffoldDir : Str
  payload : RenderManifest
  hostname : Str
  readSource : Str → Option Str
  appUnits : AList fun _ : Str => Str
  trees : List Str
  uidOf : Str → Option ℕ
  gidOf : Str → Option ℕ

/-- How a build fails. -/
inductive BuildError
  /-- `PolicyBuildError`. -/
  | refused (message : Message)
  /-- A `ValueError` of `int`. -/
  | raised
  deriving DecidableEq, Repr

/-- A value, unless `int` raised on the way to it. -/
def orRaised {α : Type} : Option α → Except BuildError α
  | none => .error .raised
  | some a => .ok a

/-! ## What the units name -/

/-- `_privileged`. -/
def privileged (name : Str) (lookup : Str → Option ℕ) : Option Bool :=
  if name = [] ∨ name = "root".toList then some true
  else if name.allDigits then name.intIsZero.map fun zero => zero || lookup name = some 0
  else some (lookup name = some 0)

/-- `_Observed`. -/
structure Observed where
  users : List Str := []
  groups : List Str := []
  execPrefixes : List Str
  readPaths : List Str := []
  directories : List Str := []

/-- An executable that the trees do not cover already. -/
def newExecutable (trees : List Str) (value : Str) : Option Str :=
  (execExecutable value).filter fun exe =>
    exe ≠ [] && exe.isAbs && exe.normpath = exe && !trees.any exe.startsWith

/-- One assignment in `_observe`. -/
def observeDirective (trees : List Str) (uidOf gidOf : Str → Option ℕ) (seen : Observed)
    (directive : Str × Str × Str) : Option Observed :=
  let (section_, key, value) := directive
  if section_ ≠ "Service".toList then some seen
  else if key = "User".toList then
    (privileged value uidOf).map fun root =>
      if root then seen else { seen with users := seen.users ++ [value] }
  else if key = "Group".toList then
    (privileged value gidOf).map fun root =>
      if root then seen else { seen with groups := seen.groups ++ [value] }
  else if isOneOf execKeys key then
    some { seen with execPrefixes := seen.execPrefixes ++ (newExecutable trees value).toList }
  else if isOneOf ["EnvironmentFile", "LoadCredential"] key then
    let path := readPath key value
    if path.isAbs && !neverReadable.any (path.startsWith ·.toList) then
      some { seen with readPaths := seen.readPaths ++ [path] }
    else some seen
  else if isOneOf directoryKeys key then
    some { seen with directories := seen.directories ++ value.fields }
  else some seen

/-- `_observe`. -/
def observe (texts trees : List Str) (uidOf gidOf : Str → Option ℕ) : Option Observed :=
  (texts.flatMap unitDirectives).foldlM (observeDirective trees uidOf gidOf)
    { execPrefixes := trees }

/-! ## Which artifacts a deploy may change -/

/-- What follows a change of the artifact, if it is a unit that a deploy may change. -/
def Artifact.action (artifact : Artifact) : Option Action :=
  if artifact.dest.dirname = systemdDir ∧ (suffixOf artifact.dest.basename).isSome then
    grantable artifact.disposition
  else none

/-- What the loop over the host's artifacts keeps. -/
structure Collected where
  operatorOnly : AList fun _ : Str => Str := ∅
  candidates : AList fun _ : Str => UnitGrant × Str := ∅
  notes : List Message := []

/-- One artifact of the host. -/
def collect (readSource : Str → Option Str) (acc : Collected) (artifact : Artifact) : Collected :=
  let name := artifact.dest.basename
  match artifact.action with
  | none => { acc with operatorOnly := acc.operatorOnly.insert artifact.dest artifact.source }
  | some action => match readSource artifact.source with
    | none => { acc with
        operatorOnly := acc.operatorOnly.insert artifact.dest artifact.source
        notes := acc.notes ++
          [[.val name, .lit ": not in the render, so a deploy may not install it"]] }
    | some text => { acc with
        candidates := acc.candidates.insert name (⟨artifact.source, action⟩, text) }

/-- The reasons of a note. -/
def reasonsText (refusals : List Refusal) : Message :=
  List.intercalate [.lit "; "] (refusals.map Refusal.text)

/-- What the loop over the candidates keeps. -/
structure Granted where
  units : AList fun _ : Str => UnitGrant := ∅
  operatorOnly : AList fun _ : Str => Str
  notes : List Message

/-- One candidate: granted if the policy has nothing against it. -/
def grantUnit (policy : RootPolicy) (acc : Granted) (item : Sigma fun _ : Str => UnitGrant × Str) :
    Option Granted :=
  (validateUnit item.1 item.2.2 policy).map fun
    | [] => { acc with units := acc.units.insert item.1 item.2.1 }
    | refusals => { acc with
        operatorOnly := acc.operatorOnly.insert (unitPath item.1) item.2.1.source
        notes := acc.notes ++ [[.val item.1, .lit ": only an operator may change it ("] ++
          reasonsText refusals ++ [.lit ")"]] }

/-- What an app's unit will be refused for. -/
def appUnitNotes (policy : RootPolicy) (notes : List Message) (item : Sigma fun _ : Str => Str) :
    Option (List Message) :=
  (validateUnit item.1 item.2 policy).map fun refusals =>
    match (checkAppUnitName item.1 policy).toList ++ refusals with
    | [] => notes
    | all => notes ++ [[.val item.1, .lit ": the unit-installer will refuse it ("] ++
        reasonsText all ++ [.lit ")"]]

/-! ## The policy -/

/-- `PolicyDraft`. -/
structure PolicyDraft where
  policy : RootPolicy
  notes : List Message

/-- A directory with its trailing slash. -/
def treePrefix (tree : Str) : Str := if tree.endsWith ['/'] then tree else tree ++ ['/']

/-- The policy of what was observed, which grants no unit yet. -/
def basePolicy (input : BuildInput) (seen : Observed) : RootPolicy where
  project := input.project
  scaffoldDir := input.scaffoldDir
  users := seen.users
  groups := seen.groups
  execPrefixes := seen.execPrefixes.dedup.insertionSort (· ≤ ·)
  readPaths := seen.readPaths
  directories := seen.directories

/-- `build_policy`. -/
def buildPolicy (input : BuildInput) : Except BuildError PolicyDraft :=
  match hostArtifacts input.payload input.hostname with
  | none => .error (.refused [.repr input.hostname,
      .lit " is not a machine any server in this config lists"])
  | some chosen => do
    let collected := chosen.foldl (collect input.readSource) {}
    let texts := collected.candidates.entries.map (·.2.2) ++ input.appUnits.entries.map (·.2)
    let seen ← orRaised (observe texts (input.trees.map treePrefix) input.uidOf input.gidOf)
    let policy := basePolicy input seen
    let granted ← orRaised ((sortedItems collected.candidates).foldlM (grantUnit policy)
      { operatorOnly := collected.operatorOnly, notes := collected.notes })
    -- sorting `operator_only` changes the order of a mapping only
    let policy := { policy with units := granted.units, operatorOnly := granted.operatorOnly }
    let notes ← orRaised ((sortedItems input.appUnits).foldlM (appUnitNotes policy) granted.notes)
    pure ⟨policy, notes⟩

end Fraisier.Scaffold
