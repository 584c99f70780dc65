import Fraisier.Lib.Interaction
import Fraisier.Scaffold.Artifacts
import Fraisier.Unit.Validator

/-!
# Applying a render as root

`apply_scaffold` of `scaffold_apply.py`: it judges every unit of the root policy, compares what only
an operator may change, and then writes the units that differ and runs what follows a write. The
tree, the host's files and `systemctl` answer its calls; nothing is assumed of them here. What
`json.loads` makes of a manifest is a parameter.
-/

namespace Fraisier.Scaffold

open Fraisier.Lib Interaction Str Fraisier.Unit

/-! ## Calls -/

/-- What `apply_scaffold` calls. -/
inductive ApplyCall
  | readTree (source : Str)
  | readInstalled (path : Str)
  | writeUnit (name : Str) (data : ByteArray)
  | systemctl (args : List Str)
  deriving DecidableEq

/-- How `read_tree` ends. -/
inductive TreeRead
  | file (data : ByteArray)
  | missing
  /-- `UnsafeTreeError`. -/
  | unsafeEntry (text : Str)
  | raised
  deriving DecidableEq

/-- How `read_installed` ends. -/
inductive InstalledRead
  | file (data : ByteArray)
  | missing
  | raised
  deriving DecidableEq

/-- How `write_unit` ends. One that raises may have replaced the file before. -/
inductive WriteEnd
  | done
  | raised (changed : Bool)
  deriving DecidableEq

/-- What a call is answered with. -/
@[reducible] def ApplyCall.Answer : ApplyCall → Type
  | .readTree _ => TreeRead
  | .readInstalled _ => InstalledRead
  | .writeUnit _ _ => WriteEnd
  | .systemctl _ => Bool

instance : (c : ApplyCall) → DecidableEq c.Answer
  | .readTree _ => inferInstanceAs (DecidableEq TreeRead)
  | .readInstalled _ => inferInstanceAs (DecidableEq InstalledRead)
  | .writeUnit _ _ => inferInstanceAs (DecidableEq WriteEnd)
  | .systemctl _ => inferInstanceAs (DecidableEq Bool)

/-- An exception that `apply_scaffold` does not handle. -/
inductive Raised
  | raised
  deriving DecidableEq

/-- A program over these calls. -/
abbrev Apply := Interaction ApplyCall.Answer Raised

/-- `read_tree`. -/
abbrev readTree (source : Str) : Apply TreeRead :=
  ask (ApplyCall.readTree source)

/-- `read_installed`. -/
abbrev readInstalled (path : Str) : Apply InstalledRead :=
  ask (ApplyCall.readInstalled path)

/-- `write_unit`. -/
abbrev writeUnit (name : Str) (data : ByteArray) : Apply WriteEnd :=
  ask (ApplyCall.writeUnit name data)

/-- `systemctl`. -/
abbrev systemctl (args : List Str) : Apply Bool :=
  ask (ApplyCall.systemctl args)

/-! ## Outcomes -/

/-- `ApplyOutcome`. -/
structure ApplyOutcome where
  installed : List Str := []
  unchanged : List Str := []
  refused : AList fun _ : Str => List Refusal := ∅
  pending : List Message := []
  deferredRestarts : List Str := []
  failed : List Message := []

/-- `ApplyOutcome.ok`. -/
def ApplyOutcome.ok (o : ApplyOutcome) : Bool :=
  o.refused.entries.isEmpty && o.pending.isEmpty && o.failed.isEmpty

/-- `outcome.refused[name] = refusals`. -/
def ApplyOutcome.refuse (o : ApplyOutcome) (name : Str) (refusals : List Refusal) : ApplyOutcome :=
  { o with refused := o.refused.insert name refusals }

/-- `outcome.pending.append(message)`. -/
def ApplyOutcome.wait (o : ApplyOutcome) (message : Message) : ApplyOutcome :=
  { o with pending := o.pending ++ [message] }

/-! ## Judging -/

/-- Units with the bytes to write. -/
abbrev ToWrite := List (Str × ByteArray)

/-- A unit whose new content passes: it is written unless the installed file is the same. -/
def compareUnit (acc : ApplyOutcome × ToWrite) (name : Str) (data : ByteArray) :
    Apply (ApplyOutcome × ToWrite) := do
  match ← readInstalled (unitPath name) with
  | .raised => raise .raised
  | installed =>
    if installed = .file data then
      pure ({ acc.1 with unchanged := acc.1.unchanged ++ [name] }, acc.2)
    else pure (acc.1, acc.2 ++ [(name, data)])

/-- A unit's new content. -/
def judgeBytes (policy : RootPolicy) (acc : ApplyOutcome × ToWrite) (name : Str)
    (data : ByteArray) : Apply (ApplyOutcome × ToWrite) :=
  match decodeUtf8 data with
  | none => pure (acc.1.refuse name [⟨.ruleSyntax, [.lit "the file is not UTF-8"], none⟩], acc.2)
  | some text => match validateUnit name text policy with
    | none => raise .raised
    | some [] => compareUnit acc name data
    | some (r :: rs) => pure (acc.1.refuse name (r :: rs), acc.2)

/-- One unit of the policy. -/
def judgeUnit (policy : RootPolicy) (acc : ApplyOutcome × ToWrite)
    (item : Sigma fun _ : Str => UnitGrant) : Apply (ApplyOutcome × ToWrite) :=
  match checkScaffoldUnitName item.1 policy with
  | some refusal => pure (acc.1.refuse item.1 [refusal], acc.2)
  | none => do
    match ← readTree item.2.source with
    | .raised => raise .raised
    | .unsafeEntry text => pure (acc.1.refuse item.1 [⟨.ruleTree, [.val text], none⟩], acc.2)
    | .missing => pure (acc.1.wait
        [.val item.1, .lit ": ", .val item.2.source, .lit " is not in the render"], acc.2)
    | .file data => judgeBytes policy acc item.1 data

/-- A file that only an operator may change, against what the render has for it. -/
def compareFile (outcome : ApplyOutcome) (dest : Str) (rendered : ByteArray) :
    Apply ApplyOutcome := do
  match ← readInstalled dest with
  | .raised => raise .raised
  | .missing => pure (outcome.wait [.val dest, .lit ": not installed"])
  | .file installed =>
    if installed ≠ rendered then
      pure (outcome.wait [.val dest, .lit ": differs from the render"])
    else pure outcome

/-- One file that only an operator may change. -/
def compareOperatorOnly (outcome : ApplyOutcome) (item : Sigma fun _ : Str => Str) :
    Apply ApplyOutcome :=
  if item.2 = [] then pure outcome
  else do
    match ← readTree item.2 with
    | .raised => raise .raised
    | .unsafeEntry text => pure (outcome.refuse item.1 [⟨.ruleTree, [.val text], none⟩])
    | .missing => pure outcome
    | .file rendered => compareFile outcome item.1 rendered

/-- What `json.loads` makes of the manifest's bytes. -/
inductive Loaded
  /-- It raises an error of decoding. -/
  | invalid
  /-- It raises another error. -/
  | raises
  /-- It is no mapping. -/
  | notMapping
  | manifest (payload : RenderManifest)
  /-- A mapping whose fields are of other types than the renderer writes: `host_artifacts` raises,
  returns `None`, or leaves these destinations. -/
  | odd (chosen : Option (Option (List Str)))

/-- `_known_destinations`. -/
def knownDestinations (policy : RootPolicy) : List Str :=
  policy.units.keys.map unitPath ++ policy.operatorOnly.keys

/-- The destinations that `host_artifacts` leaves, unless it returns `None` or raises. -/
def chosenDestinations (hostname : Str) : Loaded → Option (Option (List Str))
  | .manifest payload => some ((hostArtifacts payload hostname).map (·.map Artifact.dest))
  | .odd chosen => chosen
  | _ => none

/-- The messages of `_new_artifacts` about a manifest that was loaded. -/
def unapproved (policy : RootPolicy) (hostname : Str) : Option (List Str) → List Message
  | none => [[.val artifactManifestName, .lit ": this host (", .val hostname,
      .lit ") is not in the render"]]
  | some dests => ((dests.filter (· ∉ knownDestinations policy)).dedup.insertionSort (· ≤ ·)).map
      fun dest => [.val dest, .lit ": new, never approved by an operator"]

/-- `_new_artifacts`. -/
def newArtifacts (loads : ByteArray → Loaded) (policy : RootPolicy) (hostname : Str) :
    Apply (List Message) := do
  match ← readTree artifactManifestName with
  | .raised => raise .raised
  | .unsafeEntry text => pure [[.val artifactManifestName, .lit ": ", .val text]]
  | .missing => pure [[.val artifactManifestName, .lit ": not in the render"]]
  | .file raw => match loads raw with
    | .invalid => pure [[.val artifactManifestName, .lit ": not valid JSON"]]
    | .notMapping => pure [[.val artifactManifestName, .lit ": not a manifest"]]
    | payload => match chosenDestinations hostname payload with
      | none => raise .raised
      | some chosen => pure (unapproved policy hostname chosen)

/-! ## Acting -/

/-- What follows the writing of a unit. -/
inductive PostAction
  | nothing
  | run (args : List Str)
  /-- The restart of a unit that a deploy may be running inside. -/
  | defer
  deriving DecidableEq, Repr

/-- The post-action of a unit that was written. -/
def postAction (name : Str) (action : Action) (deployInFlight : Bool) : PostAction :=
  if action = .timer ∧ suffixOf name = some .timer then
    .run ["enable".toList, "--now".toList, name]
  else if action = .webhook then
    if deployInFlight then .defer else .run ["restart".toList, name]
  else if action = .installHelper ∧ suffixOf name = some .service then
    .run ["stop".toList, name]
  else .nothing

/-- A failed call of `systemctl`. -/
def ApplyOutcome.fail (o : ApplyOutcome) (args : List Str) : ApplyOutcome :=
  { o with failed := o.failed ++ [[.lit "systemctl ", .val (List.intercalate [' '] args)]] }

/-- One unit to write. -/
def writeOne (outcome : ApplyOutcome) (item : Str × ByteArray) : Apply ApplyOutcome := do
  match ← writeUnit item.1 item.2 with
  | .done => pure { outcome with installed := outcome.installed ++ [item.1] }
  | .raised _ => raise .raised

/-- One unit that was written. -/
def runPostAction (policy : RootPolicy) (deployInFlight : Bool) (outcome : ApplyOutcome)
    (name : Str) : Apply ApplyOutcome :=
  match policy.units.lookup name with
  | none => raise .raised
  | some grant => match postAction name grant.action deployInFlight with
    | .nothing => pure outcome
    | .defer => pure { outcome with deferredRestarts := outcome.deferredRestarts ++ [name] }
    | .run args => do
      if ← systemctl args then pure outcome else pure (outcome.fail args)

/-- `daemon-reload`. -/
def daemonReload : List Str := ["daemon-reload".toList]

/-- The part of `apply_scaffold` before its first write. -/
def judge (loads : ByteArray → Loaded) (policy : RootPolicy) (hostname : Str) :
    Apply (ApplyOutcome × ToWrite) := do
  let (outcome, toWrite) ← (sortedItems policy.units).foldlM (judgeUnit policy) ({}, [])
  let outcome ← (sortedItems policy.operatorOnly).foldlM compareOperatorOnly outcome
  let fresh ← newArtifacts loads policy hostname
  pure ({ outcome with pending := outcome.pending ++ fresh }, toWrite)

/-- The rest of it, when nothing was refused and nothing is pending. -/
def carryOut (policy : RootPolicy) (deployInFlight : Bool) (outcome : ApplyOutcome)
    (toWrite : ToWrite) : Apply ApplyOutcome := do
  let outcome ← toWrite.foldlM writeOne outcome
  if toWrite.isEmpty then pure outcome
  else if ← systemctl daemonReload then
    outcome.installed.foldlM (runPostAction policy deployInFlight) outcome
  else pure (outcome.fail daemonReload)

/-- `apply_scaffold`. -/
def applyScaffold (loads : ByteArray → Loaded) (policy : RootPolicy) (hostname : Str)
    (deployInFlight : Bool) : Apply ApplyOutcome := do
  let (outcome, toWrite) ← judge loads policy hostname
  if outcome.ok then carryOut policy deployInFlight outcome toWrite else pure outcome

end Fraisier.Scaffold
