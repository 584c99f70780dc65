import Mathlib.Data.Char
import Mathlib.Data.List.Lex
import Mathlib.Data.List.Sort
import Fraisier.Unit.Policy

/-!
# The artifacts of a render

The part of `scaffold/artifacts.py` that reads a render's `artifact-manifest.json`: which of its
artifacts a host installs. Only the fields that decide this are kept.
-/

namespace Fraisier.Scaffold

open Fraisier.Lib Str

/-- `SYSTEMD_DIR`. -/
def systemdDir : Str := "/etc/systemd/system".toList

/-- Where a unit is installed: `f"{SYSTEMD_DIR}/{name}"`. -/
def unitPath (name : Str) : Str := systemdDir ++ '/' :: name

/-- `ARTIFACT_MANIFEST_NAME`. -/
def artifactManifestName : Str := "artifact-manifest.json".toList

/-- `Disposition.WEBHOOK`. -/
def webhookDisposition : Str := "webhook".toList

/-- One entry of `artifacts`. -/
structure Artifact where
  source : Str
  disposition : Str
  destination : Option Str
  fraise : Option Str := none
  environment : Option Str := none
  deriving DecidableEq, Repr

/-- One entry of `hosts`. -/
structure HostScope where
  scopes : List Str
  environments : List Str
  webhook : Option Str
  deriving DecidableEq, Repr

/-- A render's manifest, as `dump_manifest` writes it. -/
structure RenderManifest where
  artifacts : List Artifact
  hosts : AList fun _ : Str => HostScope

/-- A value that is there and not empty. -/
def truthy (s : Option Str) : Bool := !(s.getD []).isEmpty

/-- `host_gate_open`. -/
def hostGateOpen (artifact : Artifact) (host : HostScope) : Bool :=
  if truthy artifact.fraise then
    let environment := artifact.environment.getD "None".toList
    host.scopes.contains (artifact.fraise.getD [] ++ ':' :: environment) ||
      host.scopes.contains ('*' :: ':' :: environment)
  else if truthy artifact.environment then
    host.environments.contains (artifact.environment.getD [])
  else true

/-- The artifact is installed on the host. -/
def chosenOn (host : HostScope) (artifact : Artifact) : Bool :=
  truthy artifact.destination &&
    if artifact.disposition = webhookDisposition then some artifact.source == host.webhook
    else hostGateOpen artifact host

/-- `host_artifacts`: what `install.sh` would copy on the host, unless it is not registered. -/
def hostArtifacts (payload : RenderManifest) (hostname : Str) : Option (List Artifact) :=
  (payload.hosts.lookup hostname).map fun host => payload.artifacts.filter (chosenOn host)

/-- The destination of an artifact that has one. -/
def Artifact.dest (artifact : Artifact) : Str := artifact.destination.getD []

/-- `sorted` of a mapping's items. -/
def sortedItems {α : Type} (m : AList fun _ : Str => α) : List (Sigma fun _ : Str => α) :=
  m.entries.insertionSort fun a b => a.1 ≤ b.1

end Fraisier.Scaffold
