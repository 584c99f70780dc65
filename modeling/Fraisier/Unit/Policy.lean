import Mathlib.Data.List.AList
import Fraisier.Lib.Text

/-!
# The root policy

`root_policy.py`: what an operator approved, and what a unit file must stay within. Sets are lists,
of which only the members count.
-/

namespace Fraisier.Unit

open Fraisier.Lib

/-- What a granted unit needs after its file is written, one of `ACTIONS`. -/
inductive Action
  | plain | timer | webhook | installHelper
  deriving DecidableEq, Repr

/-- `UnitGrant`: a unit a deploy may rewrite, and where its new content comes from. -/
structure UnitGrant where
  source : Str
  action : Action
  deriving DecidableEq, Repr

/-- `RootPolicy`. -/
structure RootPolicy where
  project : Str
  scaffoldDir : Str
  users : List Str
  groups : List Str
  /-- A trailing `/` grants a directory tree; anything else is one file. -/
  execPrefixes : List Str
  readPaths : List Str
  directories : List Str
  /-- Unit name under `/etc/systemd/system` to its grant. -/
  units : AList fun _ : Str => UnitGrant := ∅
  /-- Absolute destination to scaffold source, for files only an operator may change. -/
  operatorOnly : AList fun _ : Str => Str := ∅

end Fraisier.Unit
