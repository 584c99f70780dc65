import Fraisier.Scaffold.Naming

/-!
# Pruning units of fraises that run elsewhere

`prune_foreign_units` of `scaffold/foreign.py`: it disables and removes units that are installed on
a host, unless one of them is owned by a fraise and environment that the host declares.
-/

namespace Fraisier.Scaffold

open Fraisier.Lib Str

/-- An owner that a server declares: a fraise in an environment, or every fraise that uses the name
of the environment. -/
abbrev Scope := Option Str × Str

/-- `_scope_predicate`. -/
def scopeAllows (scopes : List Scope) (fraise env : Str) : Bool :=
  scopes.contains (none, env) || scopes.contains (some fraise, env)

/-- `ForeignUnit`. -/
structure ForeignUnit where
  source : Str
  installedPath : PurePath
  ownerFraise : Str
  environment : Str

/-- `ForeignUnit.unit_name`. -/
def ForeignUnit.unitName (unit : ForeignUnit) : Str := unit.installedPath.name

/-- The `ValidationError`s of `prune_foreign_units`. -/
inductive PruneError
  | unknownServer
  | owned (mine : List ForeignUnit) (server : Str)

/-- `sudo systemctl disable --now`. -/
def disableNow (unit : Str) : List Str :=
  ["sudo".toList, "systemctl".toList, "disable".toList, "--now".toList, unit]

/-- What is run for a unit. -/
def pruneCommands (unit : ForeignUnit) : List (List Str) :=
  [disableNow unit.unitName,
    ["sudo".toList, "rm".toList, "-f".toList, unit.installedPath.text]]

/-- `prune_foreign_units`, on the server that was given or found: the commands that it runs. -/
def pruneForeignUnits (scopesForServer : Str → List Scope) (resolved : Option Str)
    (units : List ForeignUnit) : Except PruneError (List (List Str)) :=
  if units.isEmpty then .ok []
  else match resolved with
    | none => .error .unknownServer
    | some server =>
      let allowed := scopeAllows (scopesForServer server)
      let mine := units.filter fun u => allowed u.ownerFraise u.environment
      if mine.isEmpty then
        .ok (units.flatMap pruneCommands ++
          [["sudo".toList, "systemctl".toList, "daemon-reload".toList]])
      else .error (.owned mine server)

/-- Only units of owners that the server does not declare are disabled. -/
theorem disabled_is_foreign {scopesForServer : Str → List Scope} {resolved : Option Str}
    {units : List ForeignUnit} {commands : List (List Str)}
    (h : pruneForeignUnits scopesForServer resolved units = .ok commands) {n : Str}
    (hn : disableNow n ∈ commands) : ∃ server, resolved = some server ∧ ∃ unit ∈ units,
      unit.unitName = n ∧
        scopeAllows (scopesForServer server) unit.ownerFraise unit.environment = false := by
  unfold pruneForeignUnits at h
  split at h
  · obtain rfl := Except.ok.inj h
    simp at hn
  -- The server is one that is declared.
  · split at h
    · cases h
    · next server =>
      dsimp only at h
      split at h
      · next hmine =>
        obtain rfl := Except.ok.inj h
        refine ⟨server, rfl, ?_⟩
        have hreload : disableNow n ≠ ["sudo".toList, "systemctl".toList, "daemon-reload".toList] :=
          fun heq => by simpa [disableNow] using congrArg List.length heq
        simp only [List.mem_append, List.mem_flatMap, hreload, or_false,
          pruneCommands, List.mem_cons, List.not_mem_nil] at hn
        obtain ⟨unit, hunit, hname | hrm⟩ := hn
        · refine ⟨unit, hunit, ?_, ?_⟩
          · simpa [disableNow] using hname.symm
          · rw [List.isEmpty_iff, List.filter_eq_nil_iff] at hmine
            simpa using hmine unit hunit
        · exact absurd (congrArg List.length hrm) (by simp [disableNow])
      · cases h

end Fraisier.Scaffold
