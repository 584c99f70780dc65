import Fraisier.Lib.Fnmatch
import Fraisier.Lib.PosixPath

/-!
# Patterns of paths

`pathlib.Path.glob`: the pattern is compared component by component, `**` stands for any number of
components, and a slash at its end asks for directories. A pattern that is absolute or has no
component is refused.
-/

namespace Fraisier.Lib.PathGlob

open Str

/-- What is found below a directory: its path from there, by components. A path that goes up is one
with the components `..`. -/
structure Found where
  path : List Str
  isDir : Bool := false
  deriving DecidableEq, Repr

/-- Why a pattern is refused. -/
inductive Refusal
  /-- `NotImplementedError`. -/
  | absolute
  /-- `ValueError`. -/
  | unacceptable
  deriving DecidableEq, Repr

/-- A pattern. -/
structure Pattern where
  parts : List Str
  dirsOnly : Bool
  deriving DecidableEq, Repr

/-- `_parse_pattern`. -/
def Pattern.parse (text : Str) : Except Refusal Pattern :=
  if text.head? = some '/' then throw .absolute
  else if components text = [] then throw .unacceptable
  else pure { parts := components text, dirsOnly := text.getLast? = some '/' }

/-- The components of a pattern stand for those of a path. -/
def standParts : List Str → List Str → Bool
  | [], path => path.isEmpty
  | part :: parts, path =>
    if part = "**".toList then path.tails.any (standParts parts)
    else match path with
      | [] => false
      | name :: path => fnmatch name part && standParts parts path

/-- The pattern stands for what was found. -/
def Pattern.stands (pattern : Pattern) (f : Found) : Bool :=
  standParts pattern.parts f.path && (!pattern.dirsOnly || f.isDir)

/-- `Path.glob`, where `found` says what each entry is. -/
def glob {α : Type} (found : α → Found) (entries : List α) (pattern : Str) : Except Refusal (List α) :=
  (Pattern.parse pattern).map fun pattern => entries.filter (pattern.stands <| found ·)

example : (Pattern.parse "shop/**/*.dump/".toList).map
    (·.stands { path := ["shop".toList, "a".toList, "b.dump".toList], isDir := true }) = .ok true := by
  decide

example : (Pattern.parse "*_lz4.dump".toList).map
    (·.stands { path := ["shop".toList, "a_lz4.dump".toList] }) = .ok false := by
  decide

end Fraisier.Lib.PathGlob
