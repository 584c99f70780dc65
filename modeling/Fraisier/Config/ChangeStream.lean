import Mathlib.Data.Char
import Mathlib.Data.List.Lex
import Mathlib.Data.List.Sort
import Fraisier.Lib.Pieces
import Fraisier.Config.Quote

/-!
# What the configuration's hash is taken of

`ConfigWatcher.compute_hash` feeds the bytes of `fraises.yaml` to the hash, and after them, file by
file, each template's relative path and content. Nothing stands between two of these pieces, so the
stream tells two projects apart exactly when they differ in more than where the pieces end
(`changes_noticed_iff`). A change of one piece is noticed (`one_change_noticed`); a byte that goes
from a path to its content is not.
-/

namespace Fraisier.Config

open Fraisier.Lib

/-- A path below `template_dir`, by its components. -/
abbrev RelPath : Type := List Str

/-- The regular files below `template_dir`, as `rglob` comes to them. -/
structure TemplateTree where
  files : List (RelPath × List UInt8)
  nodup : (files.map Prod.fst).Nodup

/-- What `compute_hash` reads: the configuration, and the template tree when `_template_dir` is a
directory. -/
structure Watched where
  config : List UInt8
  templates : Option TemplateTree

/-- `str(path).encode()`. -/
def encodePath (path : RelPath) : List UInt8 := utf8 (List.intercalate ['/'] path)

/-- `sorted`, of paths below one directory. -/
def sortedFiles (files : List (RelPath × List UInt8)) : List (RelPath × List UInt8) :=
  files.insertionSort fun a b => a.1 ≤ b.1

/-- `_hash_template_dir`: what is folded into the hasher. -/
def hashTemplateDir (tree : TemplateTree) : List UInt8 :=
  (sortedFiles tree.files).flatMap fun file => encodePath file.1 ++ file.2

/-- `compute_hash`, before the digest. -/
def changeStream (w : Watched) : List UInt8 :=
  w.config ++ (w.templates.map hashTemplateDir).getD []

namespace Watched

/-- The custom templates: none where there is no directory. -/
def files (w : Watched) : List (RelPath × List UInt8) := (w.templates.map (·.files)).getD []

/-- The content of the configuration or the templates, as a map, differ. -/
def Differs (w w' : Watched) : Prop := ¬(w.config = w'.config ∧ w.files.Perm w'.files)

/-- What is hashed, piece by piece: the configuration, then the path and the content of each
template in the order of the paths. -/
def pieces (w : Watched) : List (List UInt8) :=
  w.config :: (sortedFiles w.files).flatMap fun file => [encodePath file.1, file.2]

end Watched

variable {w w' : Watched}

/-- The stream is made of its pieces. -/
theorem changeStream_eq (w : Watched) : changeStream w = w.pieces.flatten := by
  unfold changeStream Watched.pieces Watched.files
  rw [List.flatten_cons, List.append_cancel_left_eq]
  cases w.templates with
  | none => rfl
  | some tree =>
    show hashTemplateDir tree = _
    unfold hashTemplateDir
    simp only [Option.map_some, Option.getD_some]
    generalize sortedFiles tree.files = files
    induction files with
    | nil => rfl
    | cons file files ih => simp [ih]

/-- The stream does not depend on the order in which the directory is read. -/
theorem sortedFiles_perm {files files' : List (RelPath × List UInt8)}
    (hnodup : (files.map Prod.fst).Nodup) (h : files.Perm files') :
    sortedFiles files = sortedFiles files' := by
  have hperm : (sortedFiles files).Perm (sortedFiles files') :=
    (List.perm_insertionSort _ _).trans (h.trans (List.perm_insertionSort _ _).symm)
  have hsorted (fs : List (RelPath × List UInt8)) :
      (sortedFiles fs).Pairwise fun a b => a.1 ≤ b.1 := List.pairwise_insertionSort _ _
  refine hperm.eq_of_pairwise ?_ (hsorted files) (hsorted files')
  intro a b ha hb hab hba
  have hmem : b ∈ files := (List.perm_insertionSort _ _).mem_iff.mp (hperm.symm.mem_iff.mp hb)
  exact List.inj_on_of_nodup_map hnodup ((List.perm_insertionSort _ _).mem_iff.mp ha) hmem
    (le_antisymm hab hba)

/-- No file is watched twice. -/
theorem Watched.files_nodup (w : Watched) : (w.files.map Prod.fst).Nodup := by
  unfold Watched.files
  cases w.templates with
  | none => exact List.nodup_nil
  | some tree => exact tree.nodup

/-- Two projects that do not differ have one stream. -/
theorem changeStream_of_same (h : ¬w.Differs w') : changeStream w = changeStream w' := by
  obtain ⟨hconfig, hfiles⟩ := not_not.mp h
  rw [changeStream_eq, changeStream_eq, Watched.pieces, Watched.pieces, hconfig,
    sortedFiles_perm w.files_nodup hfiles]

/-- The streams are the same when the pieces differ in their borders at most. -/
theorem changeStream_eq_iff :
    changeStream w = changeStream w' ↔ SameButBorders w.pieces w'.pieces := by
  rw [changeStream_eq, changeStream_eq]
  exact flatten_eq_iff (List.cons_ne_nil _ _) (List.cons_ne_nil _ _)

/-- A change of one piece alone is noticed. -/
theorem one_change_noticed {before after : List (List UInt8)} {a b : List UInt8} (h : a ≠ b)
    (hw : w.pieces = before ++ a :: after) (hw' : w'.pieces = before ++ b :: after) :
    changeStream w ≠ changeStream w' := by
  rw [changeStream_eq, changeStream_eq, hw, hw']
  simpa using h

/-- A change is noticed exactly when it is not one of borders alone. -/
theorem changes_noticed_iff (w w' : Watched) :
    (w.Differs w' → changeStream w ≠ changeStream w') ↔
      ¬(w.Differs w' ∧ SameButBorders w.pieces w'.pieces) := by
  rw [Ne, changeStream_eq_iff, not_and]

/-- `template_dir: t`, and one template. -/
def oneTemplate (path : String) (content : List UInt8) : Watched where
  config := utf8 "scaffold: \x7btemplate_dir: t\x7d\n".toList
  templates := some ⟨[([path.toList], content)], List.nodup_singleton _⟩

/-- A byte goes from the content to the path, and the rename is not noticed. -/
theorem rename_unnoticed : (oneTemplate "a" (utf8 ['b'])).Differs (oneTemplate "ab" []) ∧
    changeStream (oneTemplate "a" (utf8 ['b'])) = changeStream (oneTemplate "ab" []) := by
  refine ⟨fun h => ?_, by decide⟩
  have hfiles := h.2.mem_iff (a := ([['a']], utf8 ['b']))
  simp [oneTemplate, Watched.files] at hfiles

end Fraisier.Config
