import Mathlib.Data.List.Sort
import Mathlib.Order.Lattice
import Fraisier.Lib.JsonRoundTrip
import Fraisier.Lib.JsonValue
import Fraisier.Lib.Lookup

/-!
# JSON over several lines

`json.dumps` with `indent=2` and `sort_keys=True`. The tokens of the text are those of the value on
one line (`lex_dumpsIndent`), so that it is read back in the same way: `loadsStr_dumpsIndent`. Sorting
its keys leaves a value what it was, for whoever looks its members up: `lookup_sortKeys`.
-/

namespace Fraisier.Lib.Json

open Unicode

/-! ## Writing -/

mutual

/-- The members of each object in the order of their keys. -/
def sortKeys : Json → Json
  | .arr items => .arr (sortItems items)
  | .obj members => .obj ((sortMembers members).insertionSort fun a b => a.1 ≤ b.1)
  | v => v

def sortItems : List Json → List Json
  | [] => []
  | v :: items => sortKeys v :: sortItems items

def sortMembers : List (Text × Json) → List (Text × Json)
  | [] => []
  | (key, v) :: members => (key, sortKeys v) :: sortMembers members

end

/-- The beginning of a line. -/
def newline (level : ℕ) : Text := chr '\n' :: List.replicate (2 * level) (chr ' ')

mutual

/-- `json.dumps` with `indent=2` of a value in containers that many levels deep. -/
def dumpsIndent (level : ℕ) : Json → Text
  | .arr (v :: items) =>
    chr '[' :: newline (level + 1) ++ dumpsIndent (level + 1) v ++ dumpsItemsIndent level items
  | .obj ((key, v) :: members) =>
    chr '\x7b' :: newline (level + 1) ++ writeString key ++ text ": " ++
      dumpsIndent (level + 1) v ++ dumpsMembersIndent level members
  | v => dumps v

/-- The other items of an array, and its end. -/
def dumpsItemsIndent (level : ℕ) : List Json → Text
  | [] => newline level ++ text "]"
  | v :: items => chr ',' :: newline (level + 1) ++ dumpsIndent (level + 1) v ++
      dumpsItemsIndent level items

/-- The other members of an object, and its end. -/
def dumpsMembersIndent (level : ℕ) : List (Text × Json) → Text
  | [] => newline level ++ text "\x7d"
  | (key, v) :: members => chr ',' :: newline (level + 1) ++ writeString key ++ text ": " ++
      dumpsIndent (level + 1) v ++ dumpsMembersIndent level members

end

/-- `json.dumps(v, indent=2, sort_keys=True)`. -/
def dumpsSorted (v : Json) : Text := dumpsIndent 0 (sortKeys v)

example : dumpsSorted (.obj [(text "b", .arr [.int 1, .arr []]), (text "a", .null)]) =
    text "\x7b\n  \"a\": null,\n  \"b\": [\n    1,\n    []\n  ]\n\x7d" := by decide

/-! ## The tokens -/

variable {rest : Text} {maxDepth : ℕ}

/-- A newline and its indentation are no token. -/
theorem lex_newline (level : ℕ) : lex (newline level ++ rest) = lex rest := by
  have hspaces : ∀ n, lex (List.replicate n (chr ' ') ++ rest) = lex rest := by
    intro n
    induction n with
    | zero => rfl
    | succ n ih => rw [List.replicate_succ, List.cons_append, lex_space, ih]
  have h : token (chr '\n') ([] ++ (List.replicate (2 * level) (chr ' ') ++ rest)) =
      (none, List.length ([] : Text)) := rfl
  rw [← hspaces (2 * level)]
  exact (congrArg List.reduceOption (pieces_cons h)).trans (List.reduceOption_cons_of_none _)

/-- What comes after an indented item stops a number. -/
theorem stops_dumpsItemsIndent (level : ℕ) (items : List Json) (rest : Text) :
    Stops (dumpsItemsIndent level items ++ rest) := by
  cases items with
  | nil => exact stops_cons ⟨rfl, rfl, rfl, rfl⟩
  | cons v items => exact stops_cons ⟨rfl, rfl, rfl, rfl⟩

/-- What comes after an indented member stops a number. -/
theorem stops_dumpsMembersIndent (level : ℕ) (members : List (Text × Json)) (rest : Text) :
    Stops (dumpsMembersIndent level members ++ rest) := by
  cases members with
  | nil => exact stops_cons ⟨rfl, rfl, rfl, rfl⟩
  | cons member members => exact stops_cons ⟨rfl, rfl, rfl, rfl⟩

/-- A token of one character, and what comes after it. -/
theorem lex_punctuation {c : CodePoint} {t : Token} (h : ∀ cs, token c cs = (some t, 0))
    (rest : Text) : lex (c :: rest) = t :: lex rest := by
  have htoken : token c ([] ++ rest) = (some t, List.length ([] : Text)) := h rest
  have hlex : lex (c :: ([] ++ rest)) = t :: lex rest := lex_cons htoken
  exact hlex

mutual

/-- The tokens of a value do not depend on the lines. -/
theorem lex_dumpsIndent : ∀ (v : Json) (level : ℕ) (rest : Text), Plain v → Stops rest →
    lex (dumpsIndent level v ++ rest) = tokens v ++ lex rest
  -- Only containers that hold something are written over several lines.
  | .null, _, rest, hv, hstops => lex_dumps .null rest hv hstops
  | .bool b, _, rest, hv, hstops => lex_dumps (.bool b) rest hv hstops
  | .int n, _, rest, hv, hstops => lex_dumps (.int n) rest hv hstops
  | .float _, _, _, hv, hstops => lex_floatText hv hstops
  | .str s, _, rest, hv, hstops => lex_dumps (.str s) rest hv hstops
  | .arr [], _, rest, hv, hstops => lex_dumps (.arr []) rest hv hstops
  | .arr (v :: items), level, rest, hv, _ => by
    rw [dumpsIndent, tokens]
    simp only [List.cons_append, List.append_assoc]
    rw [lex_punctuation fun _ => rfl, lex_newline,
      lex_dumpsIndent v _ _ hv.1 (stops_dumpsItemsIndent level items rest),
      lex_dumpsItemsIndent items level rest hv.2]
  | .obj [], _, rest, hv, hstops => lex_dumps (.obj []) rest hv hstops
  | .obj ((key, v) :: members), level, rest, hv, _ => by
    have hmembers := hv.2
    rw [dumpsIndent, tokens]
    simp only [List.cons_append, List.append_assoc]
    rw [lex_punctuation fun _ => rfl, lex_newline, lex_writeString hmembers.1, lex_colon,
      lex_dumpsIndent v _ _ hmembers.2.1 (stops_dumpsMembersIndent level members rest),
      lex_dumpsMembersIndent members level rest hmembers.2.2]

/-- Indented items are cut into the same tokens as the others. -/
theorem lex_dumpsItemsIndent : ∀ (items : List Json) (level : ℕ) (rest : Text), PlainItems items →
    lex (dumpsItemsIndent level items ++ rest) = tokensItems items ++ lex rest
  | [], level, rest, _ => by
    rw [dumpsItemsIndent, List.append_assoc, lex_newline]
    exact lex_punctuation (fun _ => rfl) rest
  | v :: items, level, rest, hv => by
    rw [dumpsItemsIndent, tokensItems]
    simp only [List.cons_append, List.append_assoc]
    rw [lex_punctuation fun _ => rfl, lex_newline,
      lex_dumpsIndent v _ _ hv.1 (stops_dumpsItemsIndent level items rest),
      lex_dumpsItemsIndent items level rest hv.2]

/-- Indented members are cut into the same tokens as the others. -/
theorem lex_dumpsMembersIndent : ∀ (members : List (Text × Json)) (level : ℕ) (rest : Text),
    PlainMembers members →
    lex (dumpsMembersIndent level members ++ rest) = tokensMembers members ++ lex rest
  | [], level, rest, _ => by
    rw [dumpsMembersIndent, List.append_assoc, lex_newline]
    exact lex_punctuation (fun _ => rfl) rest
  | (key, v) :: members, level, rest, hv => by
    rw [dumpsMembersIndent, tokensMembers]
    simp only [List.cons_append, List.append_assoc]
    rw [lex_punctuation fun _ => rfl, lex_newline, lex_writeString hv.1, lex_colon,
      lex_dumpsIndent v _ _ hv.2.1 (stops_dumpsMembersIndent level members rest),
      lex_dumpsMembersIndent members level rest hv.2.2]

end

/-- What was written on one line, with white space after it, is read back. -/
theorem loadsStr_dumps {v : Json} (hv : Plain v) (hdepth : depth v ≤ maxDepth)
    (hstops : Stops rest) (hrest : lex rest = []) : loadsStr maxDepth (dumps v ++ rest) = .ok v := by
  rw [loadsStr, run_dumps hv hdepth hstops hrest]

/-- What was written over several lines, with a newline after it, is read back. -/
theorem loadsStr_dumpsIndent {v : Json} (hv : Plain v) (hdepth : depth v ≤ maxDepth) {rest : Text}
    (hstops : Stops rest) (hrest : lex rest = []) :
    loadsStr maxDepth (dumpsIndent 0 v ++ rest) = .ok v := by
  have hlex : lex (dumpsIndent 0 v ++ rest) = tokens v ++ [] :=
    (lex_dumpsIndent v 0 rest hv hstops).trans (by rw [hrest])
  have hrun := run_tokens v [] [] hv (by simpa using hdepth)
  rw [loadsStr, hlex, hrun]
  rfl

/-! ## Sorted keys -/

/-- The items of an array are sorted one by one. -/
theorem sortItems_eq (items : List Json) : sortItems items = items.map sortKeys := by
  induction items with
  | nil => rfl
  | cons v items ih => rw [sortItems, ih, List.map_cons]

/-- The values of an object are sorted one by one. -/
theorem sortMembers_eq (members : List (Text × Json)) :
    sortMembers members = members.map fun member => (member.1, sortKeys member.2) := by
  induction members with
  | nil => rfl
  | cons member members ih => rw [sortMembers, ih, List.map_cons]

/-- The members of a sorted object. -/
def sortedMembers (members : List (Text × Json)) : List (Text × Json) :=
  (sortMembers members).insertionSort fun a b => a.1 ≤ b.1

/-- An object is sorted by its keys. -/
theorem sortKeys_obj (members : List (Text × Json)) :
    sortKeys (.obj members) = .obj (sortedMembers members) := by
  rw [sortKeys, sortedMembers]

/-- Sorting moves members, with their values sorted. -/
theorem sortedMembers_perm (members : List (Text × Json)) :
    (sortedMembers members).Perm (members.map fun member => (member.1, sortKeys member.2)) := by
  rw [← sortMembers_eq]
  exact List.perm_insertionSort _ _

/-- Sorting the values leaves the keys as they are. -/
theorem map_fst_sorted (members : List (Text × Json)) :
    (members.map fun member => (member.1, sortKeys member.2)).map Prod.fst = members.map Prod.fst := by
  rw [List.map_map]
  rfl

/-- A member of a sorted object is the member, sorted. -/
theorem lookup_sortedMembers {members : List (Text × Json)} (h : (members.map Prod.fst).Nodup)
    (key : Text) : (sortedMembers members).lookup key = (members.lookup key).map sortKeys := by
  rw [lookup_perm (sortedMembers_perm members) (by rw [map_fst_sorted]; exact h)]
  induction members with
  | nil => rfl
  | cons member members ih =>
    rw [List.map_cons, List.nodup_cons] at h
    rw [List.map_cons, List.lookup_cons, List.lookup_cons, ih h.2]
    split <;> rfl

/-- A field of a sorted object is read as it was written, sorted. -/
theorem getD_sorted {members : List (Text × Json)} (h : (members.map Prod.fst).Nodup) {key : String}
    {v default : Json} (hlookup : members.lookup (text key) = some v) :
    getD (sortedMembers members) key default = sortKeys v := by
  rw [getD, lookup_sortedMembers h, hlookup]
  rfl

/-- Members are plain when each is. -/
theorem plainMembers_iff {members : List (Text × Json)} :
    PlainMembers members ↔ ∀ member ∈ members, Apart member.1 ∧ Plain member.2 := by
  induction members with
  | nil => simp [PlainMembers]
  | cons member members ih => rw [PlainMembers, List.forall_mem_cons, ih, and_assoc]

/-- Members are no deeper than a bound when none is. -/
theorem depthMembers_le_iff {n : ℕ} {members : List (Text × Json)} :
    depthMembers members ≤ n ↔ ∀ member ∈ members, depth member.2 ≤ n := by
  induction members with
  | nil => simp [depthMembers]
  | cons member members ih => rw [depthMembers, List.forall_mem_cons, Nat.max_le, ih]

mutual

/-- Sorting keeps a value plain. -/
theorem plain_sortKeys : ∀ v : Json, Plain v → Plain (sortKeys v)
  | .null, _ => trivial
  | .bool _, _ => trivial
  | .int _, hv => hv
  | .float _, hv => hv
  | .str _, hv => hv
  | .arr items, hv => plain_sortItems items hv
  | .obj members, hv => by
    rw [sortKeys_obj]
    refine ⟨?_, plainMembers_iff.mpr fun member hmember => ?_⟩
    · rw [((sortedMembers_perm members).map Prod.fst).nodup_iff, map_fst_sorted]
      exact hv.1
    · have hmem : member ∈ sortMembers members :=
        (List.perm_insertionSort _ _).mem_iff.mp hmember
      exact plainMembers_iff.mp (plain_sortMembers members hv.2) member hmem

/-- Sorting keeps items plain. -/
theorem plain_sortItems : ∀ items : List Json, PlainItems items → PlainItems (sortItems items)
  | [], _ => trivial
  | v :: items, hv => ⟨plain_sortKeys v hv.1, plain_sortItems items hv.2⟩

/-- Sorting the values keeps members plain. -/
theorem plain_sortMembers : ∀ members : List (Text × Json), PlainMembers members →
    PlainMembers (sortMembers members)
  | [], _ => trivial
  | (_, v) :: members, hv => ⟨hv.1, plain_sortKeys v hv.2.1, plain_sortMembers members hv.2.2⟩

end

mutual

/-- Sorting makes a value no deeper. -/
theorem depth_sortKeys : ∀ v : Json, depth (sortKeys v) ≤ depth v
  | .null => Nat.le_refl _
  | .bool _ => Nat.le_refl _
  | .int _ => Nat.le_refl _
  | .float _ => Nat.le_refl _
  | .str _ => Nat.le_refl _
  | .arr items => by
    rw [sortKeys, depth, depth]
    exact Nat.succ_le_succ (depth_sortItems items)
  | .obj members => by
    rw [sortKeys_obj, depth, depth]
    refine Nat.succ_le_succ (le_trans (depthMembers_le_iff.mpr fun member hmember => ?_)
      (depth_sortMembers members))
    have hmem : member ∈ sortMembers members := (List.perm_insertionSort _ _).mem_iff.mp hmember
    exact depthMembers_le_iff.mp (Nat.le_refl _) member hmem

/-- Sorting makes items no deeper. -/
theorem depth_sortItems : ∀ items : List Json, depthItems (sortItems items) ≤ depthItems items
  | [] => Nat.le_refl _
  | v :: items => max_le_max (depth_sortKeys v) (depth_sortItems items)

/-- Sorting the values makes members no deeper. -/
theorem depth_sortMembers : ∀ members : List (Text × Json),
    depthMembers (sortMembers members) ≤ depthMembers members
  | [] => Nat.le_refl _
  | (_, v) :: members => max_le_max (depth_sortKeys v) (depth_sortMembers members)

end

/-- What was written with sorted keys is read back with sorted keys. -/
theorem loadsStr_dumpsSorted {v : Json} (hv : Plain v) (hdepth : depth v ≤ maxDepth) :
    loadsStr maxDepth (dumpsSorted v) = .ok (sortKeys v) := by
  have hstops : Stops [] := nofun
  have hread := loadsStr_dumpsIndent (plain_sortKeys v hv) ((depth_sortKeys v).trans hdepth)
    hstops rfl
  rwa [List.append_nil] at hread

/-- A newline after it does not count. -/
theorem loadsStr_dumpsSorted_newline {v : Json} (hv : Plain v) (hdepth : depth v ≤ maxDepth) :
    loadsStr maxDepth (dumpsSorted v ++ [chr '\n']) = .ok (sortKeys v) :=
  loadsStr_dumpsIndent (plain_sortKeys v hv) ((depth_sortKeys v).trans hdepth)
    (stops_cons ⟨rfl, rfl, rfl, rfl⟩) rfl

/-! ## The bytes -/

/-- Characters of one byte each. -/
def Ascii (s : Text) : Prop := ∀ c ∈ s, 0 < c.val ∧ c.val < 0x80

/-- Two texts of ASCII make one. -/
theorem Ascii.append {s t : Text} (hs : Ascii s) (ht : Ascii t) : Ascii (s ++ t) :=
  List.forall_mem_append.mpr ⟨hs, ht⟩

/-- A character of ASCII before a text of it makes one. -/
theorem Ascii.cons {c : CodePoint} {s : Text} (hc : 0 < c.val ∧ c.val < 0x80) (hs : Ascii s) :
    Ascii (c :: s) :=
  List.forall_mem_cons.mpr ⟨hc, hs⟩

/-- Printable characters are ASCII. -/
theorem Printable.ascii {s : Text} (h : Printable s) : Ascii s := by
  intro c hc
  have := h c hc
  omega

/-- A newline and its indentation are ASCII. -/
theorem ascii_newline (level : ℕ) : Ascii (newline level) := by
  refine .cons (by decide) fun c hc => ?_
  rw [List.eq_of_mem_replicate hc]
  decide

/-- The colon after a key is ASCII. -/
theorem ascii_colon : Ascii (text ": ") := (printable_text rfl).ascii

mutual

/-- A plain value is written in ASCII. -/
theorem ascii_dumpsIndent : ∀ (v : Json) (level : ℕ), Plain v → Ascii (dumpsIndent level v)
  | .null, _, hv => (printable_dumps .null hv).ascii
  | .bool b, _, hv => (printable_dumps (.bool b) hv).ascii
  | .int n, _, hv => (printable_dumps (.int n) hv).ascii
  | .float _, _, hv => (printable_floatText hv).ascii
  | .str s, _, hv => (printable_dumps (.str s) hv).ascii
  | .arr [], _, hv => (printable_dumps (.arr []) hv).ascii
  | .arr (v :: items), level, hv =>
    .append (.append (.cons (by decide) (ascii_newline (level + 1)))
      (ascii_dumpsIndent v (level + 1) hv.1)) (ascii_dumpsItemsIndent items level hv.2)
  | .obj [], _, hv => (printable_dumps (.obj []) hv).ascii
  | .obj ((key, v) :: members), level, hv =>
    .append (.append (.append (.append (.cons (by decide) (ascii_newline (level + 1)))
      (printable_writeString key).ascii) ascii_colon) (ascii_dumpsIndent v (level + 1) hv.2.2.1))
      (ascii_dumpsMembersIndent members level hv.2.2.2)

/-- Plain items are written in ASCII. -/
theorem ascii_dumpsItemsIndent : ∀ (items : List Json) (level : ℕ), PlainItems items →
    Ascii (dumpsItemsIndent level items)
  | [], level, _ => .append (ascii_newline level) (printable_text rfl).ascii
  | v :: items, level, hv =>
    .append (.append (.cons (by decide) (ascii_newline (level + 1)))
      (ascii_dumpsIndent v (level + 1) hv.1)) (ascii_dumpsItemsIndent items level hv.2)

/-- Plain members are written in ASCII. -/
theorem ascii_dumpsMembersIndent : ∀ (members : List (Text × Json)) (level : ℕ),
    PlainMembers members → Ascii (dumpsMembersIndent level members)
  | [], level, _ => .append (ascii_newline level) (printable_text rfl).ascii
  | (key, v) :: members, level, hv =>
    .append (.append (.append (.append (.cons (by decide) (ascii_newline (level + 1)))
      (printable_writeString key).ascii) ascii_colon) (ascii_dumpsIndent v (level + 1) hv.2.1))
      (ascii_dumpsMembersIndent members level hv.2.2)

end

/-- A file that was written with sorted keys is read back. -/
theorem loads_dumpsSorted {v : Json} (hv : Plain v) (hdepth : depth v ≤ maxDepth) :
    loads maxDepth ((dumpsSorted v ++ [chr '\n']).map (·.val)) = .ok (sortKeys v) := by
  have hascii : Ascii (dumpsSorted v ++ [chr '\n']) :=
    (ascii_dumpsIndent _ 0 (plain_sortKeys v hv)).append
      (.cons (by decide) (List.forall_mem_nil _))
  rw [loads, decodeBytes_ascii hascii]
  exact loadsStr_dumpsSorted_newline hv hdepth

end Fraisier.Lib.Json
