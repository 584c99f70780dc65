import Mathlib.Data.Char
import Mathlib.Data.List.Dedup
import Mathlib.Data.List.Sort
import Mathlib.Data.List.Lex
import Fraisier.Lib.SqlLexemes

/-!
# The schemas of the routines

`_routine_schemas` of `dbops/drift.py`: the schemas that two passes of one pattern find in the built
schema, the second of them over the text without what another pattern takes for comments.
-/

namespace Fraisier.Dbops.RoutineSchemas

open Fraisier.Lib Str SqlText SqlLexemes

/-! ## What fraisier does -/

/-- What depends on the version of Unicode. -/
structure Python where
  /-- The characters of `\w`. -/
  isWord : Char → Bool
  /-- `str.lower`. -/
  lower : Str → Str
  isWord_ascii : ∀ c : Char, c.toNat < 0x80 → isWord c = (c.isAlphanum || c = '_')
  isSpace_of_isWord : ∀ c, isWord c = true → isSpace c = false

/-- Whether a capital letter of a pattern matches a character, whatever the case. -/
def ignoresCase (p c : Char) : Bool :=
  c.toLower = p.toLower || p = 'I' && (c = '\u0130' || c = '\u0131')

/-- The rest after a word of the pattern. -/
def eatWord : Str → Str → Option Str
  | [], s => some s
  | _ :: _, [] => none
  | p :: ps, c :: s => if ignoresCase p c then eatWord ps s else none

/-- The rest after `\s+`. -/
def eatSpaces (s : Str) : Option Str :=
  if s.head?.any isSpace then some (s.dropWhile isSpace) else none

/-- The rest after a word of the pattern and white space. -/
def eat (word : String) (s : Str) : Option Str := (eatWord word.toList s).bind eatSpaces

def eatOrReplace (s : Str) : Str := ((eat "OR" s).bind (eat "REPLACE")).getD s

def eatKind (s : Str) : Option Str := (eat "FUNCTION" s).or (eat "PROCEDURE" s)

/-- The rest after the keywords of `_ROUTINE_SCHEMA_RE`. -/
def eatKeywords (s : Str) : Option Str :=
  (eat "CREATE" s).bind fun s => eatKind (eatOrReplace s)

variable (py : Python)

/-- A character of a schema outside quotes. -/
def inSchema (c : Char) : Bool := py.isWord c || c = '$'

/-- The group `schema` of the pattern, and the rest. -/
def schemaAt : Str → Option (Str × Str)
  | [] => none
  | c :: s =>
    if c = '"' then
      match s.takeWhile (· ≠ '"'), s.dropWhile (· ≠ '"') with
      | _ :: _, _ :: rest => some (c :: s.takeWhile (· ≠ '"') ++ ['"'], rest)
      | _, _ => none
    else if inSchema py c then
      some (c :: s.takeWhile (inSchema py), s.dropWhile (inSchema py))
    else none

/-- The rest after the point behind a schema. -/
def atPoint (found : Str × Str) : Option (Str × Str) :=
  match found.2.dropWhile isSpace with
  | '.' :: rest => some (found.1, rest)
  | _ => none

/-- The schema of a match of `_ROUTINE_SCHEMA_RE` that begins here, and the rest after the match. -/
def routineAt (s : Str) : Option (Str × Str) :=
  (eatKeywords s).bind fun s => (schemaAt py s).bind atPoint

/-- A match that begins with a character, and how far it goes after that. -/
def routinePiece (c : Char) (s : Str) : Option Str × ℕ :=
  match routineAt py (c :: s) with
  | some (schema, rest) => (some schema, s.length - rest.length)
  | none => (none, 0)

/-- The schemas of `_ROUTINE_SCHEMA_RE.finditer`. -/
def foundIn (s : Str) : List Str := (pieces (routinePiece py) 0 s).filterMap id

/-- How far a match of `_SQL_COMMENT_RE` goes that begins with a character. -/
def commentAt (c : Char) (s : Str) : Option ℕ :=
  if c = '/' ∧ s.head? = some '*' then (upTo "*/".toList (s.drop 1)).map (· + 1)
  else if c = '-' ∧ s.head? = some '-' then some (s.takeWhile (· ≠ '\n')).length
  else none

def commentPiece (c : Char) (s : Str) : Str × ℕ :=
  match commentAt c s with
  | some k => ([' '], k)
  | none => ([c], 0)

/-- `_SQL_COMMENT_RE.sub(" ", text)`. -/
def withoutComments (s : Str) : Str := (pieces commentPiece 0 s).flatten

/-- The two passes. -/
inductive Pass
  | raw | stripped
  deriving DecidableEq

/-- `pass_text`. -/
def Pass.text : Pass → Str → Str
  | .raw, s => s
  | .stripped, s => withoutComments s

/-- `_routine_schemas`, of the text of the built schema. -/
def routineSchemas (text : Str) : List Str :=
  let found := [Pass.raw, .stripped].flatMap fun pass =>
    (foundIn py (pass.text text)).map fun schema => py.lower (schema.stripBy (· = '"'))
  ("public".toList :: found).dedup.insertionSort (· ≤ ·)

/-! ## What the pattern matches -/

/-- A word of the pattern in any case. -/
def Spells (word : String) (w : Str) : Prop :=
  List.Forall₂ (fun p c => ignoresCase p c = true) word.toList w

/-- A word that is the same in lower case. -/
theorem spells_of_lower {word : String} {w : Str}
    (h : w.map Char.toLower = word.toList.map Char.toLower) : Spells word w := by
  unfold Spells
  generalize word.toList = ps at h
  induction ps generalizing w with
  | nil =>
    obtain rfl : w = [] := by simpa using h
    exact .nil
  | cons p ps ih =>
    cases w with
    | nil => nomatch h
    | cons c w =>
      obtain ⟨hc, hw⟩ := List.cons.inj h
      exact .cons (by simp [ignoresCase, hc]) (ih hw)

/-- `\s+`. -/
def IsSpaces (ws : Str) : Prop := ws ≠ [] ∧ ∀ c ∈ ws, isSpace c = true

/-- The keywords of the pattern. -/
def headers : List (List String) :=
  [["CREATE", "FUNCTION"], ["CREATE", "PROCEDURE"], ["CREATE", "OR", "REPLACE", "FUNCTION"],
    ["CREATE", "OR", "REPLACE", "PROCEDURE"]]

/-- The keywords, each with white space behind it. -/
def IsHeader (ks : List (Str × Str)) : Prop :=
  (∃ words ∈ headers, List.Forall₂ Spells words (ks.map Prod.fst)) ∧ ∀ k ∈ ks, IsSpaces k.2

/-- What the group `schema` takes. -/
def IsSchema (schema : Str) : Prop :=
  (∃ inner, inner ≠ [] ∧ '"' ∉ inner ∧ schema = '"' :: inner ++ ['"']) ∨
    schema ≠ [] ∧ ∀ c ∈ schema, inSchema py c = true

section Pattern

variable {py} {c : Char} {word : String} {s w ws rest schema tail : Str}

/-- No word of the pattern begins with white space. -/
theorem isSpace_of_ignoresCase {p : Char} (h : ignoresCase p c = true) (hp : p ≠ 'I')
    (hspace : isSpace p.toLower = false) : isSpace c = false := by
  by_contra hc
  have hc : isSpace c = true := Bool.of_not_eq_false hc
  have hlower : c.toLower = c := by
    refine dif_neg fun hupper => ?_
    have hlow : 65 ≤ c.toNat := hupper.1
    have hhigh : c.toNat ≤ 90 := hupper.2
    simp only [isSpace, inRanges, List.any_cons, List.any_nil, Bool.or_eq_true, Bool.and_eq_true,
      decide_eq_true_eq, Bool.false_eq_true, or_false] at hc
    omega
  have hsame : c.toLower = p.toLower := by simpa [ignoresCase, hp] using h
  rw [← hsame, hlower, hc] at hspace
  nomatch hspace

/-- A word is eaten when its letters match but for case. -/
theorem eatWord_iff {word : Str} : eatWord word s = some rest ↔
    ∃ w, s = w ++ rest ∧ List.Forall₂ (fun p c => ignoresCase p c = true) word w := by
  -- Induction on the word.
  induction word generalizing s with
  | nil => simp [eatWord]
  | cons p word ih =>
    cases s with
    | nil => simp [eatWord]
    | cons c s =>
      rw [eatWord]
      constructor
      · intro h
        split at h
        · next hcase =>
          obtain ⟨w, rfl, hw⟩ := ih.mp h
          exact ⟨c :: w, rfl, .cons hcase hw⟩
        · nomatch h
      · rintro ⟨w, hs, hw⟩
        obtain ⟨d, w', hcase, hw', rfl⟩ := List.forall₂_cons_left_iff.mp hw
        obtain ⟨rfl, rfl⟩ := List.cons.inj hs
        rw [if_pos hcase]
        exact ih.mpr ⟨w', rfl, hw'⟩

/-- Nothing is dropped where the first character does not match. -/
theorem dropWhile_eq_self {p : Char → Bool} (h : rest.head?.any p = false) :
    rest.takeWhile p = [] ∧ rest.dropWhile p = rest := by
  cases rest with
  | nil => exact ⟨rfl, rfl⟩
  | cons c rest =>
    have hc : ¬p c = true := by simpa using h
    exact ⟨List.takeWhile_cons_of_neg hc, List.dropWhile_cons_of_neg hc⟩

/-- What is left after dropping does not begin with what is dropped. -/
theorem head_dropWhile (p : Char → Bool) (s : Str) : (s.dropWhile p).head?.any p = false := by
  have h := List.head?_dropWhile_not p s
  cases hhead : (s.dropWhile p).head? with
  | none => rfl
  | some c =>
    rw [hhead] at h
    exact h

/-- Spaces are eaten as far as they go, and there must be some. -/
theorem eatSpaces_iff : eatSpaces s = some rest ↔
    ∃ ws, s = ws ++ rest ∧ IsSpaces ws ∧ rest.head?.any isSpace = false := by
  unfold eatSpaces
  constructor
  -- What is eaten is the longest beginning of spaces.
  · intro h
    split at h
    · next hhead =>
      obtain rfl := Option.some.inj h
      refine ⟨s.takeWhile isSpace, List.takeWhile_append_dropWhile.symm, ⟨?_, fun c hc =>
        List.mem_takeWhile_imp hc⟩, head_dropWhile _ _⟩
      cases s with
      | nil => nomatch hhead
      | cons c s =>
        have hc : isSpace c = true := hhead
        rw [List.takeWhile_cons_of_pos hc]
        exact List.cons_ne_nil _ _
    · nomatch h
  · rintro ⟨ws, rfl, ⟨hws, hspace⟩, hrest⟩
    have hhead : (ws ++ rest).head?.any isSpace = true := by
      obtain ⟨c, ws', rfl⟩ := List.exists_cons_of_ne_nil hws
      exact hspace c List.mem_cons_self
    rw [if_pos hhead, List.dropWhile_append_of_pos hspace, (dropWhile_eq_self hrest).2]

/-- A keyword is eaten with the spaces after it. -/
theorem eat_iff : eat word s = some rest ↔ ∃ w ws, s = w ++ (ws ++ rest) ∧ Spells word w ∧
    IsSpaces ws ∧ rest.head?.any isSpace = false := by
  unfold eat
  rw [Option.bind_eq_some_iff]
  constructor
  · rintro ⟨s', hword, hspaces⟩
    obtain ⟨w, rfl, hw⟩ := eatWord_iff.mp hword
    obtain ⟨ws, rfl, hws, hrest⟩ := eatSpaces_iff.mp hspaces
    exact ⟨w, ws, rfl, hw, hws, hrest⟩
  · rintro ⟨w, ws, rfl, hw, hws, hrest⟩
    exact ⟨ws ++ rest, eatWord_iff.mpr ⟨w, rfl, hw⟩, eatSpaces_iff.mpr ⟨ws, rfl, hws, hrest⟩⟩

/-- What begins with one word of the pattern does not begin with white space, nor with a word of
another first letter. -/
theorem head_of_spells {p : Char} {q : Str} (h : Spells word w) (hword : word.toList = p :: q)
    (hp : p ≠ 'I') (hspace : isSpace p.toLower = false) (rest : Str) :
    (w ++ rest).head?.any isSpace = false := by
  unfold Spells at h
  rw [hword] at h
  obtain ⟨c, w, hc, -, rfl⟩ := List.forall₂_cons_left_iff.mp h
  exact isSpace_of_ignoresCase hc hp hspace

/-- One keyword is not eaten where another stands. -/
theorem eat_eq_none {other : String} {p x : Char} {q t : Str} (h : Spells word w)
    (hword : word.toList = p :: q) (hother : other.toList = x :: t) (hp : p ≠ 'I') (hx : x ≠ 'I')
    (hne : p.toLower ≠ x.toLower) (rest : Str) : eat other (w ++ rest) = none := by
  unfold Spells at h
  rw [hword] at h
  obtain ⟨c, w, hc, -, rfl⟩ := List.forall₂_cons_left_iff.mp h
  have hlower : c.toLower = p.toLower := by simpa [ignoresCase, hp] using hc
  have hcase : ignoresCase x c = false := by simp [ignoresCase, hlower, hx, hne]
  rw [eat, hother, List.cons_append, eatWord, if_neg (by simp [hcase]), Option.bind_none]

/-- The last of the keywords, which are not `OR`. -/
theorem eatKind_iff : eatKind s = some rest ↔ ∃ w ws, s = w ++ (ws ++ rest) ∧
    (Spells "FUNCTION" w ∨ Spells "PROCEDURE" w) ∧ IsSpaces ws ∧
      rest.head?.any isSpace = false := by
  unfold eatKind
  constructor
  · intro h
    -- The kind is a function, and if not that a procedure.
    rcases Option.or_eq_some_iff.mp h with h | ⟨-, h⟩
    · obtain ⟨w, ws, hs, hw, hrest⟩ := eat_iff.mp h
      exact ⟨w, ws, hs, .inl hw, hrest⟩
    · obtain ⟨w, ws, hs, hw, hrest⟩ := eat_iff.mp h
      exact ⟨w, ws, hs, .inr hw, hrest⟩
  · rintro ⟨w, ws, rfl, hw | hw, hrest⟩
    · rw [eat_iff.mpr ⟨w, ws, rfl, hw, hrest⟩]
      rfl
    · have hnone : eat "FUNCTION" (w ++ (ws ++ rest)) = none :=
        eat_eq_none (p := 'P') (x := 'F') hw rfl rfl (by decide) (by decide) (by decide) _
      rw [hnone, eat_iff.mpr ⟨w, ws, rfl, hw, hrest⟩]
      rfl

/-- Where the kind of routine stands, no `OR` is eaten. -/
theorem head_kind (h : Spells "FUNCTION" w ∨ Spells "PROCEDURE" w) (rest : Str) :
    (w ++ rest).head?.any isSpace = false ∧ eat "OR" (w ++ rest) = none := by
  rcases h with h | h
  · exact ⟨head_of_spells (p := 'F') h rfl (by decide) (by decide) rest,
      eat_eq_none (p := 'F') (x := 'O') h rfl rfl (by decide) (by decide) (by decide) rest⟩
  · exact ⟨head_of_spells (p := 'P') h rfl (by decide) (by decide) rest,
      eat_eq_none (p := 'P') (x := 'O') h rfl rfl (by decide) (by decide) (by decide) rest⟩

/-- What matches two lists in a row falls into two parts. -/
theorem exists_of_forall₂_append {α β : Type} {r : α → β → Prop} {a b : List α} {l : List β}
    (h : List.Forall₂ r (a ++ b) l) :
    ∃ l₁ l₂, List.Forall₂ r a l₁ ∧ List.Forall₂ r b l₂ ∧ l = l₁ ++ l₂ := by
  induction a generalizing l with
  | nil => exact ⟨[], l, .nil, h, rfl⟩
  | cons x a ih =>
    obtain ⟨y, l', hxy, hrest, rfl⟩ := List.forall₂_cons_left_iff.mp h
    obtain ⟨l₁, l₂, h₁, h₂, rfl⟩ := ih hrest
    exact ⟨y :: l₁, l₂, .cons hxy h₁, h₂, rfl⟩

/-- The keywords of a header one by one. -/
theorem isHeader_iff {ks : List (Str × Str)} : IsHeader ks ↔ ∃ create orReplace kind,
    ks = create :: orReplace ++ [kind] ∧ (Spells "CREATE" create.1 ∧ IsSpaces create.2) ∧
      (orReplace = [] ∨ ∃ first second, orReplace = [first, second] ∧
        (Spells "OR" first.1 ∧ IsSpaces first.2) ∧ Spells "REPLACE" second.1 ∧ IsSpaces second.2) ∧
      (Spells "FUNCTION" kind.1 ∨ Spells "PROCEDURE" kind.1) ∧ IsSpaces kind.2 := by
  constructor
  · rintro ⟨⟨words, hwords, hks⟩, hspaces⟩
    rw [List.forall₂_map_right_iff] at hks
    -- A header is `CREATE`, the words between, and the kind.
    obtain ⟨middle, kind, rfl, hmiddle, hkind⟩ : ∃ middle kind, words = "CREATE" :: middle ++ [kind] ∧
        (middle = [] ∨ middle = ["OR", "REPLACE"]) ∧ (kind = "FUNCTION" ∨ kind = "PROCEDURE") := by
      simp only [headers, List.mem_cons, List.not_mem_nil, or_false] at hwords
      rcases hwords with rfl | rfl | rfl | rfl
      · exact ⟨[], "FUNCTION", rfl, .inl rfl, .inl rfl⟩
      · exact ⟨[], "PROCEDURE", rfl, .inl rfl, .inr rfl⟩
      · exact ⟨["OR", "REPLACE"], "FUNCTION", rfl, .inr rfl, .inl rfl⟩
      · exact ⟨["OR", "REPLACE"], "PROCEDURE", rfl, .inr rfl, .inr rfl⟩
    obtain ⟨create, others, hcreate, hothers, rfl⟩ := List.forall₂_cons_left_iff.mp hks
    obtain ⟨orReplace, last, hor, hlast, rfl⟩ := exists_of_forall₂_append hothers
    obtain ⟨k, _, hk, hnil, rfl⟩ := List.forall₂_cons_left_iff.mp hlast
    obtain rfl := List.forall₂_nil_left_iff.mp hnil
    have hspace : ∀ {k'}, k' ∈ create :: (orReplace ++ [k]) → IsSpaces k'.2 := hspaces _
    refine ⟨create, orReplace, k, rfl, ⟨hcreate, hspace List.mem_cons_self⟩, ?_, ?_,
      hspace (by simp)⟩
    · rcases hmiddle with rfl | rfl
      · exact .inl (List.forall₂_nil_left_iff.mp hor)
      · obtain ⟨first, rest, hfirst, hrest, rfl⟩ := List.forall₂_cons_left_iff.mp hor
        obtain ⟨second, _, hsecond, hnil, rfl⟩ := List.forall₂_cons_left_iff.mp hrest
        obtain rfl := List.forall₂_nil_left_iff.mp hnil
        exact .inr ⟨first, second, rfl, ⟨hfirst, hspace (by simp)⟩, hsecond, hspace (by simp)⟩
    · rcases hkind with rfl | rfl
      · exact .inl hk
      · exact .inr hk
  · rintro ⟨create, orReplace, kind, rfl, hcreate, hor, hkind, hspaces⟩
    obtain ⟨last, hlast, hword⟩ : ∃ last, (last = "FUNCTION" ∨ last = "PROCEDURE") ∧
        Spells last kind.1 := by
      rcases hkind with hkind | hkind
      · exact ⟨_, .inl rfl, hkind⟩
      · exact ⟨_, .inr rfl, hkind⟩
    rcases hor with rfl | ⟨first, second, rfl, hfirst, hsecond⟩
    · refine ⟨⟨["CREATE", last], ?_, .cons hcreate.1 (.cons hword .nil)⟩, by simp [hcreate, hspaces]⟩
      rcases hlast with rfl | rfl <;> decide
    · refine ⟨⟨["CREATE", "OR", "REPLACE", last], ?_, .cons hcreate.1 (.cons hfirst.1
        (.cons hsecond.1 (.cons hword .nil)))⟩, by simp [hcreate, hfirst, hsecond, hspaces]⟩
      rcases hlast with rfl | rfl <;> decide

/-- The keywords are eaten when they are a routine's header. -/
theorem eatKeywords_iff : eatKeywords s = some rest ↔ ∃ ks : List (Str × Str), IsHeader ks ∧
    s = ks.flatMap (fun k => k.1 ++ k.2) ++ rest ∧ rest.head?.any isSpace = false := by
  unfold eatKeywords
  rw [Option.bind_eq_some_iff]
  constructor
  · rintro ⟨s₁, hcreate, hkind⟩
    obtain ⟨w₁, ws₁, rfl, hw₁, hws₁, hs₁⟩ := eat_iff.mp hcreate
    obtain ⟨w₂, ws₂, hs₂, hw₂, hws₂, hrest⟩ := eatKind_iff.mp hkind
    unfold eatOrReplace at hs₂
    -- `OR REPLACE` is eaten as a whole, or not at all.
    cases hor : (eat "OR" s₁).bind (eat "REPLACE") with
    | none =>
      rw [hor, Option.getD_none] at hs₂
      subst hs₂
      refine ⟨[(w₁, ws₁), (w₂, ws₂)], isHeader_iff.mpr ⟨(w₁, ws₁), [], (w₂, ws₂), rfl, ⟨hw₁, hws₁⟩,
        .inl rfl, hw₂, hws₂⟩, ?_, hrest⟩
      simp
    | some s₂ =>
      rw [hor, Option.getD_some] at hs₂
      subst hs₂
      obtain ⟨s₃, hfirst, hsecond⟩ := Option.bind_eq_some_iff.mp hor
      obtain ⟨w₃, ws₃, rfl, hw₃, hws₃, -⟩ := eat_iff.mp hfirst
      obtain ⟨w₄, ws₄, rfl, hw₄, hws₄, -⟩ := eat_iff.mp hsecond
      refine ⟨[(w₁, ws₁), (w₃, ws₃), (w₄, ws₄), (w₂, ws₂)], isHeader_iff.mpr ⟨(w₁, ws₁),
        [(w₃, ws₃), (w₄, ws₄)], (w₂, ws₂), rfl, ⟨hw₁, hws₁⟩,
        .inr ⟨_, _, rfl, ⟨hw₃, hws₃⟩, hw₄, hws₄⟩, hw₂, hws₂⟩, ?_, hrest⟩
      simp
  · rintro ⟨ks, hks, rfl, hrest⟩
    obtain ⟨create, orReplace, kind, rfl, ⟨hcreate, hspaces⟩, hor, hkind, hspaces'⟩ :=
      isHeader_iff.mp hks
    have hlast : eatKind (kind.1 ++ (kind.2 ++ rest)) = some rest :=
      eatKind_iff.mpr ⟨_, _, rfl, hkind, hspaces', hrest⟩
    -- The header has `OR REPLACE`, or goes on with the kind.
    rcases hor with rfl | ⟨first, second, rfl, ⟨hfirst, hfirst'⟩, hsecond, hsecond'⟩
    · refine ⟨kind.1 ++ (kind.2 ++ rest), eat_iff.mpr ⟨create.1, create.2, by simp, hcreate, hspaces,
        (head_kind hkind _).1⟩, ?_⟩
      rw [eatOrReplace, (head_kind hkind _).2]
      exact hlast
    · have htwo : eat "REPLACE" (second.1 ++ (second.2 ++ (kind.1 ++ (kind.2 ++ rest)))) =
          some (kind.1 ++ (kind.2 ++ rest)) :=
        eat_iff.mpr ⟨_, _, rfl, hsecond, hsecond', (head_kind hkind _).1⟩
      have hone : eat "OR" (first.1 ++ (first.2 ++ (second.1 ++ (second.2 ++
          (kind.1 ++ (kind.2 ++ rest)))))) =
          some (second.1 ++ (second.2 ++ (kind.1 ++ (kind.2 ++ rest)))) :=
        eat_iff.mpr ⟨_, _, rfl, hfirst, hfirst',
          head_of_spells (p := 'R') hsecond rfl (by decide) (by decide) _⟩
      refine ⟨first.1 ++ (first.2 ++ (second.1 ++ (second.2 ++ (kind.1 ++ (kind.2 ++ rest))))),
        eat_iff.mpr ⟨create.1, create.2, by simp, hcreate, hspaces,
          head_of_spells (p := 'O') hfirst rfl (by decide) (by decide) _⟩, ?_⟩
      rw [eatOrReplace, hone, Option.bind_some, htwo]
      exact hlast

/-- A plain character that is no letter, digit, underscore or dollar ends a name. -/
theorem inSchema_eq_false (h : c.toNat < 0x80) (halnum : c.isAlphanum = false) (hunder : c ≠ '_')
    (hdollar : c ≠ '$') : inSchema py c = false := by
  unfold inSchema
  rw [py.isWord_ascii c h, halnum]
  simp [hunder, hdollar]

/-- A character of a name is no space. -/
theorem isSpace_of_inSchema (h : inSchema py c = true) : isSpace c = false := by
  rcases Bool.or_eq_true_iff.mp h with h | h
  · exact py.isSpace_of_isWord c h
  · rw [of_decide_eq_true h]
    decide

/-- A plain name holds no quote. -/
theorem quote_notMem_of_inSchema (h : ∀ c ∈ w, inSchema py c = true) : '"' ∉ w := by
  intro hmem
  have hquote := h _ hmem
  rw [inSchema_eq_false (by decide) (by decide) (by decide) (by decide)] at hquote
  nomatch hquote

/-- The group takes all it can, and in quotes what comes up to the next one. -/
theorem schemaAt_iff : schemaAt py s = some (schema, rest) ↔ s = schema ++ rest ∧
    IsSchema py schema ∧ (schema.head? = some '"' ∨ rest.head?.any (inSchema py) = false) := by
  constructor
  · intro h
    -- A name in quotes ends with the next quote, a plain one where it cannot go on.
    cases s with
    | nil => nomatch h
    | cons c s =>
      rw [schemaAt] at h
      split at h
      · next hc =>
        split at h
        · next x xs y rest' htake hdrop =>
          obtain ⟨rfl, rfl⟩ := Prod.mk.inj (Option.some.inj h)
          have hy : y = '"' := by
            have hhead := head_dropWhile (· ≠ '"') s
            rw [hdrop] at hhead
            simpa using hhead
          have hquote : '"' ∉ s.takeWhile (· ≠ '"') := fun hmem => by
            simpa using List.mem_takeWhile_imp hmem
          refine ⟨?_, .inl ⟨_, by rw [htake]; exact List.cons_ne_nil _ _, hquote, by rw [hc]⟩,
            .inl (by rw [hc]; rfl)⟩
          have hs : s.takeWhile (· ≠ '"') ++ y :: rest' = s := by
            rw [← hdrop, List.takeWhile_append_dropWhile]
          calc c :: s = c :: (s.takeWhile (· ≠ '"') ++ y :: rest') := by rw [hs]
            _ = _ := by rw [hy]; simp
        · nomatch h
      · split at h
        · next hc =>
          obtain ⟨rfl, rfl⟩ := Prod.mk.inj (Option.some.inj h)
          refine ⟨by rw [List.cons_append, List.takeWhile_append_dropWhile],
            .inr ⟨List.cons_ne_nil _ _, List.forall_mem_cons.mpr ⟨hc, fun d hd =>
              List.mem_takeWhile_imp hd⟩⟩, .inr (head_dropWhile _ _)⟩
        · nomatch h
  · rintro ⟨rfl, ⟨inner, hne, hquote, rfl⟩ | ⟨hne, hall⟩, hrest⟩
    · have hinner : ∀ c ∈ inner, decide (c ≠ '"') = true := fun c hc =>
        decide_eq_true fun heq => hquote (heq ▸ hc)
      have htake : (inner ++ '"' :: rest).takeWhile (· ≠ '"') = inner := by
        rw [List.takeWhile_append_of_pos hinner, List.takeWhile_cons_of_neg (by decide),
          List.append_nil]
      have hdrop : (inner ++ '"' :: rest).dropWhile (· ≠ '"') = '"' :: rest := by
        rw [List.dropWhile_append_of_pos hinner, List.dropWhile_cons_of_neg (by decide)]
      have hassoc : '"' :: inner ++ ['"'] ++ rest = '"' :: (inner ++ '"' :: rest) := by simp
      obtain ⟨c, inner, rfl⟩ := List.exists_cons_of_ne_nil hne
      rw [hassoc, schemaAt, if_pos rfl, htake, hdrop]
    · obtain ⟨c, w, rfl⟩ := List.exists_cons_of_ne_nil hne
      obtain ⟨hc, hw⟩ := List.forall_mem_cons.mp hall
      have hcquote : c ≠ '"' := fun heq =>
        quote_notMem_of_inSchema hall (heq ▸ List.mem_cons_self)
      have hrest : rest.head?.any (inSchema py) = false :=
        hrest.resolve_left fun heq => hcquote (Option.some.inj heq)
      rw [List.cons_append, schemaAt, if_neg hcquote, if_pos hc, List.takeWhile_append_of_pos hw,
        List.dropWhile_append_of_pos hw, (dropWhile_eq_self hrest).1, (dropWhile_eq_self hrest).2,
        List.append_nil]

/-- Neither white space nor a point is of a schema, nor does one begin with white space. -/
theorem head_of_isSchema (h : IsSchema py schema) (rest : Str) :
    (schema ++ rest).head?.any isSpace = false := by
  rcases h with ⟨inner, -, -, rfl⟩ | ⟨hne, hall⟩
  · rfl
  · obtain ⟨c, w, rfl⟩ := List.exists_cons_of_ne_nil hne
    exact isSpace_of_inSchema (hall c List.mem_cons_self)

/-- What follows a name does not go on with it. -/
theorem head_after_schema (hws : ∀ c ∈ ws, isSpace c = true) :
    (ws ++ '.' :: tail).head?.any (inSchema py) = false := by
  cases ws with
  | nil => exact inSchema_eq_false (by decide) (by decide) (by decide) (by decide)
  | cons c ws =>
    by_contra hc
    have hnone := isSpace_of_inSchema (Bool.of_not_eq_false hc)
    rw [hws c List.mem_cons_self] at hnone
    nomatch hnone

/-- A match, by what the pattern says. -/
theorem routineAt_iff : routineAt py s = some (schema, tail) ↔
    ∃ (ks : List (Str × Str)) (ws : Str), IsHeader ks ∧ IsSchema py schema ∧
      (∀ c ∈ ws, isSpace c = true) ∧
      s = ks.flatMap (fun k => k.1 ++ k.2) ++ (schema ++ (ws ++ '.' :: tail)) := by
  unfold routineAt
  constructor
  -- The parts of the pattern match one after the other.
  · intro h
    obtain ⟨s₁, hkeys, h⟩ := Option.bind_eq_some_iff.mp h
    obtain ⟨⟨schema', s₂⟩, hschema, h⟩ := Option.bind_eq_some_iff.mp h
    unfold atPoint at h
    split at h
    · next tail' hpoint =>
      obtain ⟨rfl, rfl⟩ := Prod.mk.inj (Option.some.inj h)
      obtain ⟨ks, hks, rfl, -⟩ := eatKeywords_iff.mp hkeys
      obtain ⟨rfl, hschema, -⟩ := schemaAt_iff.mp hschema
      refine ⟨ks, s₂.takeWhile isSpace, hks, hschema, fun c hc => List.mem_takeWhile_imp hc, ?_⟩
      rw [← hpoint, List.takeWhile_append_dropWhile]
    · nomatch h
  · rintro ⟨ks, ws, hks, hschema, hws, rfl⟩
    have hdrop : (ws ++ '.' :: tail).dropWhile isSpace = '.' :: tail := by
      rw [List.dropWhile_append_of_pos hws, List.dropWhile_cons_of_neg (by decide)]
    rw [eatKeywords_iff.mpr ⟨ks, hks, rfl, head_of_isSchema hschema _⟩, Option.bind_some,
      schemaAt_iff.mpr ⟨rfl, hschema, .inr (head_after_schema hws)⟩, Option.bind_some, atPoint, hdrop]
    rfl

end Pattern

variable {py} {text schema : Str} {pass : Pass}

/-- The schema `public` is always on the list. -/
theorem public_mem (text : Str) : "public".toList ∈ routineSchemas py text :=
  (List.perm_insertionSort _ _).mem_iff.mpr (List.mem_dedup.mpr List.mem_cons_self)

/-- What is found begins behind the matches before it. -/
theorem mem_foundIn_iff {s : Str} : schema ∈ foundIn py s ↔ ∃ before rest tail,
    s = before ++ rest ∧ (piecesOf (routinePiece py) 0 before rest).2 = 0 ∧
      routineAt py rest = some (schema, tail) := by
  unfold foundIn
  rw [List.mem_filterMap]
  constructor
  -- A match is found at a piece, which begins where the last match ended.
  · rintro ⟨_, hmem, rfl⟩
    obtain ⟨before, c, rest, rfl, hzero, hpiece⟩ := mem_pieces_iff.mp hmem
    unfold routinePiece at hpiece
    split at hpiece
    · next schema' tail hmatch =>
      obtain rfl := Option.some.inj hpiece
      exact ⟨before, c :: rest, tail, rfl, hzero, hmatch⟩
    · nomatch hpiece
  · rintro ⟨before, rest, tail, rfl, hzero, hmatch⟩
    cases rest with
    | nil => nomatch hmatch
    | cons c rest =>
      refine ⟨some schema, mem_pieces_iff.mpr ⟨before, c, rest, rfl, hzero, ?_⟩, rfl⟩
      unfold routinePiece
      rw [hmatch]

/-- The schemas are `public` and what the passes find, without quotes and in lower case. -/
theorem mem_routineSchemas_iff {s : Str} : s ∈ routineSchemas py text ↔ s = "public".toList ∨
    ∃ pass : Pass, ∃ schema ∈ foundIn py (pass.text text),
      py.lower (schema.stripBy (· = '"')) = s := by
  unfold routineSchemas
  rw [(List.perm_insertionSort _ _).mem_iff, List.mem_dedup, List.mem_cons]
  refine or_congr Iff.rfl ⟨fun h => ?_, ?_⟩
  · obtain ⟨pass, -, h⟩ := List.mem_flatMap.mp h
    obtain ⟨schema, hschema, rfl⟩ := List.mem_map.mp h
    exact ⟨pass, schema, hschema, rfl⟩
  · rintro ⟨pass, schema, hschema, rfl⟩
    refine List.mem_flatMap.mpr ⟨pass, ?_, List.mem_map_of_mem hschema⟩
    cases pass with
    | raw => exact List.mem_cons_self
    | stripped => exact List.mem_cons_of_mem _ List.mem_cons_self

/-- A pass sees a schema: in what the pass reads, the keywords and the schema stand with white space
behind each keyword and a point behind the schema, its lower case is `s`, and no match that began
before reaches into them. -/
def Sees (py : Python) (pass : Pass) (text s : Str) : Prop :=
  ∃ (before : Str) (ks : List (Str × Str)) (schema ws tail : Str),
    let rest := ks.flatMap (fun k => k.1 ++ k.2) ++ (schema ++ (ws ++ '.' :: tail))
    pass.text text = before ++ rest ∧ IsHeader ks ∧ IsSchema py schema ∧
      (∀ c ∈ ws, isSpace c = true) ∧ py.lower (schema.stripBy (· = '"')) = s ∧
      (piecesOf (routinePiece py) 0 before rest).2 = 0

/-- The schemas are `public` and those that a pass sees. -/
theorem mem_routineSchemas_iff_sees {s : Str} : s ∈ routineSchemas py text ↔
    s = "public".toList ∨ ∃ pass, Sees py pass text s := by
  rw [mem_routineSchemas_iff]
  refine or_congr Iff.rfl (exists_congr fun pass => ⟨?_, ?_⟩)
  · rintro ⟨schema, hschema, rfl⟩
    obtain ⟨before, rest, tail, heq, hzero, hmatch⟩ := mem_foundIn_iff.mp hschema
    obtain ⟨ks, ws, hks, hschema, hws, rfl⟩ := routineAt_iff.mp hmatch
    exact ⟨before, ks, schema, ws, tail, heq, hks, hschema, hws, rfl, hzero⟩
  · rintro ⟨before, ks, schema, ws, tail, heq, hks, hschema, hws, hlower, hzero⟩
    exact ⟨schema, mem_foundIn_iff.mpr ⟨before, _, tail, heq, hzero,
      routineAt_iff.mpr ⟨ks, ws, hks, hschema, hws, rfl⟩⟩, hlower⟩

end Fraisier.Dbops.RoutineSchemas
