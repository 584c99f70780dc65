import Mathlib
import Fraisier.Lib.Strip
import Fraisier.Dbops.RoutineSchemas

/-!
# Which schemas are found

`declared` is what a built schema declares routines in, by the lexemes of its text, and
`covers_iff` says when `_routine_schemas` leaves none of these out. A declaration is `Plain` in
one of the two passes where the pass leaves its words as they are and white space between them, where
the schema is one that the pattern takes as it is read, and where no match that began before reaches
into it.
-/

namespace Fraisier.Dbops.RoutineSchemas

open Fraisier.Lib Str SqlText SqlLexemes

/-! ## What the schema declares -/

/-- A keyword, with what stands behind it up to the next token. -/
def keyword (word : String) : List Lexeme → Option ((Str × List Lexeme) × List Lexeme)
  | .word w :: ls =>
    if w.map Char.toLower = word.toList.map Char.toLower then
      some ((w, ls.takeWhile Lexeme.isGap), ls.dropWhile Lexeme.isGap)
    else none
  | _ => none

/-- A name before a point, with what stands between, and the rest behind the point. -/
def qualifier : List Lexeme → Option ((Lexeme × List Lexeme) × List Lexeme)
  | [] => none
  | l :: ls =>
    match l.ident?, ls.dropWhile Lexeme.isGap with
    | some _, .symbol '.' :: rest => some ((l, ls.takeWhile Lexeme.isGap), rest)
    | _, _ => none

/-- A name comes, which is not the qualifier of another. -/
def endsName (ls : List Lexeme) : Bool :=
  match ls.dropWhile Lexeme.isGap with
  | [] => false
  | .symbol _ :: _ => false
  | _ :: rest => (rest.dropWhile Lexeme.isGap).head? ≠ some (.symbol '.')

/-- The declaration of a routine up to the point behind its schema. -/
structure Declaration where
  /-- `CREATE [OR REPLACE] FUNCTION`, or `PROCEDURE`, each with what stands behind it. -/
  keywords : List (Str × List Lexeme)
  /-- The catalog, where there is one, up to the schema. -/
  catalog : List Lexeme
  schema : Lexeme
  /-- What stands between the schema and the point. -/
  gap : List Lexeme
  deriving DecidableEq

/-- `OR REPLACE`, where it comes next. -/
def orReplaceAt (ls : List Lexeme) : List (Str × List Lexeme) × List Lexeme :=
  match keyword "OR" ls with
  | none => ([], ls)
  | some (first, rest) =>
    match keyword "REPLACE" rest with
    | none => ([], ls)
    | some (second, rest) => ([first, second], rest)

/-- The keywords of a declaration. -/
def keywordsAt (ls : List Lexeme) : Option (List (Str × List Lexeme) × List Lexeme) := do
  let (create, ls) ← keyword "CREATE" ls
  let (kind, rest) ← (keyword "FUNCTION" (orReplaceAt ls).2).or
    (keyword "PROCEDURE" (orReplaceAt ls).2)
  return (create :: (orReplaceAt ls).1 ++ [kind], rest)

/-- The declaration that begins here, and the rest. -/
def declarationAt (ls : List Lexeme) : Option (Declaration × List Lexeme) := do
  let (keywords, ls) ← keywordsAt ls
  let ((first, gap), rest) ← qualifier ls
  match qualifier (rest.dropWhile Lexeme.isGap) with
  | none => if endsName rest then some (⟨keywords, [], first, gap⟩, rest) else none
  | some ((schema, gap'), rest') =>
    if endsName rest' then
      some (⟨keywords, first :: gap ++ .symbol '.' :: rest.takeWhile Lexeme.isGap, schema, gap'⟩, rest')
    else none

/-- A declaration in a text, with what stands before and behind it. -/
structure Place where
  before : List Lexeme
  declaration : Declaration
  after : List Lexeme
  deriving DecidableEq

/-- The declarations of a text. -/
def places (text : Str) : List Place :=
  let ls := lexemes text
  (List.range ls.length).filterMap fun n =>
    (declarationAt (ls.drop n)).map fun d => ⟨ls.take n, d.1, d.2⟩

/-- The schemas that the text declares a routine in. -/
def declared (text : Str) : List Str := (places text).filterMap (·.declaration.schema.ident?)

/-- No schema is left out. -/
def Covers (py : Python) (text : Str) : Prop :=
  (∀ s ∈ declared text, s ∈ routineSchemas py text) ∧ "public".toList ∈ routineSchemas py text

/-! ## Plain declarations -/

/-- A part of a declaration: a word that is to be left as it is, or what stands between. -/
inductive Part
  | kept (s : Str)
  | gap (s : Str)
  deriving DecidableEq

def Part.text : Part → Str
  | .kept s => s
  | .gap s => s

/-- What may be left of a part. -/
def Part.isLeft : Part → Str → Bool
  | .kept s, out => out = s
  | .gap _, out => out.all isSpace

/-- What a pass makes of the text that begins with a character. -/
def Pass.piece : Pass → Char → Str → Str × ℕ
  | .raw, c, _ => ([c], 0)
  | .stripped, c, s => commentPiece c s

/-- What a pass leaves of a text before another. -/
def Pass.left (pass : Pass) (s rest : Str) : Str := (piecesOf pass.piece 0 s rest).1.flatten

/-- A pass begins anew behind the text. -/
def Pass.endsAt (pass : Pass) (s rest : Str) : Bool := (piecesOf pass.piece 0 s rest).2 = 0

/-- A pass leaves the words as they are, and white space between them. -/
def leaves (pass : Pass) : List Part → Str → Bool
  | [], _ => true
  | part :: parts, rest =>
    let after := parts.flatMap Part.text ++ rest
    pass.endsAt part.text after && part.isLeft (pass.left part.text after) &&
      leaves pass parts rest

/-- The text of lexemes. -/
def written (ls : List Lexeme) : Str := ls.flatMap Lexeme.text

def keywordParts (keywords : List (Str × List Lexeme)) : List Part :=
  keywords.flatMap fun k => [.kept k.1, .gap (written k.2)]

/-- The parts of a declaration that has no catalog. -/
def Declaration.parts (d : Declaration) : List Part :=
  keywordParts d.keywords ++ [.kept d.schema.text, .gap (written d.gap), .kept ['.']]

/-- A schema that the pattern takes, and as it is read: outside quotes all its characters are of
`\w` or dollars, in quotes there is no quote; and `str.lower` makes of it what it is read as. -/
def Regular (py : Python) : Lexeme → Prop
  | .word w => (∀ c ∈ w, inSchema py c = true) ∧ py.lower w = w.map Char.toLower
  | .name inner => inner ≠ [] ∧ '"' ∉ inner ∧ py.lower inner = inner
  | _ => False

/-- A declaration that a pass finds. -/
structure Plain (py : Python) (pass : Pass) (place : Place) : Prop where
  regular : Regular py place.declaration.schema
  noCatalog : place.declaration.catalog = []
  /-- Something stands behind each keyword. -/
  spaced : ∀ k ∈ place.declaration.keywords, k.2 ≠ []
  /-- What is taken for a comment before the declaration does not reach into it. -/
  begins : pass.endsAt (written place.before)
    (place.declaration.parts.flatMap Part.text ++ written place.after) = true
  left : leaves pass place.declaration.parts (written place.after) = true
  /-- A match of the pattern before the declaration does not reach into it. -/
  reached : (piecesOf (routinePiece py) 0
      (pass.left (written place.before)
        (place.declaration.parts.flatMap Part.text ++ written place.after))
      (pass.text (place.declaration.parts.flatMap Part.text ++ written place.after))).2 = 0

/-! ## Declarations in a text -/

section Places

variable {text : Str} {ls rest : List Lexeme} {k : Str × List Lexeme} {word : String}
  {ks : List (Str × List Lexeme)} {d : Declaration} {place : Place}

/-- A keyword that is read stands at the front. -/
theorem keyword_eq (h : keyword word ls = some (k, rest)) :
    ls = .word k.1 :: k.2 ++ rest ∧ Spells word k.1 := by
  unfold keyword at h
  split at h
  · next w ls =>
    split at h
    · next hw =>
      obtain ⟨rfl, rfl⟩ := Prod.mk.inj (Option.some.inj h)
      exact ⟨by rw [List.cons_append, List.takeWhile_append_dropWhile], spells_of_lower hw⟩
    · nomatch h
  · nomatch h

/-- A qualifier that is read stands before its dot. -/
theorem qualifier_eq {l : Lexeme} {gap : List Lexeme} (h : qualifier ls = some ((l, gap), rest)) :
    ls = l :: gap ++ .symbol '.' :: rest := by
  cases ls with
  | nil => nomatch h
  | cons l' ls =>
    rw [qualifier] at h
    split at h
    · next hdrop =>
      obtain ⟨heq, rfl⟩ := Prod.mk.inj (Option.some.inj h)
      obtain ⟨rfl, rfl⟩ := Prod.mk.inj heq
      rw [List.cons_append, ← hdrop, List.takeWhile_append_dropWhile]
    · nomatch h

/-- The keywords as lexemes. -/
def keywordLexemes (ks : List (Str × List Lexeme)) : List Lexeme :=
  ks.flatMap fun k => .word k.1 :: k.2

/-- `OR REPLACE` is read when it stands there. -/
theorem orReplaceAt_eq (ls : List Lexeme) :
    ls = keywordLexemes (orReplaceAt ls).1 ++ (orReplaceAt ls).2 ∧
      ((orReplaceAt ls).1 = [] ∨ ∃ first second, (orReplaceAt ls).1 = [first, second] ∧
        Spells "OR" first.1 ∧ Spells "REPLACE" second.1) := by
  unfold orReplaceAt
  split
  · exact ⟨rfl, .inl rfl⟩
  · next first rest hfirst =>
    split
    · exact ⟨rfl, .inl rfl⟩
    · next second rest' hsecond =>
      obtain ⟨hls, hor⟩ := keyword_eq hfirst
      obtain ⟨hrest, hreplace⟩ := keyword_eq hsecond
      refine ⟨?_, .inr ⟨first, second, rfl, hor, hreplace⟩⟩
      rw [hls, hrest]
      simp [keywordLexemes]

/-- The keywords are those of a header. -/
def AreKeywords (ks : List (Str × List Lexeme)) : Prop :=
  ∃ words ∈ headers, List.Forall₂ Spells words (ks.map Prod.fst)

/-- The keywords that are read stand at the front. -/
theorem keywordsAt_eq (h : keywordsAt ls = some (ks, rest)) :
    ls = keywordLexemes ks ++ rest ∧ AreKeywords ks := by
  obtain ⟨⟨create, ls'⟩, hcreate, h⟩ := Option.bind_eq_some_iff.mp h
  obtain ⟨⟨kind, rest'⟩, hkind, h⟩ := Option.bind_eq_some_iff.mp h
  obtain ⟨rfl, rfl⟩ := Prod.mk.inj (Option.some.inj h)
  obtain ⟨hls, hspells⟩ := keyword_eq hcreate
  obtain ⟨hls', hor⟩ := orReplaceAt_eq ls'
  generalize orReplaceAt ls' = orReplace at hkind hls' hor ⊢
  -- The last keyword is one of two.
  obtain ⟨last, hlast, hls'', hword⟩ : ∃ last, (last = "FUNCTION" ∨ last = "PROCEDURE") ∧
      orReplace.2 = .word kind.1 :: kind.2 ++ rest' ∧ Spells last kind.1 := by
    rcases Option.or_eq_some_iff.mp hkind with hkind | ⟨-, hkind⟩
    · exact ⟨_, .inl rfl, keyword_eq hkind⟩
    · exact ⟨_, .inr rfl, keyword_eq hkind⟩
  constructor
  · rw [hls, hls', hls'']
    simp [keywordLexemes]
  -- The two words between them may be left out.
  · rcases hor with hor | ⟨first, second, hor, hfirst, hsecond⟩
    · rw [hor]
      refine ⟨["CREATE", last], ?_, .cons hspells (.cons hword .nil)⟩
      rcases hlast with rfl | rfl <;> decide
    · rw [hor]
      refine ⟨["CREATE", "OR", "REPLACE", last], ?_,
        .cons hspells (.cons hfirst (.cons hsecond (.cons hword .nil)))⟩
      rcases hlast with rfl | rfl <;> decide

/-- A declaration that is read stands at the front. -/
theorem declarationAt_eq (h : declarationAt ls = some (d, rest)) :
    ls = keywordLexemes d.keywords ++ (d.catalog ++ d.schema :: d.gap ++ .symbol '.' :: rest) ∧
      AreKeywords d.keywords := by
  obtain ⟨⟨keywords, ls'⟩, hkeywords, h⟩ := Option.bind_eq_some_iff.mp h
  obtain ⟨⟨⟨first, gap⟩, rest'⟩, hfirst, h⟩ := Option.bind_eq_some_iff.mp h
  obtain ⟨hls, hheader⟩ := keywordsAt_eq hkeywords
  have hls' := qualifier_eq hfirst
  dsimp only at h hls'
  -- The first qualifier is the schema, or a catalog with the schema behind it.
  split at h
  · split at h
    · obtain ⟨rfl, rfl⟩ := Prod.mk.inj (Option.some.inj h)
      exact ⟨by rw [hls, hls']; rfl, hheader⟩
    · nomatch h
  · next schema gap' rest'' hschema =>
    split at h
    · obtain ⟨rfl, rfl⟩ := Prod.mk.inj (Option.some.inj h)
      have hrest' : rest' = rest'.takeWhile Lexeme.isGap ++
          (schema :: gap' ++ .symbol '.' :: rest'') := by
        rw [← qualifier_eq hschema, List.takeWhile_append_dropWhile]
      refine ⟨?_, hheader⟩
      calc ls = keywordLexemes keywords ++ (first :: gap ++ .symbol '.' :: rest') := by rw [hls, hls']
        _ = keywordLexemes keywords ++ (first :: gap ++ .symbol '.' ::
            (rest'.takeWhile Lexeme.isGap ++ (schema :: gap' ++ .symbol '.' :: rest''))) := by
          rw [← hrest']
        _ = _ := by simp
    · nomatch h

/-- A place is a declaration with what stands before and after it. -/
theorem mem_places (h : place ∈ places text) :
    lexemes text = place.before ++ (keywordLexemes place.declaration.keywords ++
      (place.declaration.catalog ++ place.declaration.schema :: place.declaration.gap ++
        .symbol '.' :: place.after)) ∧ AreKeywords place.declaration.keywords := by
  obtain ⟨n, -, h⟩ := List.mem_filterMap.mp h
  obtain ⟨⟨d, after⟩, hd, rfl⟩ := Option.map_eq_some_iff.mp h
  obtain ⟨hdrop, hheader⟩ := declarationAt_eq hd
  exact ⟨by rw [← hdrop, List.take_append_drop], hheader⟩

/-- What is written is written in order. -/
theorem written_append (ls ls' : List Lexeme) : written (ls ++ ls') = written ls ++ written ls' :=
  List.flatMap_append

/-- The keyword parts have the keywords' text. -/
theorem text_keywordParts (ks : List (Str × List Lexeme)) :
    (keywordParts ks).flatMap Part.text = written (keywordLexemes ks) := by
  induction ks with
  | nil => rfl
  | cons k ks ih =>
    have hleft : (keywordParts (k :: ks)).flatMap Part.text =
        k.1 ++ (written k.2 ++ (keywordParts ks).flatMap Part.text) := by simp [keywordParts, Part.text]
    have hright : written (keywordLexemes (k :: ks)) =
        k.1 ++ (written k.2 ++ written (keywordLexemes ks)) := by
      simp [keywordLexemes, written, Lexeme.text]
    rw [hleft, hright, ih]

/-- The parts of a declaration have its text. -/
theorem text_parts (d : Declaration) : d.parts.flatMap Part.text =
    written (keywordLexemes d.keywords) ++ (d.schema.text ++ (written d.gap ++ ['.'])) := by
  rw [Declaration.parts, List.flatMap_append, text_keywordParts]
  rfl

/-- A declaration without a catalog stands in its text as its parts do. -/
theorem text_eq (h : place ∈ places text) (hcatalog : place.declaration.catalog = []) :
    text = written place.before ++
      (place.declaration.parts.flatMap Part.text ++ written place.after) := by
  have htext := flatMap_lexemes text
  rw [(mem_places h).1, hcatalog] at htext
  rw [← htext, text_parts]
  simp [written, Lexeme.text]

end Places

/-! ## What a pass leaves -/

section Left

variable {pass : Pass} {s t rest : Str} {parts : List Part}

/-- What a pass leaves of a text is made of its pieces. -/
theorem text_eq_pieces (pass : Pass) (s : Str) : pass.text s = (pieces pass.piece 0 s).flatten := by
  cases pass with
  | raw =>
    have hone : (pieces Pass.raw.piece 0 s).flatMap id = s := flatMap_pieces (fun _ _ => rfl) 0 s
    rw [List.flatMap_id] at hone
    exact hone.symm
  | stripped => rfl

/-- A pass on a text goes on behind a part that it ends at. -/
theorem text_append (h : pass.endsAt s rest = true) :
    pass.text (s ++ rest) = pass.left s rest ++ pass.text rest := by
  rw [text_eq_pieces, text_eq_pieces, pieces_append, of_decide_eq_true h, List.flatten_append]
  rfl

/-- What a pass leaves of two texts is left of each, when the first ends. -/
theorem left_append (h : pass.endsAt s (t ++ rest) = true) :
    pass.left (s ++ t) rest = pass.left s (t ++ rest) ++ pass.left t rest ∧
      pass.endsAt (s ++ t) rest = pass.endsAt t rest := by
  have hzero : (piecesOf pass.piece 0 s (t ++ rest)).2 = 0 := of_decide_eq_true h
  unfold Pass.left Pass.endsAt
  rw [piecesOf_append, hzero, List.flatten_append]
  exact ⟨rfl, rfl⟩

/-- Something is left of a text that is not empty. -/
theorem left_ne_nil (hs : s ≠ []) (rest : Str) : pass.left s rest ≠ [] := by
  obtain ⟨c, s, rfl⟩ := List.exists_cons_of_ne_nil hs
  have hpiece : (pass.piece c (s ++ rest)).1 ≠ [] := by
    cases pass with
    | raw => exact List.cons_ne_nil c []
    | stripped =>
      change (commentPiece c (s ++ rest)).1 ≠ []
      unfold commentPiece
      split
      · exact List.cons_ne_nil _ _
      · exact List.cons_ne_nil _ _
  unfold Pass.left
  rw [piecesOf, List.flatten_cons]
  exact List.append_ne_nil_of_left_ne_nil hpiece _

/-- A pass leaves the parts when it leaves the first and then the rest. -/
theorem leaves_cons {part : Part} (h : leaves pass (part :: parts) rest = true) :
    part.isLeft (pass.left part.text (parts.flatMap Part.text ++ rest)) = true ∧
      leaves pass parts rest = true ∧
      pass.left ((part :: parts).flatMap Part.text) rest =
        pass.left part.text (parts.flatMap Part.text ++ rest) ++
          pass.left (parts.flatMap Part.text) rest := by
  simp only [leaves, Bool.and_eq_true] at h
  exact ⟨h.1.2, h.2, (left_append h.1.1).1⟩

/-- A pass ends at the end of what it leaves the words of. -/
theorem endsAt_of_leaves (h : leaves pass parts rest = true) :
    pass.endsAt (parts.flatMap Part.text) rest = true := by
  induction parts with
  | nil => rfl
  | cons part parts ih =>
    simp only [leaves, Bool.and_eq_true] at h
    rw [List.flatMap_cons, (left_append h.1.1).2]
    exact ih h.2

/-- What is left of keywords: the keywords, each with white space behind it. -/
theorem left_keywordParts {ks : List (Str × List Lexeme)}
    (h : leaves pass (keywordParts ks ++ parts) rest = true)
    (hspaced : ∀ k ∈ ks, written k.2 ≠ []) : ∃ outs : List (Str × Str),
      outs.map Prod.fst = ks.map Prod.fst ∧
      (∀ out ∈ outs, out.2 ≠ [] ∧ ∀ c ∈ out.2, isSpace c = true) ∧
      leaves pass parts rest = true ∧
      pass.left ((keywordParts ks ++ parts).flatMap Part.text) rest =
        outs.flatMap (fun out => out.1 ++ out.2) ++ pass.left (parts.flatMap Part.text) rest := by
  -- Induction on the keywords.
  induction ks with
  | nil => exact ⟨[], rfl, List.forall_mem_nil _, h, rfl⟩
  | cons k ks ih =>
    obtain ⟨hgap, hspaced⟩ := List.forall_mem_cons.mp hspaced
    have hparts : keywordParts (k :: ks) ++ parts =
        .kept k.1 :: .gap (written k.2) :: (keywordParts ks ++ parts) := rfl
    rw [hparts] at h ⊢
    obtain ⟨hkept, h, hleft⟩ := leaves_cons h
    obtain ⟨hspace, h, hleft'⟩ := leaves_cons h
    obtain ⟨outs, hfst, houts, hrest, heq⟩ := ih h hspaced
    have hkept := of_decide_eq_true hkept
    refine ⟨(k.1, pass.left (written k.2) ((keywordParts ks ++ parts).flatMap Part.text ++ rest)) ::
      outs, by rw [List.map_cons, List.map_cons, hfst], ?_, hrest, ?_⟩
    · exact List.forall_mem_cons.mpr ⟨⟨left_ne_nil hgap _, List.all_eq_true.mp hspace⟩, houts⟩
    · rw [hleft, hkept, hleft', heq, List.flatMap_cons]
      simp only [List.append_assoc]
      rfl

end Left

/-! ## Plain declarations are found -/

section Found

variable {py : Python} {pass : Pass} {place : Place} {text s rest : Str} {l : Lexeme}

/-- No lexeme is empty. -/
theorem text_ne_nil (h : l ∈ lexemes text) : l.text ≠ [] :=
  forall_pieces (p := fun l => l.text ≠ [])
    (fun c s => by rw [text_lexeme]; exact List.cons_ne_nil _ _) 0 text l h

/-- A regular name is a schema's. -/
theorem isSchema_of_regular (h : Regular py l) (hne : l.text ≠ []) : IsSchema py l.text := by
  cases l with
  | word w => exact .inr ⟨hne, h.1⟩
  | name inner => exact .inl ⟨inner, h.1, h.2.1, rfl⟩
  | blank c => exact h.elim
  | comment s => exact h.elim
  | literal s => exact h.elim
  | symbol c => exact h.elim

/-- What fraisier makes of a regular schema is what it is read as. -/
theorem lower_regular (h : Regular py l) (hs : l.ident? = some s) :
    py.lower (l.text.stripBy (· = '"')) = s := by
  -- A name without quotes has none to strip.
  have hends : ∀ {w : Str}, '"' ∉ w → (∀ c r, w = c :: r → decide (c = '"') = false) ∧
      ∀ c r, w = r ++ [c] → decide (c = '"') = false := by
    intro w hw
    have hne : ∀ c ∈ w, decide (c = '"') = false := fun c hc =>
      decide_eq_false fun heq => hw (heq ▸ hc)
    exact ⟨fun c r heq => hne c (heq ▸ List.mem_cons_self),
      fun c r heq => hne c (heq ▸ List.mem_append_right _ List.mem_cons_self)⟩
  -- A regular name is a plain word, or a quoted one of plain characters.
  cases l with
  | word w =>
    obtain rfl := Option.some.inj hs
    have hquote : '"' ∉ w := quote_notMem_of_inSchema h.1
    have hstrip : w.stripBy (· = '"') = w := by
      have hstrip := stripBy_eq (a := []) (b := []) nofun nofun (hends hquote).1 (hends hquote).2
      rwa [List.append_nil] at hstrip
    rw [Lexeme.text, hstrip, h.2]
  | name inner =>
    obtain rfl := Option.some.inj hs
    have hstrip : stripBy (· = '"') ('"' :: inner ++ ['"']) = inner :=
      stripBy_eq (a := ['"']) (b := ['"']) (by simp) (by simp) (hends h.2.1).1 (hends h.2.1).2
    rw [Lexeme.text, hstrip, h.2.2, unquoted_eq h.2.1]
  | blank c => exact h.elim
  | comment s => exact h.elim
  | literal s => exact h.elim
  | symbol c => exact h.elim

/-- A plain declaration is seen. -/
theorem sees_of_plain (hplace : place ∈ places text) (h : Plain py pass place)
    (hs : place.declaration.schema.ident? = some s) : Sees py pass text s := by
  obtain ⟨heq, hkeywords⟩ := mem_places hplace
  have htext := text_eq hplace h.noCatalog
  obtain ⟨regular, -, spaced, begins, left, reached⟩ := h
  -- No lexeme between the keywords is empty.
  have hlexemes : ∀ l ∈ keywordLexemes place.declaration.keywords ++
      (place.declaration.catalog ++ place.declaration.schema :: place.declaration.gap ++
        .symbol '.' :: place.after), l.text ≠ [] := fun l hl =>
    text_ne_nil (heq ▸ List.mem_append_right _ hl)
  have hgaps : ∀ k ∈ place.declaration.keywords, written k.2 ≠ [] := by
    intro k hk hnil
    obtain ⟨l, ls, hgap⟩ := List.exists_cons_of_ne_nil (spaced k hk)
    have hmem : l ∈ keywordLexemes place.declaration.keywords :=
      List.mem_flatMap.mpr ⟨k, hk, by simp [hgap]⟩
    rw [hgap, written, List.flatMap_cons] at hnil
    exact hlexemes l (List.mem_append_left _ hmem) (List.append_eq_nil_iff.mp hnil).1
  have hschema : place.declaration.schema.text ≠ [] := hlexemes _ (by simp)
  -- The pass leaves the keywords, the schema, the gap and the dot.
  obtain ⟨outs, hfst, houts, hrest, hleft⟩ := left_keywordParts left hgaps
  obtain ⟨hkept, hrest, hleft₁⟩ := leaves_cons hrest
  obtain ⟨hspace, hrest, hleft₂⟩ := leaves_cons hrest
  obtain ⟨hpoint, -, hleft₃⟩ := leaves_cons hrest
  have hkept := of_decide_eq_true hkept
  have hpoint := of_decide_eq_true hpoint
  rw [hkept, hleft₂, hleft₃, hpoint] at hleft₁
  rw [hleft₁] at hleft
  generalize pass.left (Part.gap (written place.declaration.gap)).text _ = ws at hspace hleft
  have hpass : pass.text (place.declaration.parts.flatMap Part.text ++ written place.after) =
      outs.flatMap (fun out => out.1 ++ out.2) ++ (place.declaration.schema.text ++
        (ws ++ '.' :: pass.text (written place.after))) := by
    rw [text_append (endsAt_of_leaves left)]
    unfold Declaration.parts
    rw [hleft]
    simp [Pass.left, piecesOf]
  -- What is left is a header.
  have hheader : IsHeader outs := by
    refine ⟨?_, houts⟩
    rw [hfst]
    exact hkeywords
  rw [hpass] at reached
  refine ⟨_, outs, _, ws, _, ?_, hheader, isSchema_of_regular regular hschema,
    List.all_eq_true.mp hspace, lower_regular regular hs, reached⟩
  rw [← hpass, ← text_append begins, ← htext]

/-- No schema is left out exactly when all that are declared are `public` or seen by a pass, and
those are seen that are declared plainly. -/
theorem covers_iff (py : Python) (text : Str) :
    (Covers py text ↔ ∀ s ∈ declared text, s = "public".toList ∨ ∃ pass, Sees py pass text s) ∧
      ∀ place ∈ places text, ∀ pass, Plain py pass place → ∀ s,
        place.declaration.schema.ident? = some s → Sees py pass text s := by
  refine ⟨⟨fun h s hs => mem_routineSchemas_iff_sees.mp (h.1 s hs), fun h => ?_⟩, ?_⟩
  · exact ⟨fun s hs => mem_routineSchemas_iff_sees.mpr (h s hs), public_mem text⟩
  · exact fun place hplace pass hplain s hs => sees_of_plain hplace hplain hs

end Found

/-- An interpreter that knows no characters beyond ASCII. -/
def asciiPython : Python where
  isWord c := c.isAlphanum || c = '_'
  lower s := s.map Char.toLower
  isWord_ascii _ _ := rfl
  isSpace_of_isWord c h := by
    by_contra hspace
    have hspace : isSpace c = true := Bool.of_not_eq_false hspace
    simp only [isSpace, inRanges, List.any_cons, List.any_nil, Bool.or_eq_true, Bool.and_eq_true,
      decide_eq_true_eq, Bool.false_eq_true, or_false] at hspace
    simp only [Char.isAlphanum, Char.isAlpha, Char.isUpper, Char.isLower, Char.isDigit,
      Bool.or_eq_true, Bool.and_eq_true, decide_eq_true_eq, ge_iff_le, UInt32.le_iff_toNat_le] at h
    have hrange : (65 ≤ c.toNat ∧ c.toNat ≤ 90 ∨ 97 ≤ c.toNat ∧ c.toNat ≤ 122) ∨
        48 ≤ c.toNat ∧ c.toNat ≤ 57 ∨ c.toNat = 95 := by
      rcases h with (h | h) | rfl
      · exact .inl h
      · exact .inr (.inl h)
      · exact .inr (.inr rfl)
    omega

/-- A routine in a schema with a quote in its name. -/
def quotedRoutine : Str := "CREATE FUNCTION \"a\"\"b\".f()".toList

/-- Its schema is left out. -/
theorem quoted_is_missed : ¬Covers asciiPython quotedRoutine := by
  intro h
  have hmem := h.1 "a\"b".toList (by decide)
  exact absurd hmem (by decide)

end Fraisier.Dbops.RoutineSchemas
