import Mathlib.Data.List.TakeWhile
import Fraisier.Lib.Fallible
import Fraisier.Lib.FormatSpec

/-!
# Format strings as Python reads them

`str.format` and `string.Formatter().parse`: `parse` cuts a format string into literal text and
fields, and `build` puts together what the fields show, each with a specification in which further
fields are filled in first.
-/

namespace Fraisier.Lib.StrFormat

open Unicode Fallible

/-! ## Fields -/

/-- What is wrong with a format string. -/
inductive ParseError
  | singleOpen | singleClose | unexpectedOpen | noConversion | noColon | unmatchedOpen | noClose
  deriving DecidableEq, Repr

def ParseError.message : ParseError → Text
  | .singleOpen => text "Single '\x7b' encountered in format string"
  | .singleClose => text "Single '\x7d' encountered in format string"
  | .unexpectedOpen => text "unexpected '\x7b' in field name"
  | .noConversion => text "end of string while looking for conversion specifier"
  | .noColon => text "expected ':' after conversion specifier"
  | .unmatchedOpen => text "unmatched '\x7b' in format spec"
  | .noClose => text "expected '\x7d' before end of string"

/-- A replacement field. A conversion of NUL is none. -/
structure Field where
  name : Text
  conversion : Option CodePoint := none
  spec : Text := []
  deriving DecidableEq

/-- The literal text before a field, and the field if there is one. -/
structure Piece where
  literal : Text
  field : Option Field := none
  deriving DecidableEq

/-- The name of a field, inside brackets or not, the character that ends it, and the rest. -/
def fieldName : Bool → Text → Except ParseError (Text × CodePoint × Text)
  | _, [] => .error .noClose
  | true, c :: s => (fieldName (c ≠ chr ']') s).map fun r => (c :: r.1, r.2)
  | false, c :: s =>
    if c = chr '{' then .error .unexpectedOpen
    else if c = chr '}' ∨ c = chr ':' ∨ c = chr '!' then .ok ([], c, s)
    else (fieldName (c = chr '[') s).map fun r => (c :: r.1, r.2)

/-- The specification up to the brace that closes the field, inside so many braces of its own. -/
def fieldSpec : ℕ → Text → Except ParseError (Text × Text)
  | _, [] => .error .unmatchedOpen
  | 0, c :: s =>
    if c = chr '}' then .ok ([], s)
    else (fieldSpec (if c = chr '{' then 1 else 0) s).map fun r => (c :: r.1, r.2)
  | n + 1, c :: s =>
    (fieldSpec (if c = chr '}' then n else if c = chr '{' then n + 2 else n + 1) s).map
      fun r => (c :: r.1, r.2)

/-- What follows a conversion. -/
def afterConversion : Text → Except ParseError (Text × Text)
  | [] => .error .unmatchedOpen
  | c :: s =>
    if c = chr '}' then .ok ([], s)
    else if c = chr ':' then fieldSpec 0 s
    else .error .noColon

/-- A field after its opening brace, and the rest. -/
def parseField (s : Text) : Except ParseError (Field × Text) := do
  let (name, stop, s) ← fieldName false s
  if stop = chr '}' then return ({ name }, s)
  if stop = chr ':' then
    let (spec, s) ← fieldSpec 0 s
    return ({ name, spec }, s)
  match s with
  | [] => throw .noConversion
  | c :: s =>
    let (spec, s) ← afterConversion s
    return ({ name, conversion := if c.val = 0 then none else some c, spec }, s)

/-- A character that opens or closes a field. -/
def isBrace (c : CodePoint) : Bool := c = chr '{' || c = chr '}'

/-- The next piece, and the rest. A brace that is doubled is a brace. -/
def nextPiece (s : Text) : Except ParseError (Piece × Text) :=
  let literal := s.takeWhile (!isBrace ·)
  match s.dropWhile (!isBrace ·) with
  | [] => .ok ({ literal }, [])
  | [c] => .error (if c = chr '}' then .singleClose else .singleOpen)
  | c :: d :: s =>
    if c = d then .ok ({ literal := literal ++ [c] }, s)
    else if c = chr '}' then .error .singleClose
    else (parseField (d :: s)).map fun r => ({ literal, field := some r.1 }, r.2)

/-- The pieces of a text that is not longer than the number. -/
def pieces : ℕ → Text → Except ParseError (List Piece)
  | _, [] => .ok []
  | 0, _ :: _ => .error .noClose
  | n + 1, s => do
    let (piece, rest) ← nextPiece s
    let others ← pieces n rest
    return piece :: others

/-- `string.Formatter().parse`. -/
def parse (s : Text) : Except ParseError (List Piece) := pieces s.length s

example : parse (text "a\x7b\x7bb\x7bx!r:>\x7bn\x7d\x7d") =
    .ok [{ literal := text "a\x7b" }, { literal := text "b", field := some {
      name := text "x", conversion := some (chr 'r'), spec := text ">\x7bn\x7d" } }] := by decide

/-- What fields show, by their names, conversions and specifications. -/
abbrev Shows := Text → Option CodePoint → Text → Option Text

/-- The specification of a field, with its own fields filled in. -/
def Field.filled (fill : Text → Option Text) (field : Field) : Option Text :=
  if chr '\x7b' ∈ field.spec then fill field.spec else some field.spec

/-- The text of a piece, or `none` when an exception is raised. -/
def Piece.shown (shows : Shows) (fill : Text → Option Text) (piece : Piece) : Option Text :=
  match piece.field with
  | none => some piece.literal
  | some field => do
    let spec ← field.filled fill
    let shown ← shows field.name field.conversion spec
    return piece.literal ++ shown

/-- The text of a format string. Specifications are filled in at most so many levels deep. -/
def build (shows : Shows) : ℕ → Text → Option Text
  | 0, _ => none
  | depth + 1, s => do
    let parts ← (parse s).toOption
    let texts ← parts.mapM (Piece.shown shows (build shows depth))
    return texts.flatten

/-- `str.format`. -/
def format (shows : Shows) (s : Text) : Option Text := build shows 2 s

/-! ## Building -/

section Build

variable {shows : Shows} {fill : Text → Option Text} {piece : Piece} {field : Field} {s out : Text}

/-- A field is shown with its specification filled in. -/
theorem shown_field (h : piece.field = some field) (hshown : piece.shown shows fill = some out) :
    ∃ spec shown, field.filled fill = some spec ∧
      shows field.name field.conversion spec = some shown ∧ out = piece.literal ++ shown := by
  unfold Piece.shown at hshown
  rw [h] at hshown
  obtain ⟨spec, hspec, hshown⟩ := Option.bind_eq_some_iff.mp hshown
  obtain ⟨shown, hshows, hshown⟩ := Option.bind_eq_some_iff.mp hshown
  exact ⟨spec, shown, hspec, hshows, (Option.some.inj hshown).symm⟩

/-- A text is built of its parsed pieces. -/
theorem build_iff {depth : ℕ} : build shows (depth + 1) s = some out ↔ ∃ parts texts,
    parse s = .ok parts ∧ parts.mapM (Piece.shown shows (build shows depth)) = some texts ∧
      out = texts.flatten := by
  rw [build]
  constructor
  · intro h
    obtain ⟨parts, hparts, h⟩ := Option.bind_eq_some_iff.mp h
    obtain ⟨texts, htexts, h⟩ := Option.bind_eq_some_iff.mp h
    refine ⟨parts, texts, ?_, htexts, (Option.some.inj h).symm⟩
    -- A text that is not parsed is not built.
    cases hparse : parse s with
    | error e =>
      rw [hparse] at hparts
      nomatch hparts
    | ok parts' =>
      rw [hparse] at hparts
      exact congrArg _ (Option.some.inj hparts)
  · rintro ⟨parts, texts, hparse, htexts, rfl⟩
    rw [hparse]
    exact Option.bind_eq_some_iff.mpr ⟨parts, rfl, Option.bind_eq_some_iff.mpr ⟨texts, htexts, rfl⟩⟩

/-- A field is shown of so many characters more than its literal text. -/
theorem Piece.shown_eq (h : piece.field = some field) {spec shown : Text}
    (hspec : field.filled fill = some spec)
    (hshows : shows field.name field.conversion spec = some shown) :
    piece.shown shows fill = some (piece.literal ++ shown) := by
  unfold Piece.shown
  rw [h]
  exact Option.bind_eq_some_iff.mpr ⟨spec, hspec, Option.bind_eq_some_iff.mpr ⟨shown, hshows, rfl⟩⟩

/-- Where every piece has no more of a character than it may have, all have no more than the sum. -/
theorem count_flatten_le {f : Piece → Option Text} {bound : Piece → ℕ} {c : CodePoint}
    {parts : List Piece} {texts : List Text} (h : parts.mapM f = some texts)
    (hle : ∀ piece ∈ parts, ∀ x, f piece = some x → x.count c ≤ bound piece) :
    texts.flatten.count c ≤ (parts.map bound).sum := by
  induction parts generalizing texts with
  | nil =>
    obtain rfl := Option.some.inj h
    exact Nat.le_refl 0
  | cons piece parts ih =>
    obtain ⟨x, xs, hx, hxs, rfl⟩ := mapM_cons_some h
    have hhead := hle piece List.mem_cons_self x hx
    have htail := ih hxs fun p hp => hle p (List.mem_cons_of_mem _ hp)
    rw [List.flatten_cons, List.count_append, List.map_cons, List.sum_cons]
    omega

end Build

/-! ## Values that vary -/

section Varying

variable {shows₀ shows shows' : Shows} {s x₀ x : Text}

/-- Where pieces vary, the whole does. -/
theorem varies_flatten {f g : Piece → Option Text} {parts : List Piece} {xs : List Text}
    (h : parts.mapM f = some xs)
    (hvaries : ∀ piece ∈ parts, ∀ x, f piece = some x → (∀ c ∈ x.tail, Plain c) →
      ∃ y, g piece = some y ∧ Varies x y)
    (hplain : ∀ c ∈ xs.flatten.tail, Plain c) :
    ∃ ys, parts.mapM g = some ys ∧ Varies xs.flatten ys.flatten := by
  -- Induction on the pieces.
  induction parts generalizing xs with
  | nil =>
    obtain rfl := Option.some.inj h
    exact ⟨[], rfl, .inl rfl⟩
  | cons piece parts ih =>
    obtain ⟨x, xs, hx, hxs, rfl⟩ := mapM_cons_some h
    rw [List.flatten_cons] at hplain ⊢
    obtain ⟨hhead, htail⟩ := plain_of_append hplain
    obtain ⟨y, hy, hvary⟩ := hvaries piece List.mem_cons_self x hx hhead
    obtain ⟨ys, hys, hvarys⟩ := ih hxs (fun p hp => hvaries p (List.mem_cons_of_mem _ hp)) htail
    refine ⟨y :: ys, ?_, hvary.append hvarys hplain⟩
    rw [List.mapM_cons, hy, hys]
    rfl

/-- Where what fields show varies, so does a text whose fields have no fields of their own. Only the
fields count that are shown in a third way too. -/
theorem build_varies (hshows : ∀ name conversion spec x₀ x, shows₀ name conversion spec = some x₀ →
      shows name conversion spec = some x → (∀ c ∈ x.tail, Plain c) →
      ∃ y, shows' name conversion spec = some y ∧ Varies x y)
    (h₀ : build shows₀ 1 s = some x₀) (h : build shows 1 s = some x)
    (hplain : ∀ c ∈ x.tail, Plain c) : ∃ y, build shows' 1 s = some y ∧ Varies x y := by
  obtain ⟨parts, texts, hparts, htexts, rfl⟩ := build_iff.mp h
  obtain ⟨parts₀, texts₀, hparts₀, htexts₀, -⟩ := build_iff.mp h₀
  obtain rfl := Except.ok.inj (hparts.symm.trans hparts₀)
  -- Each piece varies, or shows no field.
  have hpiece : ∀ piece ∈ parts, ∀ x, piece.shown shows (build shows 0) = some x →
      (∀ c ∈ x.tail, Plain c) → ∃ y, piece.shown shows' (build shows' 0) = some y ∧ Varies x y := by
    intro piece hmem x hx hplain
    cases hfield : piece.field with
    | none =>
      have hshown : ∀ {shows fill}, Piece.shown shows fill piece = some piece.literal := by
        intro shows fill
        unfold Piece.shown
        rw [hfield]
      obtain rfl := Option.some.inj (hshown.symm.trans hx)
      exact ⟨_, hshown, .inl rfl⟩
    | some field =>
      obtain ⟨x₀, -, hx₀⟩ := mem_of_mapM htexts₀ hmem
      have hspecs : ∀ {shows : Shows} {spec}, field.filled (build shows 0) = some spec →
          spec = field.spec ∧ ∀ {fill : Text → Option Text}, field.filled fill = some spec := by
        intro shows spec hspec
        unfold Field.filled at hspec ⊢
        split at hspec
        · nomatch hspec
        · next hnone =>
          obtain rfl := Option.some.inj hspec
          exact ⟨rfl, if_neg hnone⟩
      obtain ⟨spec, shown, hspec, hshown, rfl⟩ := shown_field hfield hx
      obtain ⟨spec₀, shown₀, hspec₀, hshown₀, -⟩ := shown_field hfield hx₀
      rw [(hspecs hspec₀).1, ← (hspecs hspec).1] at hshown₀
      obtain ⟨y, hy, hvary⟩ := hshows _ _ _ _ _ hshown₀ hshown (plain_of_append hplain).2
      exact ⟨_, Piece.shown_eq hfield (hspecs hspec).2 hy, .append (.inl rfl) hvary hplain⟩
  obtain ⟨texts', htexts', hvaries⟩ := varies_flatten htexts hpiece hplain
  exact ⟨_, build_iff.mpr ⟨parts, texts', hparts, htexts', rfl⟩, hvaries⟩

/-- Where what fields show varies, so does a specification that is filled in. -/
theorem filled_varies {field : Field} (hshows : ∀ name conversion spec x₀ x,
      shows₀ name conversion spec = some x₀ → shows name conversion spec = some x →
      (∀ c ∈ x.tail, Plain c) → ∃ y, shows' name conversion spec = some y ∧ Varies x y)
    (h₀ : field.filled (build shows₀ 1) = some x₀) (h : field.filled (build shows 1) = some x)
    (hplain : ∀ c ∈ x.tail, Plain c) :
    ∃ y, field.filled (build shows' 1) = some y ∧ Varies x y := by
  unfold Field.filled at h₀ h ⊢
  split at h
  · next hbrace =>
    rw [if_pos hbrace] at h₀ ⊢
    exact build_varies hshows h₀ h hplain
  · next hbrace =>
    rw [if_neg hbrace]
    exact ⟨x, h, .inl rfl⟩

end Varying

end Fraisier.Lib.StrFormat
