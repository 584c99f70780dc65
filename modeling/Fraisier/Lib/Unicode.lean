import Mathlib.Data.List.Basic
import Fraisier.Lib.Text

/-!
# Unicode texts and their encodings

A Python `str` is a list of code points, lone surrogates included. `decodeBytes` is what `json.loads`
makes of bytes: it finds out the encoding from the first ones, and decodes with `surrogatepass`.
`Pieces` is the scanning of a list piece by piece, each of which may cover further items.
-/

namespace Fraisier.Lib

/-! ## Scanning by pieces -/

section

variable {α β : Type}

/-- `f x xs` is the piece that begins with `x`, and how many items of `xs` it covers. The first `k`
items are left out. -/
def pieces (f : α → List α → β × ℕ) : ℕ → List α → List β
  | _, [] => []
  | k + 1, _ :: xs => pieces f k xs
  | 0, x :: xs => (f x xs).1 :: pieces f (f x xs).2 xs

variable {f : α → List α → β × ℕ}

/-- Skipped characters make no pieces. -/
theorem pieces_skip (xs ys : List α) : pieces f xs.length (xs ++ ys) = pieces f 0 ys := by
  induction xs with
  | nil => rfl
  | cons x xs ih => exact ih

/-- A piece, and what comes after it. -/
theorem pieces_cons {x : α} {xs ys : List α} {y : β} (h : f x (xs ++ ys) = (y, xs.length)) :
    pieces f 0 (x :: (xs ++ ys)) = y :: pieces f 0 ys := by
  rw [pieces, h, pieces_skip]

/-- Pieces that cover one item each. -/
theorem pieces_map {g : α → β} {xs : List α} (h : ∀ x ∈ xs, ∀ ys, f x ys = (g x, 0)) :
    pieces f 0 xs = xs.map g := by
  induction xs with
  | nil => rfl
  | cons x xs ih =>
    rw [pieces, h x List.mem_cons_self, List.map_cons]
    exact congrArg _ (ih fun y hy => h y (List.mem_cons_of_mem x hy))

end

/-! ## Code points -/

/-- A code point, which may be a surrogate. -/
abbrev CodePoint := Fin 0x110000

instance : LawfulBEq CodePoint := inferInstance

/-- A Python `str`. -/
abbrev Text := List CodePoint

instance : LawfulBEq Text := inferInstance

namespace Unicode

/-- The code point of a number below `0x110000`. -/
def point (n : ℕ) : CodePoint := Fin.ofNat 0x110000 n

/-- The code point of a character. -/
def chr (c : Char) : CodePoint := point c.toNat

/-- The code points of a text without surrogates. -/
def text (s : String) : Text := s.toList.map chr

/-- A code point that `str.strip` takes off. -/
def isBlankPoint (c : CodePoint) : Bool := Str.isSpace (Char.ofNat c.val)

/-- `str.strip`. -/
def stripBlanks (s : Text) : Text := (s.dropWhile isBlankPoint).rdropWhile isBlankPoint

/-- A high surrogate. -/
def isHigh (n : ℕ) : Bool := 0xD800 ≤ n && n ≤ 0xDBFF

/-- A low surrogate. -/
def isLow (n : ℕ) : Bool := 0xDC00 ≤ n && n ≤ 0xDFFF

/-- The character of a code point, unless it is a surrogate. -/
def charOf? (c : CodePoint) : Option Char :=
  if isHigh c.val || isLow c.val then none else some (Char.ofNat c.val)

/-- The code point that two surrogates stand for. -/
def joined (high low : ℕ) : ℕ := 0x10000 + (high - 0xD800) * 0x400 + (low - 0xDC00)

/-- A code point has its number. -/
theorem point_val {n : ℕ} (h : n < 0x110000) : (point n).val = n := Nat.mod_eq_of_lt h

/-- A number of a code point is the code point. -/
@[simp] theorem point_self (c : CodePoint) : point c.val = c := Fin.ext (point_val c.isLt)

/-- A character has its number. -/
@[simp] theorem chr_val (c : Char) : (chr c).val = c.toNat := by
  refine point_val ?_
  have hvalid := c.valid
  simp only [UInt32.isValidChar, Nat.isValidChar] at hvalid
  have hnat : c.toNat = c.val.toNat := rfl
  omega

/-! ## Decoding with `surrogatepass` -/

/-- The second or a later byte of a character in UTF-8. -/
def isTail (b : ℕ) : Bool := 0x80 ≤ b && b ≤ 0xBF

/-- A character in UTF-8. -/
def utf8Piece (a : ℕ) (rest : List ℕ) : Option CodePoint × ℕ :=
  if a < 0x80 then (some (point a), 0)
  else match rest with
  | b :: rest =>
    if 0xC2 ≤ a && a ≤ 0xDF && isTail b then
      (some (point ((a - 0xC0) * 0x40 + (b - 0x80))), 1)
    else match rest with
    | c :: rest =>
      if (a == 0xE0 && 0xA0 ≤ b || 0xE1 ≤ a && a ≤ 0xEF) && isTail b && isTail c then
        (some (point ((a - 0xE0) * 0x1000 + (b - 0x80) * 0x40 + (c - 0x80))), 2)
      else match rest with
      | d :: _ =>
        if (a == 0xF0 && 0x90 ≤ b || 0xF1 ≤ a && a ≤ 0xF3 || a == 0xF4 && b ≤ 0x8F) &&
            isTail b && isTail c && isTail d then
          (some (point ((a - 0xF0) * 0x40000 + (b - 0x80) * 0x1000 + (c - 0x80) * 0x40 +
            (d - 0x80))), 3)
        else (none, 0)
      | [] => (none, 0)
    | [] => (none, 0)
  | [] => (none, 0)

/-- All the pieces, unless one is no character. -/
def allOf : List (Option CodePoint) → Option Text
  | [] => some []
  | none :: _ => none
  | some c :: rest => (allOf rest).map (c :: ·)

/-- `decode("utf-8", "surrogatepass")`. -/
def decodeUtf8 (bytes : List ℕ) : Option Text := allOf (pieces utf8Piece 0 bytes)

/-- The 16-bit units of the bytes. -/
def units16 (big : Bool) : List ℕ → Option (List ℕ)
  | [] => some []
  | [_] => none
  | a :: b :: rest => (units16 big rest).map ((if big then a * 0x100 + b else b * 0x100 + a) :: ·)

/-- A character in UTF-16. -/
def utf16Piece (unit : ℕ) : List ℕ → Option CodePoint × ℕ
  | next :: _ =>
    if isHigh unit && isLow next then (some (point (joined unit next)), 1)
    else (some (point unit), 0)
  | [] => (some (point unit), 0)

/-- `decode("utf-16-be", "surrogatepass")`, or `"utf-16-le"`. -/
def decodeUtf16 (big : Bool) (bytes : List ℕ) : Option Text :=
  (units16 big bytes).bind fun units => allOf (pieces utf16Piece 0 units)

/-- `decode("utf-32-be", "surrogatepass")`, or `"utf-32-le"`. -/
def decodeUtf32 (big : Bool) : List ℕ → Option Text
  | [] => some []
  | a :: b :: c :: d :: rest =>
    let n := if big then ((a * 0x100 + b) * 0x100 + c) * 0x100 + d
      else ((d * 0x100 + c) * 0x100 + b) * 0x100 + a
    if n < 0x110000 then (decodeUtf32 big rest).map (point n :: ·) else none
  | _ => none

/-- `s.decode(json.detect_encoding(s), "surrogatepass")`, and `none` for a `UnicodeDecodeError`. -/
def decodeBytes (bytes : List ℕ) : Option Text :=
  match bytes with
  | 0x00 :: 0x00 :: 0xFE :: 0xFF :: rest => decodeUtf32 true rest
  | 0xFF :: 0xFE :: 0x00 :: 0x00 :: rest => decodeUtf32 false rest
  | 0xFE :: 0xFF :: rest => decodeUtf16 true rest
  | 0xFF :: 0xFE :: rest => decodeUtf16 false rest
  | 0xEF :: 0xBB :: 0xBF :: rest => decodeUtf8 rest
  | 0x00 :: 0x00 :: _ :: _ :: _ => decodeUtf32 true bytes
  | 0x00 :: _ :: _ :: _ :: _ => decodeUtf16 true bytes
  | _ :: 0x00 :: 0x00 :: 0x00 :: _ => decodeUtf32 false bytes
  | _ :: 0x00 :: _ :: _ :: _ => decodeUtf16 false bytes
  | [0x00, _] => decodeUtf16 true bytes
  | [_, 0x00] => decodeUtf16 false bytes
  | _ => decodeUtf8 bytes

/-- A character of `[a-zA-Z0-9_\-]`. -/
def isNameChar (c : CodePoint) : Bool :=
  '0'.toNat ≤ c.val && c.val ≤ '9'.toNat || 'a'.toNat ≤ c.val && c.val ≤ 'z'.toNat ||
    'A'.toNat ≤ c.val && c.val ≤ 'Z'.toNat || c.val == '_'.toNat || c.val == '-'.toNat

/-- `re.match` of `^[…]+$`, where the class is `p`. `$` also matches before a newline at the end. -/
def matchesRun (p : CodePoint → Bool) (s : Text) : Bool :=
  !(s.takeWhile p).isEmpty && (s.dropWhile p == [] || s.dropWhile p == [chr '\n'])

/-- What is all there is there. -/
theorem allOf_map_some (s : Text) : allOf (s.map some) = some s := by
  induction s with
  | nil => rfl
  | cons c s ih =>
    rw [List.map_cons, allOf, ih]
    rfl

/-- ASCII decodes to itself. -/
theorem decodeUtf8_ascii {s : Text} (h : ∀ c ∈ s, c.val < 0x80) :
    decodeUtf8 (s.map (·.val)) = some s := by
  rw [decodeUtf8, pieces_map (g := fun n => some (point n)) fun n hn ys => ?_]
  · rw [List.map_map]
    simpa [Function.comp_def] using allOf_map_some s
  · obtain ⟨c, hc, rfl⟩ := List.mem_map.mp hn
    simp [utf8Piece, h c hc]

/-- A text of ASCII characters other than zero is decoded as it is. -/
theorem decodeBytes_ascii {s : Text} (h : ∀ c ∈ s, 0 < c.val ∧ c.val < 0x80) :
    decodeBytes (s.map (·.val)) = some s := by
  have hbyte : ∀ b ∈ s.map (·.val), 0 < b ∧ b < 0x80 := by
    rintro b hb
    obtain ⟨c, hc, rfl⟩ := List.mem_map.mp hb
    exact h c hc
  have hutf8 := decodeUtf8_ascii fun c hc => (h c hc).2
  unfold decodeBytes
  split
  -- every other encoding is told by a byte that is zero or no ASCII
  case h_12 => exact hutf8
  all_goals
    rename_i heq
    rw [heq] at hbyte
    simp at hbyte

end Unicode

end Fraisier.Lib
