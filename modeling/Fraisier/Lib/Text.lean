import Mathlib.Data.List.DropRight
import Mathlib.Data.Nat.Notation

/-!
# Strings as lists of characters

The string operations of Python that a program over text uses, on lists of characters: stripping,
splitting, `partition`, decimal digits, and the lexical functions of `posixpath`. They compute, so
that a text can be evaluated by the kernel.
-/

namespace Fraisier.Lib

/-- A Python `str`, less lone surrogates. -/
abbrev Str := List Char

instance : LawfulBEq Str := inferInstance

namespace Str

/-! ## Characters -/

/-- The code point lies in one of the ranges. -/
def inRanges (ranges : List (ℕ × ℕ)) (c : Char) : Bool :=
  ranges.any fun r => r.1 ≤ c.toNat && c.toNat ≤ r.2

/-- `str.isspace` of one character. -/
def isSpace (c : Char) : Bool :=
  inRanges [(0x9, 0xd), (0x1c, 0x20), (0x85, 0x85), (0xa0, 0xa0), (0x1680, 0x1680),
    (0x2000, 0x200a), (0x2028, 0x2029), (0x202f, 0x202f), (0x205f, 0x205f), (0x3000, 0x3000)] c

/-- The decimal digits of Unicode (category `Nd`), each run of ten by its zero. -/
def decimalZeros : List ℕ :=
  [0x30, 0x660, 0x6f0, 0x7c0, 0x966, 0x9e6, 0xa66, 0xae6, 0xb66, 0xbe6, 0xc66, 0xce6, 0xd66, 0xde6,
    0xe50, 0xed0, 0xf20, 0x1040, 0x1090, 0x17e0, 0x1810, 0x1946, 0x19d0, 0x1a80, 0x1a90, 0x1b50,
    0x1bb0, 0x1c40, 0x1c50, 0xa620, 0xa8d0, 0xa900, 0xa9d0, 0xa9f0, 0xaa50, 0xabf0, 0xff10, 0x104a0,
    0x10d30, 0x10d40, 0x11066, 0x110f0, 0x11136, 0x111d0, 0x112f0, 0x11450, 0x114d0, 0x11650,
    0x116c0, 0x116d0, 0x116da, 0x11730, 0x118e0, 0x11950, 0x11bf0, 0x11c50, 0x11d50, 0x11da0,
    0x11f50, 0x16130, 0x16a60, 0x16ac0, 0x16b50, 0x16d70, 0x1ccf0, 0x1d7ce, 0x1d7d8, 0x1d7e2,
    0x1d7ec, 0x1d7f6, 0x1e140, 0x1e2f0, 0x1e4f0, 0x1e5f1, 0x1e950, 0x1fbf0]

/-- The value of a decimal digit. -/
def decimal? (c : Char) : Option ℕ :=
  (decimalZeros.find? fun z => z ≤ c.toNat && c.toNat < z + 10).map (c.toNat - ·)

/-- A decimal digit, the `\d` of a pattern. -/
def isDecimal (c : Char) : Bool := (decimal? c).isSome

/-- `str.isdigit` of one character: a decimal digit, or a superscript, circled and such like. -/
def isDigit (c : Char) : Bool :=
  (decimal? c).isSome ||
    inRanges [(0xb2, 0xb3), (0xb9, 0xb9), (0x1369, 0x1371), (0x19da, 0x19da), (0x2070, 0x2070),
      (0x2074, 0x2079), (0x2080, 0x2089), (0x2460, 0x2468), (0x2474, 0x247c), (0x2488, 0x2490),
      (0x24ea, 0x24ea), (0x24f5, 0x24fd), (0x24ff, 0x24ff), (0x2776, 0x277e), (0x2780, 0x2788),
      (0x278a, 0x2792), (0x10a40, 0x10a43), (0x10e60, 0x10e68), (0x11052, 0x1105a),
      (0x1f100, 0x1f10a)] c

/-! ## Strings -/

/-- Dropping the characters of `p` at both ends. -/
def stripBy (p : Char → Bool) (s : Str) : Str := (s.dropWhile p).rdropWhile p

/-- `str.strip`. -/
def strip (s : Str) : Str := stripBy isSpace s

/-- `str.split` without a separator: the runs of characters that are no space. -/
def fields (s : Str) : List Str := (s.splitOnP isSpace).filter (· ≠ [])

/-- `str.partition`: what stands before the first `c`, whether there is one, and what stands
after it. -/
def partition (c : Char) (s : Str) : Str × Bool × Str :=
  match s.dropWhile (· ≠ c) with
  | [] => (s, false, [])
  | _ :: rest => (s.takeWhile (· ≠ c), true, rest)

/-- `str.startswith`. -/
def startsWith (s start : Str) : Bool := start.isPrefixOf s

/-- `str.endswith`. -/
def endsWith (s stop : Str) : Bool := stop.isSuffixOf s

/-- `str.removeprefix`. -/
def removePrefix (s start : Str) : Str := if s.startsWith start then s.drop start.length else s

/-- `sub in s`. -/
def hasSub (sub : Str) : Str → Bool
  | [] => sub.isEmpty
  | c :: s => sub.isPrefixOf (c :: s) || hasSub sub s

/-- `str.isdigit`. -/
def allDigits (s : Str) : Bool := !s.isEmpty && s.all isDigit

/-- Python converts no longer decimal strings to an integer. -/
def maxDigits : ℕ := 4300

/-- `int(s) == 0` of a string of digits: `none` when `int` raises `ValueError`, because a digit is
not decimal or there are too many. -/
def intIsZero (s : Str) : Option Bool :=
  if maxDigits < s.length then none
  else if s.all fun c => (decimal? c).isSome then some (s.all fun c => decimal? c == some 0)
  else none

/-- `int(s)` of a string of digits: `none` when it raises `ValueError`. -/
def toInt (s : Str) : Option ℕ :=
  if maxDigits < s.length then none
  else s.foldlM (fun n c => (decimal? c).map (10 * n + ·)) 0

/-- A character that `str.splitlines` breaks a line at. -/
def isLineBreak (c : Char) : Bool :=
  inRanges [(0xa, 0xd), (0x1c, 0x1e), (0x85, 0x85), (0x2028, 0x2029)] c

/-- `str.splitlines`. -/
def splitlines : Str → List Str
  | [] => []
  | '\r' :: '\n' :: s => [] :: splitlines s
  | c :: s =>
    if isLineBreak c then [] :: splitlines s
    else match splitlines s with
      | [] => [[c]]
      | line :: lines => (c :: line) :: lines

example : splitlines "a\r\nb\n\nc".toList = ["a", "b", "", "c"].map String.toList := by decide

/-- `bytes.decode("utf-8")`. -/
def decodeUtf8 (data : ByteArray) : Option Str := (String.fromUTF8? data).map String.toList

/-- The bytes of a text are decoded to it. -/
theorem decodeUtf8_toByteArray (s : String) : decodeUtf8 s.toByteArray = some s.toList := by
  unfold decodeUtf8 String.fromUTF8?
  rw [dif_pos s.isValidUTF8]
  rfl

/-! ## Paths -/

/-- `posixpath.isabs`. -/
def isAbs (s : Str) : Bool := s.head? == some '/'

/-- `posixpath.basename`: what stands after the last slash. -/
def basename (s : Str) : Str := s.rtakeWhile (· ≠ '/')

/-- `posixpath.dirname`: what stands before it, without its trailing slashes, unless there is
nothing else. -/
def dirname (s : Str) : Str :=
  let head := s.rdropWhile (· ≠ '/')
  if head.all (· == '/') then head else head.rdropWhile (· == '/')

/-- `posixpath.splitroot`, less the drive: two leading slashes are a root of their own, three or
more are one. -/
def splitRoot (s : Str) : Str × Str :=
  if s.startsWith ['/', '/'] && !s.startsWith ['/', '/', '/'] then (['/', '/'], s.drop 2)
  else if s.startsWith ['/'] then (['/'], s.drop 1)
  else ([], s)

/-- One component of a path, onto those kept so far, last first. -/
def normStep (root : Str) (kept : List Str) (comp : Str) : List Str :=
  if comp = [] ∨ comp = ['.'] then kept
  else if comp ≠ ['.', '.'] ∨ (root = [] ∧ kept = []) ∨ kept.head? = some ['.', '.'] then comp :: kept
  else kept.tail

/-- `posixpath.normpath`. -/
def normpath (s : Str) : Str :=
  let (root, rest) := splitRoot s
  let comps := ((rest.splitOn '/').foldl (normStep root) []).reverse
  let path := root ++ List.intercalate ['/'] comps
  if path = [] then ['.'] else path

example : normpath "/a/./b//../c/".toList = "/a/c".toList ∧ normpath "//a/..".toList = "//".toList ∧
    normpath "../../a".toList = "../../a".toList := by decide

/-- A `PurePosixPath`: its root, which is empty when it is relative, and its parts. -/
structure PurePath where
  root : Str
  parts : List Str
  deriving DecidableEq, Repr

namespace PurePath

/-- `PurePosixPath(s)`. -/
def of (s : Str) : PurePath where
  root := (splitRoot s).1
  parts := ((splitRoot s).2.splitOn '/').filter fun p => p ≠ [] ∧ p ≠ ['.']

/-- `str(path)`. -/
def text (p : PurePath) : Str :=
  if p.root = [] ∧ p.parts = [] then ['.'] else p.root ++ List.intercalate ['/'] p.parts

/-- `PurePath.name`. -/
def name (p : PurePath) : Str := p.parts.getLast?.getD []

/-- `PurePath.parent`. -/
def parent (p : PurePath) : PurePath := { p with parts := p.parts.dropLast }

/-- `PurePath.is_absolute`. -/
def isAbsolute (p : PurePath) : Bool := !p.root.isEmpty

/-- `PurePath.is_relative_to`. -/
def isRelativeTo (p q : PurePath) : Bool := p.root = q.root && q.parts.isPrefixOf p.parts

/-- `p / s`. -/
def join (p : PurePath) (s : Str) : PurePath :=
  if (of s).isAbsolute then of s else { p with parts := p.parts ++ (of s).parts }

end PurePath

end Str

end Fraisier.Lib
