import Mathlib.Data.Int.Notation
import Mathlib.Data.List.ReduceOption
import Fraisier.Lib.Unicode

/-!
# JSON as Python reads and writes it

`loads` is `json.loads` of bytes, in the order in which it finds what is wrong: the bytes are
decoded, the text is cut into tokens, and a machine with a stack of open containers takes one token
at a time. An integer of more than `maxStrDigits` digits is a `ValueError`, and a container that is
nested deeper than the interpreter's stack allows a `RecursionError`; every other error is a
`JSONDecodeError`. `dumps` is `json.dumps` with its defaults.
-/

namespace Fraisier.Lib

/-- A value that `json.loads` can return. A `float` is known by its literal. -/
inductive Json
  | null
  | bool (b : Bool)
  | int (n : ℤ)
  | float (literal : Text)
  | str (s : Text)
  | arr (items : List Json)
  /-- The members of a `dict`, in their order. -/
  | obj (members : List (Text × Json))

namespace Json

open Unicode

/-- `sys.int_info.default_max_str_digits`. -/
def maxStrDigits : ℕ := 4300

/-- What `json.loads` raises. -/
inductive LoadsError
  | unicodeDecodeError | jsonDecodeError | valueError | recursionError
  deriving DecidableEq, Repr

/-! ## Tokens -/

/-- A token of a JSON text. -/
inductive Token
  | lbrace | rbrace | lbracket | rbracket | comma | colon
  | null
  | bool (b : Bool)
  | int (n : ℤ)
  | float (literal : Text)
  | str (s : Text)
  /-- An integer that `int` refuses for its length. -/
  | hugeInt
  /-- A character that begins no token. -/
  | bad
  deriving DecidableEq, Repr

/-- A character is the code point. -/
def is (x : Char) (c : CodePoint) : Bool := c.val == x.toNat

/-- `str.startswith`. -/
def startsWith (s : Text) (start : String) : Bool := (text start).isPrefixOf s

/-- A whitespace character of JSON. -/
def isSpace (c : CodePoint) : Bool := is ' ' c || is '\t' c || is '\n' c || is '\r' c

/-- A digit. -/
def isDigit (c : CodePoint) : Bool := '0'.toNat ≤ c.val && c.val ≤ '9'.toNat

/-- The value of a hexadecimal digit. -/
def hexDigit (c : CodePoint) : Option ℕ :=
  if isDigit c then some (c.val - '0'.toNat)
  else if 'a'.toNat ≤ c.val && c.val ≤ 'f'.toNat then some (c.val - 'a'.toNat + 10)
  else if 'A'.toNat ≤ c.val && c.val ≤ 'F'.toNat then some (c.val - 'A'.toNat + 10)
  else none

/-- Four hexadecimal digits. -/
def hex4 : Text → Option ℕ
  | a :: b :: c :: d :: _ => do
    let a ← hexDigit a
    let b ← hexDigit b
    let c ← hexDigit c
    let d ← hexDigit d
    pure (((a * 16 + b) * 16 + c) * 16 + d)
  | _ => none

/-- What a backslash and one character stand for. -/
def simpleEscape (c : CodePoint) : Option CodePoint :=
  if is '"' c || is '\\' c || is '/' c then some c
  else if is 'b' c then some (point 0x08)
  else if is 'f' c then some (point 0x0C)
  else if is 'n' c then some (chr '\n')
  else if is 'r' c then some (chr '\r')
  else if is 't' c then some (chr '\t')
  else none

/-- The low surrogate of an escape that follows one of a high surrogate. -/
def lowEscape : Text → Option (Option ℕ)
  | b :: u :: rest => if is '\\' b && is 'u' u then (hex4 rest).map fun n =>
      if isLow n then some n else none
    else some none
  | _ => some none

/-- What stands after a backslash: the code point, and how many characters it takes. -/
def escape : Text → Option (CodePoint × ℕ)
  | [] => none
  | c :: rest =>
    match simpleEscape c with
    | some d => some (d, 1)
    | none => if is 'u' c then do
        let n ← hex4 rest
        if isHigh n then
          match ← lowEscape (rest.drop 4) with
          | some low => pure (point (joined n low), 11)
          | none => pure (point n, 5)
        else pure (point n, 5)
      else none

/-- The rest of a string, after the first `k` characters, and how many characters it takes to the
closing quote. -/
def string : ℕ → Text → Option (Text × ℕ)
  | _, [] => none
  | k + 1, _ :: cs => (string k cs).map fun (s, n) => (s, n + 1)
  | 0, c :: cs =>
    if is '"' c then some ([], 1)
    else if is '\\' c then do
      let (d, k) ← escape cs
      let (s, n) ← string k cs
      pure (d :: s, n + 1)
    else if c.val < 0x20 then none
    else (string 0 cs).map fun (s, n) => (c :: s, n + 1)

/-- The digits of an integer: one zero, or digits that do not begin with a zero. -/
def intDigits (s : Text) : Text :=
  match s with
  | [] => []
  | c :: _ => if is '0' c then [c] else s.takeWhile isDigit

/-- A fraction. -/
def fraction : Text → Text
  | [] => []
  | c :: rest => if is '.' c && (rest.takeWhile isDigit) ≠ [] then c :: rest.takeWhile isDigit else []

/-- An exponent. -/
def exponent : Text → Text
  | [] => []
  | e :: rest =>
    if is 'e' e || is 'E' e then
      let sign := rest.takeWhile fun c => is '+' c || is '-' c
      let digits := (rest.drop sign.length).takeWhile isDigit
      if sign.length ≤ 1 ∧ digits ≠ [] then e :: sign ++ digits else []
    else []

/-- `int` of digits. -/
def natOf (digits : Text) : ℕ := digits.foldl (fun n c => 10 * n + (c.val - '0'.toNat)) 0

/-- A number without its sign, and how many characters it takes. -/
def unsigned (negative : Bool) (s : Text) : Option (Token × ℕ) :=
  let digits := intDigits s
  if digits = [] then none
  else
    let rest := s.drop digits.length
    let frac := fraction rest
    let exp := exponent (rest.drop frac.length)
    let n := digits.length + frac.length + exp.length
    if frac ++ exp = [] then
      if digits.length ≤ maxStrDigits then
        some (.int (if negative then -(natOf digits : ℤ) else natOf digits), n)
      else some (.hugeInt, n)
    else some (.float ((if negative then text "-" else []) ++ digits ++ frac ++ exp), n)

/-- A word, if it begins with the text. -/
def word (start : String) (t : Token) (cs : Text) : Option Token × ℕ :=
  if startsWith cs start then (some t, start.length) else (some .bad, 0)

/-- The token that begins with a character, or `none` for a space, and how many more characters it
takes. -/
def token (c : CodePoint) (cs : Text) : Option Token × ℕ :=
  if isSpace c then (none, 0)
  else if is '{' c then (some .lbrace, 0)
  else if is '}' c then (some .rbrace, 0)
  else if is '[' c then (some .lbracket, 0)
  else if is ']' c then (some .rbracket, 0)
  else if is ',' c then (some .comma, 0)
  else if is ':' c then (some .colon, 0)
  else if is '"' c then
    match string 0 cs with
    | some (s, n) => (some (.str s), n)
    | none => (some .bad, 0)
  else if is 'n' c then word "ull" .null cs
  else if is 't' c then word "rue" (.bool true) cs
  else if is 'f' c then word "alse" (.bool false) cs
  else if is 'N' c then word "aN" (.float (text "NaN")) cs
  else if is 'I' c then word "nfinity" (.float (text "Infinity")) cs
  else if is '-' c then
    match unsigned true cs with
    | some (t, n) => (some t, n)
    | none => word "Infinity" (.float (text "-Infinity")) cs
  else
    match unsigned false (c :: cs) with
    | some (t, n) => (some t, n - 1)
    | none => (some .bad, 0)

/-- The tokens of a text. -/
def lex (s : Text) : List Token := (pieces token 0 s).reduceOption

/-! ## Values -/

mutual

/-- How deep containers are nested. -/
def depth : Json → ℕ
  | .arr items => depthItems items + 1
  | .obj members => depthMembers members + 1
  | _ => 0

def depthItems : List Json → ℕ
  | [] => 0
  | v :: items => max (depth v) (depthItems items)

def depthMembers : List (Text × Json) → ℕ
  | [] => 0
  | (_, v) :: members => max (depth v) (depthMembers members)

end

/-- An open container around the value that is being read. -/
inductive Frame
  | arr (items : List Json)
  | obj (members : List (Text × Json)) (key : Text)

/-- What the machine waits for. -/
inductive State
  | value (open_ : List Frame)
  /-- The first item of an array, or its end. -/
  | firstItem (open_ : List Frame)
  /-- The first key of an object, or its end. -/
  | firstKey (open_ : List Frame)
  | key (members : List (Text × Json)) (open_ : List Frame)
  | colon (members : List (Text × Json)) (key : Text) (open_ : List Frame)
  /-- A comma or the end of an array. -/
  | item (items : List Json) (open_ : List Frame)
  /-- A comma or the end of an object. -/
  | member (members : List (Text × Json)) (open_ : List Frame)
  /-- The end of the text. -/
  | done (v : Json)

/-- `members[key] = v`. -/
def insert (key : Text) (v : Json) : List (Text × Json) → List (Text × Json)
  | [] => [(key, v)]
  | (k, w) :: members => if k = key then (k, v) :: members else (k, w) :: insert key v members

/-- A value is complete. -/
def complete (v : Json) : List Frame → State
  | [] => .done v
  | .arr items :: open_ => .item (items ++ [v]) open_
  | .obj members key :: open_ => .member (insert key v members) open_

/-- A token where a value must begin. -/
def stepValue (maxDepth : ℕ) (open_ : List Frame) : Token → Except LoadsError State
  | .null => .ok (complete .null open_)
  | .bool b => .ok (complete (.bool b) open_)
  | .int n => .ok (complete (.int n) open_)
  | .float literal => .ok (complete (.float literal) open_)
  | .str s => .ok (complete (.str s) open_)
  | .lbracket => if open_.length < maxDepth then .ok (.firstItem open_) else .error .recursionError
  | .lbrace => if open_.length < maxDepth then .ok (.firstKey open_) else .error .recursionError
  | .hugeInt => .error .valueError
  | _ => .error .jsonDecodeError

/-- One token. -/
def step (maxDepth : ℕ) : State → Token → Except LoadsError State
  | .value open_, t => stepValue maxDepth open_ t
  | .firstItem open_, t => match t with
    | .rbracket => .ok (complete (.arr []) open_)
    | t => stepValue maxDepth (.arr [] :: open_) t
  | .firstKey open_, t => match t with
    | .rbrace => .ok (complete (.obj []) open_)
    | .str s => .ok (.colon [] s open_)
    | _ => .error .jsonDecodeError
  | .key members open_, t => match t with
    | .str s => .ok (.colon members s open_)
    | _ => .error .jsonDecodeError
  | .colon members key open_, t => match t with
    | .colon => .ok (.value (.obj members key :: open_))
    | _ => .error .jsonDecodeError
  | .item items open_, t => match t with
    | .comma => .ok (.value (.arr items :: open_))
    | .rbracket => .ok (complete (.arr items) open_)
    | _ => .error .jsonDecodeError
  | .member members open_, t => match t with
    | .comma => .ok (.key members open_)
    | .rbrace => .ok (complete (.obj members) open_)
    | _ => .error .jsonDecodeError
  | .done _, _ => .error .jsonDecodeError

/-- The state after the tokens. -/
def run (maxDepth : ℕ) : State → List Token → Except LoadsError State
  | s, [] => .ok s
  | s, t :: ts => match step maxDepth s t with
    | .ok s' => run maxDepth s' ts
    | .error e => .error e

/-- `json.loads` of bytes, where containers may be nested `maxDepth` deep. -/
def loads (maxDepth : ℕ) (bytes : List ℕ) : Except LoadsError Json :=
  match decodeBytes bytes with
  | none => .error .unicodeDecodeError
  | some s => match run maxDepth (.value []) (lex s) with
    | .ok (.done v) => .ok v
    | .ok _ => .error .jsonDecodeError
    | .error e => .error e

/-! ## Writing -/

/-- A hexadecimal digit. -/
def hexChar (n : ℕ) : CodePoint := chr (Nat.digitChar n)

/-- `\uXXXX`. -/
def unicodeEscape (n : ℕ) : Text :=
  [chr '\\', chr 'u', hexChar (n / 0x1000), hexChar (n / 0x100 % 0x10), hexChar (n / 0x10 % 0x10),
    hexChar (n % 0x10)]

/-- A code point in a string, with `ensure_ascii`. -/
def writeChar (c : CodePoint) : Text :=
  if is '"' c then text "\\\""
  else if is '\\' c then text "\\\\"
  else if is '\n' c then text "\\n"
  else if is '\r' c then text "\\r"
  else if is '\t' c then text "\\t"
  else if c.val = 0x0C then text "\\f"
  else if c.val = 0x08 then text "\\b"
  else if 0x20 ≤ c.val ∧ c.val < 0x7F then [c]
  else if c.val < 0x10000 then unicodeEscape c.val
  else unicodeEscape (0xD800 + (c.val - 0x10000) / 0x400) ++
    unicodeEscape (0xDC00 + (c.val - 0x10000) % 0x400)

/-- A string. -/
def writeString (s : Text) : Text := chr '"' :: s.flatMap writeChar ++ [chr '"']

/-- The digits of a number. -/
def decimal (n : ℕ) : Text := (Nat.toDigits 10 n).map chr

/-- The number of digits of an integer. -/
def digits (n : ℤ) : ℕ := (decimal n.natAbs).length

/-- `int.__repr__`. -/
def writeInt : ℤ → Text
  | .ofNat n => decimal n
  | .negSucc n => chr '-' :: decimal (n + 1)

mutual

/-- `json.dumps` of a value whose integers have at most `maxStrDigits` digits. -/
def dumps : Json → Text
  | .null => text "null"
  | .bool b => text (if b then "true" else "false")
  | .int n => writeInt n
  | .float literal => literal
  | .str s => writeString s
  | .arr [] => text "[]"
  | .arr (v :: items) => chr '[' :: dumps v ++ dumpsItems items
  | .obj [] => text "\x7b\x7d"
  | .obj ((key, v) :: members) =>
    chr '\x7b' :: writeString key ++ text ": " ++ dumps v ++ dumpsMembers members

/-- The other items of an array, and its end. -/
def dumpsItems : List Json → Text
  | [] => text "]"
  | v :: items => text ", " ++ dumps v ++ dumpsItems items

/-- The other members of an object, and its end. -/
def dumpsMembers : List (Text × Json) → Text
  | [] => text "\x7d"
  | (key, v) :: members => text ", " ++ writeString key ++ text ": " ++ dumps v ++ dumpsMembers members

end

end Json

end Fraisier.Lib
