import Mathlib.Algebra.Field.Rat
import Mathlib.Data.List.Flatten
import Mathlib.Data.List.Infix
import Fraisier.Lib.Json

/-!
# What Python code does with a parsed JSON value

The operations of the language on what `json.loads` returned: `.get` and iteration, which not every
value has, truth, `str`, which recurses into containers, and use as a key of a `dict` or a `set`,
where numbers of different types can be equal. A `float` is known by its literal; its value is the
nearest binary64 number.
-/

namespace Fraisier.Lib.Json

open Unicode

/-- What the operations raise. -/
inductive UseError
  | attributeError | typeError | recursionError
  deriving DecidableEq, Repr

/-- How deep containers may be nested, as the interpreter's stack allows. -/
structure Limits where
  /-- In `json.loads`. -/
  loads : ℕ
  /-- In `repr`. -/
  repr : ℕ

/-! ## Numbers -/

/-- The value of a number. -/
inductive Number
  | nan
  | infinity (negative : Bool)
  | finite (q : ℚ)
  deriving DecidableEq

/-- `num / den / 2 ^ k`, as a fraction. -/
def scaled (num den : ℕ) (k : ℤ) : ℕ × ℕ := (num * 2 ^ (-k).toNat, den * 2 ^ k.toNat)

/-- The exponent of the last bit of the binary64 number next to `num / den`: the significand has 53
bits, or fewer below the least normal number. -/
def lastBit (num den : ℕ) : ℤ :=
  let k : ℤ := num.log2 - den.log2 - 52
  let (a, b) := scaled num den k
  max (if a < 2 ^ 52 * b then k - 1 else k) (-1074)

/-- The integer next to `a / b`, the even one of two. -/
def roundHalfEven (a b : ℕ) : ℕ :=
  let q := a / b
  if 2 * (a % b) < b || 2 * (a % b) = b && q % 2 = 0 then q else q + 1

/-- The binary64 number next to `num / den`, which is infinite from `2 ^ 1024` on. -/
def nearest (negative : Bool) (num den : ℕ) : Number :=
  if num = 0 then .finite 0 else
    let k := lastBit num den
    let (a, b) := scaled num den k
    let n := roundHalfEven a b
    if 2 ^ 53 ≤ n && 971 ≤ k || 972 ≤ k then .infinity negative else
      .finite ((if negative then -1 else 1) * n * 2 ^ k)

/-- `float(literal)`, for the literals of JSON and the three words Python's reader accepts. -/
def floatValue (literal : Text) : Number :=
  if literal = text "NaN" then .nan else
    let negative := startsWith literal "-"
    let s := if negative then literal.tail else literal
    if s = text "Infinity" then .infinity negative else
      let whole := s.takeWhile isDigit
      let s := s.dropWhile isDigit
      let frac := if startsWith s "." then s.tail.takeWhile isDigit else []
      let s := if startsWith s "." then s.tail.dropWhile isDigit else s
      let exponent : ℤ := if startsWith s.tail "-" then -natOf s.tail.tail else
        natOf (if startsWith s.tail "+" then s.tail.tail else s.tail)
      let e := exponent - frac.length
      nearest negative (natOf (whole ++ frac) * 10 ^ e.toNat) (10 ^ (-e).toNat)

example : floatValue (text "1.5e1") = .finite 15 := by decide +kernel

/-- A number so small that it is rounded to nothing. -/
example : floatValue (text "-2.4e-324") = .finite 0 := by decide +kernel

/-! ## Truth, keys and text -/

/-- `bool(v)`. -/
def truthy : Json → Bool
  | .null => false
  | .bool b => b
  | .int n => n ≠ 0
  | .float literal => floatValue literal ≠ .finite 0
  | .str s => !s.isEmpty
  | .arr items => !items.isEmpty
  | .obj members => !members.isEmpty

/-- `v or default`. -/
def orElse (v default : Json) : Json := if v.truthy then v else default

/-- What a hashable value is equal to: `1`, `1.0` and `True` are one key. -/
inductive Key
  | null
  | number (n : Number)
  | str (s : Text)
  deriving DecidableEq

/-- The key that a value is; a container has no hash. -/
def key : Json → Except UseError Key
  | .null => .ok .null
  | .bool b => .ok (.number (.finite (if b then 1 else 0)))
  | .int n => .ok (.number (.finite n))
  | .float literal => .ok (.number (floatValue literal))
  | .str s => .ok (.str s)
  | .arr _ | .obj _ => .error .typeError

/-- `v == s`. -/
def isStr (s : String) : Json → Bool
  | .str t => t == text s
  | _ => false

/-- A value is a text when it is that text. -/
theorem isStr_iff {s : String} {v : Json} : v.isStr s = true ↔ v = .str (text s) := by
  cases v <;> simp [isStr]

/-- `str(v)` stands for the value; it is a `RecursionError` on one nested deeper than `limit`. -/
def shown (limit : ℕ) (v : Json) : Except UseError Json :=
  if v.depth ≤ limit then .ok v else .error .recursionError

/-! ## Comparison -/

/-- Two values that are no containers of one kind are equal. -/
def sameKey (v w : Json) : Bool :=
  match v.key, w.key with
  | .ok k, .ok l => k = l
  | _, _ => false

/-- The items are equal one by one, as far as all before are. -/
def equalItems (equal : Json → Json → Except UseError Bool) :
    List Json → List Json → Except UseError Bool
  | v :: vs, w :: ws => do if ← equal v w then equalItems equal vs ws else pure false
  | [], [] => .ok true
  | _, _ => .ok false

/-- Each member has an equal one among the others, as far as all before have. -/
def equalMembers (equal : Json → Json → Except UseError Bool) (others : List (Text × Json)) :
    List (Text × Json) → Except UseError Bool
  | [] => .ok true
  | (k, v) :: ms =>
    match others.lookup k with
    | none => .ok false
    | some w => do if ← equal w v then equalMembers equal others ms else pure false

/-- `v is w or v == w`, of values that one text gave: all its NaNs are one object. Containers are
compared no deeper than `limit`. -/
def equals : ℕ → Json → Json → Except UseError Bool
  | 0, .arr vs, .arr ws => if vs.length = ws.length then .error .recursionError else .ok false
  | 0, .obj vs, .obj ws => if vs.length = ws.length then .error .recursionError else .ok false
  | limit + 1, .arr vs, .arr ws =>
    if vs.length = ws.length then equalItems (equals limit) vs ws else .ok false
  | limit + 1, .obj vs, .obj ws =>
    if vs.length = ws.length then equalMembers (equals limit) ws vs else .ok false
  | _, v, w => .ok (sameKey v w)

/-- `v == w`. A NaN is not equal to itself. -/
def equalTo (limit : ℕ) (v w : Json) : Except UseError Bool :=
  if v.key = .ok (.number .nan) then .ok false else equals limit v w

/-- `item in items`. -/
def memberOf (limit : ℕ) (item : Json) : List Json → Except UseError Bool
  | [] => .ok false
  | v :: vs => do if ← equals limit v item then pure true else memberOf limit item vs

/-- `item in v`. -/
def contains (limit : ℕ) (v item : Json) : Except UseError Bool :=
  match v with
  | .arr vs => memberOf limit item vs
  | .obj ms => do
    let _ ← item.key
    pure (ms.any fun member => item.key = .ok (.str member.1))
  | .str s => match item with
    | .str t => .ok (decide (t <:+: s))
    | _ => .error .typeError
  | _ => .error .typeError

/-! ## Members and items -/

/-- `isinstance(v, dict)`. -/
def dict? : Json → Option (List (Text × Json))
  | .obj members => some members
  | _ => none

/-- `members.get(key, default)`. -/
def getD (members : List (Text × Json)) (key : String) (default : Json) : Json :=
  (members.lookup (text key)).getD default

/-- The members that `v.get` reads, which only a `dict` has. -/
def members (v : Json) : Except UseError (List (Text × Json)) :=
  match v with
  | .obj ms => .ok ms
  | _ => .error .attributeError

/-- `for item in v`. -/
def iter : Json → Except UseError (List Json)
  | .arr items => .ok items
  | .obj ms => .ok (ms.map fun member => .str member.1)
  | .str s => .ok (s.map fun c => .str [c])
  | _ => .error .typeError

/-- A value is shown when it is not nested too deep. -/
theorem shown_ok_iff {limit : ℕ} {v w : Json} :
    v.shown limit = .ok w ↔ v.depth ≤ limit ∧ v = w := by
  unfold shown
  split <;> simp_all

/-- The members are an object's. -/
theorem members_ok_iff {v : Json} {ms : List (Text × Json)} : v.members = .ok ms ↔ v = .obj ms := by
  cases v <;> simp [members]

/-- `json.loads` of a `str`. -/
def loadsStr (maxDepth : ℕ) (s : Text) : Except LoadsError Json :=
  match run maxDepth (.value []) (lex s) with
  | .ok (.done v) => .ok v
  | .ok _ => .error .jsonDecodeError
  | .error e => .error e

end Fraisier.Lib.Json
