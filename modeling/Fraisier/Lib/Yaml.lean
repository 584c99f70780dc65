import Fraisier.Lib.JsonValue

/-!
# Values of a YAML file beside values of a JSON text

What `yaml.safe_load` returns, with the placeholders that stand for environment variables, and its
comparison with a value that `json.loads` returned: Python's `==`, for which `true` is `1`, and
sameness as JSON values, for which it is not. They differ in nothing else (`sameJson_eq`).
-/

namespace Fraisier.Lib

/-- A value of a YAML file. It is not nested so deep that comparing it fails. -/
inductive Yaml
  | null
  | bool (b : Bool)
  | int (n : ℤ)
  | float (x : Json.Number)
  | str (s : Text)
  /-- An `!envvar`, with what the variable is set to. -/
  | env (s : Text)
  | seq (items : List Yaml)
  /-- The members of a `dict`, in their order. A key may be no string. -/
  | map (members : List (Option Text × Yaml))
  /-- A value that JSON does not have, such as a date, with its truth. -/
  | other (truthy : Bool)

namespace Yaml

open Json (Number)

/-- `bool(w)`. -/
def truthy : Yaml → Bool
  | .null => false
  | .bool b => b
  | .int n => n ≠ 0
  | .float x => x ≠ .finite 0
  | .str s => !s.isEmpty
  | .env _ => true
  | .seq items => !items.isEmpty
  | .map members => !members.isEmpty
  | .other truthy => truthy

/-- The number that a value is equal to. -/
def number? : Yaml → Option Number
  | .bool b => some (.finite (if b then 1 else 0))
  | .int n => some (.finite n)
  | .float x => some x
  | _ => none

def isBool : Yaml → Bool
  | .bool _ => true
  | _ => false

/-- The text that a value is equal to. -/
def text? : Yaml → Option Text
  | .str s | .env s => some s
  | _ => none

end Yaml

namespace Json

def number? : Json → Option Number
  | .bool b => some (.finite (if b then 1 else 0))
  | .int n => some (.finite n)
  | .float literal => some (floatValue literal)
  | _ => none

def isBool : Json → Bool
  | .bool _ => true
  | _ => false

/-- `v == w` of two values that are not both sequences or both mappings. A NaN equals nothing. -/
def scalarEq (v : Json) (w : Yaml) : Bool :=
  match v, w with
  | .null, .null => true
  | .str s, w => w.text? = some s
  | v, w => match v.number?, w.number? with
    | some n, some m => n = m && n ≠ .nan
    | _, _ => false

section

variable (scalar : Json → Yaml → Bool)

mutual

/-- The comparison of values, by a comparison of those that are no containers. -/
def agree : Json → Yaml → Bool
  | .arr vs, .seq ws => agreeItems vs ws
  | .obj ms, .map ns => ms.length = ns.length && agreeMembers ms ns
  | v, w => scalar v w

def agreeItems : List Json → List Yaml → Bool
  | [], [] => true
  | v :: vs, w :: ws => agree v w && agreeItems vs ws
  | _, _ => false

/-- Each member has an equal one among the others. -/
def agreeMembers : List (Text × Json) → List (Option Text × Yaml) → Bool
  | [], _ => true
  | (k, v) :: ms, ns => (ns.lookup (some k)).any (agree v ·) && agreeMembers ms ns

end

end

/-- `v == w`. -/
def pyEq : Json → Yaml → Bool := agree scalarEq

/-- The two are one JSON value. -/
def sameJson : Json → Yaml → Bool := agree fun v w => scalarEq v w && v.isBool == w.isBool

/-- Where the one has a boolean, the other has one. -/
def boolsApart : Json → Yaml → Bool := agree fun v w => v.isBool == w.isBool

/-- Comparing by two comparisons is to agree by the one and by the other. -/
theorem agree_and (p q : Json → Yaml → Bool) (v : Json) (w : Yaml) :
    agree (fun v w => p v w && q v w) v w = (agree p v w && agree q v w) := by
  -- The recursion of `agree`, over values, members and items.
  refine agree.induct
    (fun v w => agree (fun v w => p v w && q v w) v w = (agree p v w && agree q v w))
    (fun ms ns => agreeMembers (fun v w => p v w && q v w) ms ns =
      (agreeMembers p ms ns && agreeMembers q ms ns))
    (fun vs ws => agreeItems (fun v w => p v w && q v w) vs ws =
      (agreeItems p vs ws && agreeItems q vs ws)) ?_ ?_ ?_ ?_ ?_ ?_ ?_ ?_ v w
  · intro vs ws ih
    simpa only [agree] using ih
  · intro ms ns ih
    simp only [agree, ih]
    cases decide (ms.length = ns.length) <;> simp
  · intro v w hseq hmap
    rw [agree.eq_3 _ v w hseq hmap, agree.eq_3 _ v w hseq hmap, agree.eq_3 _ v w hseq hmap]
  · rfl
  · intro v vs w ws ih ihs
    simp only [agreeItems, ih, ihs]
    ac_rfl
  · intro vs ws hnil hcons
    rw [agreeItems.eq_3 _ vs ws hnil hcons, agreeItems.eq_3 _ vs ws hnil hcons]
    rfl
  · intro ns
    rfl
  · intro k v ms ns ih ihs
    simp only [agreeMembers, ihs]
    cases ns.lookup (some k) with
    | none => rfl
    | some w =>
      simp only [Option.any_some, ih]
      ac_rfl

/-- Two values are one JSON value when they are equal and no boolean stands for a number. -/
theorem sameJson_eq (v : Json) (w : Yaml) : sameJson v w = (pyEq v w && boolsApart v w) :=
  agree_and scalarEq _ v w

example : pyEq (.arr [.bool true]) (.seq [.int 1]) = true ∧
    sameJson (.arr [.bool true]) (.seq [.int 1]) = false := by decide

end Json

end Fraisier.Lib
