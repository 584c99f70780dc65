import Mathlib.Algebra.Ring.Nat
import Mathlib.Data.List.Count
import Mathlib.Data.List.Infix
import Mathlib.Data.List.TakeWhile
import Fraisier.Lib.Text
import Fraisier.Lib.Unicode

/-!
# What a format specification shows of a string

`readSpec` reads a specification of Python's format language and `strSpec` one for strings;
`showStr` is what is shown of a string by a conversion and a specification. What matters of a
specification is `Spec.apply`: the string is cut to the precision and padded to the width.

Of all characters of a specification only the first, which fills, can be a newline, a backslash or a
quote (`plain_tail`), and any other character fills as well (`strSpec_cons`). So where the text that
is shown of two newlines is part of a specification, the text shown of any other string is as good a
part of it (`exists_varies`).
-/

namespace Fraisier.Lib.StrFormat

open Unicode

/-! ## Specifications -/

/-- `PY_SSIZE_T_MAX`. -/
def ssizeMax : ℕ := 2 ^ 63 - 1

/-- The value of a decimal digit. -/
def decimal? (c : CodePoint) : Option ℕ :=
  (Str.decimalZeros.find? fun z => z ≤ c.val && c.val < z + 10).map (c.val - ·)

/-- A specification, read. -/
structure Spec where
  fill : CodePoint
  align : CodePoint
  sign : Option CodePoint
  coercesZero : Bool
  alternate : Bool
  width : Option ℕ
  grouping : Option CodePoint
  precision : Option ℕ
  type : CodePoint
  deriving DecidableEq

def isAlign (c : CodePoint) : Bool :=
  c = chr '<' || c = chr '>' || c = chr '=' || c = chr '^'

/-- The fill and the alignment. -/
def readAlign : Text → (Option CodePoint × Option CodePoint) × Text
  | [] => ((none, none), [])
  | [a] => if isAlign a then ((none, some a), []) else ((none, none), [a])
  | a :: b :: s =>
    if isAlign b then ((some a, some b), s)
    else if isAlign a then ((none, some a), b :: s)
    else ((none, none), a :: b :: s)

/-- One of the characters, if it comes next. -/
def eat (chars : List CodePoint) : Text → Option CodePoint × Text
  | [] => (none, [])
  | c :: s => if c ∈ chars then (some c, s) else (none, c :: s)

/-- A run of digits, if there is one. -/
def readInteger (s : Text) : Option (Option ℕ × Text) :=
  let digits := s.takeWhile fun c => (decimal? c).isSome
  let rest := s.dropWhile fun c => (decimal? c).isSome
  let value := digits.foldl (fun n c => 10 * n + (decimal? c).getD 0) 0
  if ssizeMax < value then none
  else some (if digits = [] then none else some value, rest)

/-- A comma or an underscore between groups of digits, but not both. -/
def readGrouping (s : Text) : Option (Option CodePoint × Text) :=
  let (comma, s) := eat [chr ','] s
  let (underscore, s) := eat [chr '_'] s
  if underscore.isSome && (comma.isSome || s.head? = some (chr ',')) then none
  else some (comma.or underscore, s)

/-- The precision, after a point. Some versions take a grouping after it, or in its place. -/
def readPrecision (groups : Bool) (s : Text) : Option (Option ℕ × Text) :=
  match eat [chr '.'] s with
  | (none, s) => some (none, s)
  | (some _, s) =>
    (readInteger s).bind fun number =>
      (if groups then readGrouping number.2 else some (none, number.2)).bind fun grouping =>
        if number.1.isNone && grouping.1.isNone then none else some (number.1, grouping.2)

/-- The type, which is the last character. -/
def readType : Text → Option CodePoint
  | [] => some (chr 's')
  | [c] => some c
  | _ => none

/-- The types that take a grouping. -/
def takesGrouping (grouping type : CodePoint) : Bool :=
  type ∈ (text "defgEG%F" ++ [point 0]) || grouping = chr '_' && type ∈ text "boxX"

/-- The specification of a string, `none` when it is refused whatever the value is. -/
def readSpec (groups : Bool) (s : Text) : Option Spec := do
  let ((fill, align), s) := readAlign s
  let (sign, s) := eat [chr '+', chr '-', chr ' '] s
  let (coercesZero, s) := eat [chr 'z'] s
  let (alternate, s) := eat [chr '#'] s
  let (zero, s) := eat (if fill.isNone then [chr '0'] else []) s
  let (width, s) ← readInteger s
  let (grouping, s) ← readGrouping s
  let (precision, s) ← readPrecision groups s
  let type ← readType s
  if grouping.any fun c => !takesGrouping c type then none
  else some {
    fill := fill.getD (zero.getD (chr ' '))
    align := align.getD (chr '<')
    sign
    coercesZero := coercesZero.isSome
    alternate := alternate.isSome
    width
    grouping
    precision
    type }

/-- The specification of a string. -/
def strSpec (groups : Bool) (s : Text) : Option Spec :=
  (readSpec groups s).filter fun spec => spec.type = chr 's' && spec.sign.isNone &&
    !spec.coercesZero && !spec.alternate && spec.align ≠ chr '='

/-- What is left of a string of the precision. -/
def Spec.cut (spec : Spec) (s : Text) : Text := spec.precision.elim s s.take

/-- How many characters are filled in, and how many of these before the string. -/
def Spec.padding (spec : Spec) (n : ℕ) : ℕ := spec.width.getD 0 - n

def Spec.before (spec : Spec) (n : ℕ) : ℕ :=
  if spec.align = chr '>' then spec.padding n
  else if spec.align = chr '^' then spec.padding n / 2
  else 0

/-- A string by the specification. -/
def Spec.apply (spec : Spec) (s : Text) : Text :=
  let n := (spec.cut s).length
  List.replicate (spec.before n) spec.fill ++ spec.cut s ++
    List.replicate (spec.padding n - spec.before n) spec.fill

/-! ## Conversions -/

/-- The last hexadecimal digits of a number. -/
def hexDigits : ℕ → ℕ → Text
  | 0, _ => []
  | k + 1, n => hexDigits k (n / 16) ++ [chr (Nat.digitChar (n % 16))]

/-- The escape of a code point by its number. -/
def escaped (c : CodePoint) : Text :=
  if c.val < 0x100 then text "\\x" ++ hexDigits 2 c.val
  else if c.val < 0x10000 then text "\\u" ++ hexDigits 4 c.val
  else text "\\U" ++ hexDigits 8 c.val

/-- A character in `repr`, between such quotes. -/
def reprChar (isPrintable : CodePoint → Bool) (quote c : CodePoint) : Text :=
  if c = quote ∨ c = chr '\\' then [chr '\\', c]
  else if c = chr '\t' then text "\\t"
  else if c = chr '\n' then text "\\n"
  else if c = chr '\r' then text "\\r"
  else if c.val < 0x20 ∨ c.val = 0x7F then escaped c
  else if c.val < 0x7F ∨ isPrintable c then [c]
  else escaped c

/-- The quotes of `repr`. -/
def quoteOf (s : Text) : CodePoint :=
  if chr '\'' ∈ s ∧ chr '"' ∉ s then chr '"' else chr '\''

/-- `repr` of a string. -/
def repr (isPrintable : CodePoint → Bool) (s : Text) : Text :=
  quoteOf s :: s.flatMap (reprChar isPrintable (quoteOf s)) ++ [quoteOf s]

/-- `ascii` of a string. -/
def ascii (isPrintable : CodePoint → Bool) (s : Text) : Text :=
  (repr isPrintable s).flatMap fun c => if c.val < 0x80 then [c] else escaped c

/-- What depends on the version of the interpreter. -/
structure Version where
  /-- The characters that `repr` does not escape, beyond ASCII. -/
  isPrintable : CodePoint → Bool
  /-- A precision may have a grouping. -/
  groups : Bool

/-- A conversion of a string: `none` when it is unknown. -/
def convert (v : Version) (conversion : Option CodePoint) (s : Text) : Option Text :=
  match conversion with
  | none => some s
  | some c =>
    if c = chr 's' then some s
    else if c = chr 'r' then some (repr v.isPrintable s)
    else if c = chr 'a' then some (ascii v.isPrintable s)
    else none

/-- The conversions that keep a string as it is. -/
def keeps (conversion : Option CodePoint) : Bool :=
  conversion = none || conversion = some (chr 's')

/-- What a field shows whose value is a string. -/
def showStr (v : Version) (value : Text) (conversion : Option CodePoint) (spec : Text) :
    Option Text := do
  let s ← convert v conversion value
  let spec ← strSpec v.groups spec
  return spec.apply s

/-! ## Padding -/

section Apply

variable {spec : Spec} {s t : Text} {c : CodePoint}

/-- What is put before is part of the padding. -/
theorem Spec.before_le (spec : Spec) (n : ℕ) : spec.before n ≤ spec.padding n := by
  unfold Spec.before
  split
  · exact Nat.le_refl _
  · split
    · exact Nat.div_le_self _ _
    · exact Nat.zero_le _

/-- What is left of the string is in what is shown of it. -/
theorem Spec.cut_infix (spec : Spec) (s : Text) : spec.cut s <:+: spec.apply s :=
  ⟨_, _, rfl⟩

/-- A string that is not longer than the precision is not cut. -/
theorem Spec.cut_eq (h : ∀ p, spec.precision = some p → s.length ≤ p) : spec.cut s = s := by
  unfold Spec.cut
  cases hp : spec.precision with
  | none => rfl
  | some p => exact List.take_of_length_le (h p hp)

/-- Only as much of the string counts as the precision leaves. -/
theorem Spec.apply_congr (h : spec.cut s = spec.cut t) : spec.apply s = spec.apply t := by
  unfold Spec.apply
  rw [h]

/-- Characters are filled in up to the width, and no more are taken than the precision leaves. -/
theorem Spec.count_apply (spec : Spec) (s : Text) (c : CodePoint) :
    (spec.apply s).count c ≤ (spec.cut s).count c + spec.width.getD 0 := by
  have hfill : ∀ n, (List.replicate n spec.fill).count c ≤ n := fun n =>
    List.count_le_length.trans (by rw [List.length_replicate])
  have hbefore := hfill (spec.before (spec.cut s).length)
  have hafter := hfill (spec.padding (spec.cut s).length - spec.before (spec.cut s).length)
  have hle := spec.before_le (spec.cut s).length
  have hwidth : spec.padding (spec.cut s).length ≤ spec.width.getD 0 := Nat.sub_le _ _
  unfold Spec.apply
  rw [List.count_append, List.count_append]
  omega

/-- A text that is cut has no more of a character than the precision. -/
theorem Spec.count_cut_le (h : spec.precision = some n) (s : Text) (c : CodePoint) :
    (spec.cut s).count c ≤ n := by
  unfold Spec.cut
  rw [h]
  exact List.count_le_length.trans (List.length_take_le _ _)

end Apply

/-! ## The characters of a specification -/

section Plain

variable {s rest : Text} {c : CodePoint}

/-- A character that a specification only takes as its fill. -/
def isOdd (c : CodePoint) : Bool :=
  c = chr '\n' || c = chr '\\' || c = chr '\'' || c = chr '"'

/-- A character that is none of these. -/
def Plain (c : CodePoint) : Prop := isOdd c = false

instance : DecidablePred Plain := fun _ => inferInstanceAs (Decidable (_ = _))

/-- What holds of a newline, a backslash and the quotes holds of all that is not plain. -/
theorem plain_of {p : CodePoint → Bool} (hnewline : p (chr '\n') = false)
    (hbackslash : p (chr '\\') = false) (hquote : p (chr '\'') = false)
    (hquotes : p (chr '"') = false) (hc : p c = true) : Plain c := by
  by_contra hodd
  have hodd : isOdd c = true := Bool.of_not_eq_false hodd
  simp only [isOdd, Bool.or_eq_true, decide_eq_true_eq] at hodd
  rcases hodd with ((rfl | rfl) | rfl) | rfl
  · rw [hnewline] at hc
    nomatch hc
  · rw [hbackslash] at hc
    nomatch hc
  · rw [hquote] at hc
    nomatch hc
  · rw [hquotes] at hc
    nomatch hc

/-- What is read of a text has plain characters, and the rest is what remains. -/
def Eats (s rest : Text) : Prop := ∃ used, s = used ++ rest ∧ ∀ c ∈ used, Plain c

/-- Nothing is eaten of a text. -/
theorem Eats.refl (s : Text) : Eats s s := ⟨[], rfl, nofun⟩

/-- What is eaten in two parts is eaten. -/
theorem Eats.trans {t : Text} (h : Eats s t) (ht : Eats t rest) : Eats s rest := by
  obtain ⟨used, rfl, hused⟩ := h
  obtain ⟨used', rfl, hused'⟩ := ht
  exact ⟨used ++ used', (List.append_assoc _ _ _).symm, List.forall_mem_append.mpr ⟨hused, hused'⟩⟩

/-- A plain character is eaten. -/
theorem eats_cons (h : Plain c) (s : Text) : Eats (c :: s) s :=
  ⟨[c], rfl, by simpa using h⟩

/-- One of some plain characters is eaten, if it is there. -/
theorem eats_eat {chars : List CodePoint} (h : chars.all (Plain ·) = true) (s : Text) :
    Eats s (eat chars s).2 := by
  cases s with
  | nil => exact .refl []
  | cons c s =>
    by_cases hmem : c ∈ chars
    · have heat : eat chars (c :: s) = (some c, s) := if_pos hmem
      rw [heat]
      exact eats_cons (of_decide_eq_true (List.all_eq_true.mp h c hmem)) s
    · have heat : eat chars (c :: s) = (none, c :: s) := if_neg hmem
      rw [heat]
      exact .refl _

/-- An integer is plain. -/
theorem eats_readInteger {value : Option ℕ} (h : readInteger s = some (value, rest)) :
    Eats s rest := by
  have hdigit : ∀ c, (decimal? c).isSome = true → Plain c := fun c =>
    plain_of (p := fun c => (decimal? c).isSome) (by decide) (by decide) (by decide) (by decide)
  unfold readInteger at h
  dsimp only at h
  split at h
  · nomatch h
  · obtain ⟨-, rfl⟩ := Prod.mk.inj (Option.some.inj h)
    refine ⟨_, (List.takeWhile_append_dropWhile).symm, fun c hc => hdigit c ?_⟩
    exact List.mem_takeWhile_imp (p := fun c => (decimal? c).isSome) hc

/-- A grouping is plain. -/
theorem eats_readGrouping {grouping : Option CodePoint} (h : readGrouping s = some (grouping, rest)) :
    Eats s rest := by
  unfold readGrouping at h
  have hcomma : Eats s (eat [chr ','] s).2 := eats_eat (by decide) s
  have hunderscore : Eats (eat [chr ','] s).2 (eat [chr '_'] (eat [chr ','] s).2).2 :=
    eats_eat (by decide) _
  dsimp only at h
  split at h
  · nomatch h
  · obtain ⟨-, rfl⟩ := Prod.mk.inj (Option.some.inj h)
    exact hcomma.trans hunderscore

/-- A precision is plain. -/
theorem eats_readPrecision {groups : Bool} {precision : Option ℕ}
    (h : readPrecision groups s = some (precision, rest)) : Eats s rest := by
  unfold readPrecision at h
  have hpoint : Eats s (eat [chr '.'] s).2 := eats_eat (by decide) s
  -- Without a point there is no precision.
  split at h
  · next t heat =>
    rw [heat] at hpoint
    obtain ⟨-, rfl⟩ := Prod.mk.inj (Option.some.inj h)
    exact hpoint
  -- After the point come a number and its grouping.
  · next t heat =>
    rw [heat] at hpoint
    obtain ⟨number, hnumber, h⟩ := Option.bind_eq_some_iff.mp h
    obtain ⟨grouping, hgrouping, h⟩ := Option.bind_eq_some_iff.mp h
    have hgroup : Eats number.2 grouping.2 := by
      split at hgrouping
      · exact eats_readGrouping hgrouping
      · obtain rfl := Option.some.inj hgrouping
        exact .refl _
    split at h
    · nomatch h
    · obtain ⟨-, rfl⟩ := Prod.mk.inj (Option.some.inj h)
      exact hpoint.trans ((eats_readInteger hnumber).trans hgroup)

/-- All but the first character that is read of the fill and the alignment are plain. -/
theorem eats_readAlign (s : Text) :
    ∃ used, s = used ++ (readAlign s).2 ∧ ∀ c ∈ used.tail, Plain c := by
  have halign : ∀ c, isAlign c = true → Plain c := fun c =>
    plain_of (by decide) (by decide) (by decide) (by decide)
  -- The fill is there only when an alignment stands second.
  match s with
  | [] => exact ⟨[], rfl, nofun⟩
  | [a] =>
    rw [readAlign]
    split
    · exact ⟨[a], rfl, nofun⟩
    · exact ⟨[], rfl, nofun⟩
  | a :: b :: s =>
    rw [readAlign]
    split
    · next hb => exact ⟨[a, b], rfl, by simpa using halign b hb⟩
    · split
      · exact ⟨[a], rfl, nofun⟩
      · exact ⟨[], rfl, nofun⟩

/-- What a specification is read from: the fill and the alignment, plain characters, and the type. -/
theorem readSpec_parts {groups : Bool} {spec : Spec} (h : readSpec groups s = some spec) :
    ∃ rest, Eats (readAlign s).2 rest ∧ readType rest = some spec.type := by
  unfold readSpec at h
  generalize readAlign s = aligned at h ⊢
  obtain ⟨⟨fill, align⟩, s⟩ := aligned
  obtain ⟨width, hwidth, h⟩ := Option.bind_eq_some_iff.mp h
  obtain ⟨grouping, hgrouping, h⟩ := Option.bind_eq_some_iff.mp h
  obtain ⟨precision, hprecision, h⟩ := Option.bind_eq_some_iff.mp h
  obtain ⟨type, htype, h⟩ := Option.bind_eq_some_iff.mp h
  have hzero : (if fill.isNone then [chr '0'] else []).all (Plain ·) = true := by
    cases fill with
    | none => decide
    | some a => rfl
  -- Each part eats what it reads, and the type is what is left.
  refine ⟨precision.2, ?_, ?_⟩
  · exact (eats_eat (by decide) _).trans <| (eats_eat (by decide) _).trans <|
      (eats_eat (by decide) _).trans <| (eats_eat hzero _).trans <|
      (eats_readInteger hwidth).trans <| (eats_readGrouping hgrouping).trans <|
      eats_readPrecision hprecision
  · split at h
    · nomatch h
    · obtain rfl := Option.some.inj h
      exact htype

/-- All but the first character of a specification of a string are plain. -/
theorem plain_tail {groups : Bool} {spec : Spec} (h : strSpec groups s = some spec) :
    ∀ c ∈ s.tail, Plain c := by
  obtain ⟨hread, htype⟩ := Option.filter_eq_some_iff.mp h
  simp only [Bool.and_eq_true, decide_eq_true_eq] at htype
  obtain ⟨used, hused, hplain⟩ := eats_readAlign s
  obtain ⟨rest, ⟨eaten, heaten, hplain'⟩, hrest⟩ := readSpec_parts hread
  -- The type is `s`, or is left out.
  have hlast : ∀ c ∈ rest, Plain c := by
    rw [htype.1.1.1.1] at hrest
    match rest with
    | [] => exact nofun
    | [c] =>
      obtain rfl := Option.some.inj hrest
      simpa using show Plain (chr 's') by decide
    | _ :: _ :: _ => nomatch hrest
  intro c hc
  rw [hused, heaten] at hc
  -- Only the fill, which comes first, may be any character.
  cases used with
  | nil => exact List.forall_mem_append.mpr ⟨hplain', hlast⟩ c (List.mem_of_mem_tail hc)
  | cons a used =>
    rw [List.cons_append, List.tail_cons] at hc
    rcases List.mem_append.mp hc with hc | hc
    · exact hplain c hc
    · exact List.forall_mem_append.mpr ⟨hplain', hlast⟩ c hc

/-- Where a specification begins with a character that is not plain, an alignment follows. -/
theorem exists_align {groups : Bool} {spec : Spec} {d : CodePoint} {z : Text} (hd : ¬Plain d)
    (h : strSpec groups (d :: z) = some spec) : ∃ b z', isAlign b = true ∧ z = b :: z' := by
  obtain ⟨hread, htype⟩ := Option.filter_eq_some_iff.mp h
  simp only [Bool.and_eq_true, decide_eq_true_eq] at htype
  obtain ⟨rest, ⟨used, hused, hplain⟩, hrest⟩ := readSpec_parts hread
  rw [htype.1.1.1.1] at hrest
  have hda : ¬isAlign d = true := fun h =>
    hd (plain_of (by decide) (by decide) (by decide) (by decide) h)
  -- A character that is left is plain, or it is the type.
  have hleft : (readAlign (d :: z)).2 = d :: z → False := by
    intro heq
    rw [heq] at hused
    cases used with
    | cons a used =>
      obtain ⟨rfl, -⟩ := List.cons.inj hused
      exact hd (hplain d List.mem_cons_self)
    | nil =>
      rw [List.nil_append] at hused
      rw [← hused] at hrest
      cases z with
      | nil =>
        obtain rfl := Option.some.inj hrest
        exact hd (by decide)
      | cons b z => nomatch hrest
  cases z with
  | nil => exact absurd (by rw [readAlign, if_neg hda]) hleft
  | cons b z =>
    by_cases hb : isAlign b = true
    · exact ⟨b, z, hb, rfl⟩
    · exact absurd (by rw [readAlign, if_neg hb, if_neg hda]) hleft

/-- The fill of a specification can be any character. -/
theorem readSpec_fill {groups : Bool} {b : CodePoint} (hb : isAlign b = true) (c d : CodePoint)
    (z : Text) : readSpec groups (c :: b :: z) =
      (readSpec groups (d :: b :: z)).map fun spec => { spec with fill := c } := by
  -- The fill is not looked at again, and the parts after it are the same.
  have halign : ∀ a, readAlign (a :: b :: z) = ((some a, some b), z) := fun a => by
    rw [readAlign, if_pos hb]
  unfold readSpec
  rw [halign, halign]
  simp only [bind, Option.map_bind]
  refine Option.bind_congr fun width _ => ?_
  rw [Function.comp_apply, Option.map_bind]
  refine Option.bind_congr fun grouping _ => ?_
  rw [Function.comp_apply, Option.map_bind]
  refine Option.bind_congr fun precision _ => ?_
  rw [Function.comp_apply, Option.map_bind]
  refine Option.bind_congr fun type _ => ?_
  rw [Function.comp_apply, apply_ite (Option.map _)]
  rfl

/-- A character that is not plain fills, and any other does so in its place. -/
theorem strSpec_cons {groups : Bool} {spec : Spec} {d : CodePoint} {z : Text} (hd : ¬Plain d)
    (h : strSpec groups (d :: z) = some spec) (c : CodePoint) :
    strSpec groups (c :: z) = some { spec with fill := c } := by
  obtain ⟨b, z, hb, rfl⟩ := exists_align hd h
  obtain ⟨hread, htype⟩ := Option.filter_eq_some_iff.mp h
  refine Option.filter_eq_some_iff.mpr ⟨?_, htype⟩
  rw [readSpec_fill hb c d, hread]
  rfl

end Plain

/-! ## `repr` -/

section Repr

variable {isPrintable : CodePoint → Bool} {s t : Text} {c : CodePoint}

/-- No hexadecimal digit is a newline. -/
theorem newline_notMem_hexDigits (k n : ℕ) : chr '\n' ∉ hexDigits k n := by
  induction k generalizing n with
  | zero => exact List.not_mem_nil
  | succ k ih =>
    have hdigit : ∀ m < 16, chr '\n' ≠ chr (Nat.digitChar m) := by decide
    rw [hexDigits, List.mem_append, List.mem_singleton]
    exact fun h => h.elim (ih _) (hdigit _ (Nat.mod_lt _ (by decide)))

/-- An escape has no newline. -/
theorem newline_notMem_escaped (c : CodePoint) : chr '\n' ∉ escaped c := by
  have happend : ∀ {intro_ : String} {k n : ℕ}, chr '\n' ∉ text intro_ →
      chr '\n' ∉ text intro_ ++ hexDigits k n := fun hintro hmem =>
    (List.mem_append.mp hmem).elim hintro (newline_notMem_hexDigits _ _)
  unfold escaped
  split
  · exact happend (by decide)
  · split
    · exact happend (by decide)
    · exact happend (by decide)

/-- A quote is single or double. -/
theorem quoteOf_eq (s : Text) : quoteOf s = chr '\'' ∨ quoteOf s = chr '"' := by
  unfold quoteOf
  split
  · exact .inr rfl
  · exact .inl rfl

/-- A character is shown without a newline. -/
theorem newline_notMem_reprChar (s : Text) (c : CodePoint) :
    chr '\n' ∉ reprChar isPrintable (quoteOf s) c := by
  have hquote : quoteOf s ≠ chr '\n' := by
    rcases quoteOf_eq s with h | h <;> rw [h] <;> decide
  unfold reprChar
  split
  -- A quote and a backslash are escaped.
  · next h =>
    have hc : chr '\n' ≠ c := by
      rintro rfl
      rcases h with h | h
      · exact hquote h.symm
      · exact absurd h (by decide)
    have hbackslash : chr '\n' ≠ chr '\\' := by decide
    simp [hc, hbackslash]
  -- A newline has an escape of its own.
  · split
    · decide
    · split
      · decide
      · next hnewline =>
        split
        · decide
        · split
          · exact newline_notMem_escaped c
          · split
            · simpa using Ne.symm hnewline
            · exact newline_notMem_escaped c

/-- What is printed of a string has no newline. -/
theorem newline_notMem_repr (s : Text) : chr '\n' ∉ repr isPrintable s := by
  have hquote : chr '\n' ≠ quoteOf s := by
    rcases quoteOf_eq s with h | h <;> rw [h] <;> decide
  unfold repr
  rw [List.mem_append, List.mem_cons, List.mem_singleton, List.mem_flatMap]
  rintro ((h | ⟨c, -, hc⟩) | h)
  · exact hquote h
  · exact newline_notMem_reprChar s c hc
  · exact hquote h

/-- The ASCII form of a text has no newline. -/
theorem newline_notMem_ascii (s : Text) : chr '\n' ∉ ascii isPrintable s := by
  unfold ascii
  rw [List.mem_flatMap]
  rintro ⟨c, hc, hnewline⟩
  split at hnewline
  · rw [List.mem_singleton] at hnewline
    exact newline_notMem_repr s (hnewline ▸ hc)
  · exact newline_notMem_escaped c hnewline

/-- What is printed begins with a quote. -/
theorem repr_cons (isPrintable : CodePoint → Bool) (s : Text) :
    ∃ rest, repr isPrintable s = quoteOf s :: rest := ⟨_, rfl⟩

/-- The ASCII form of a text begins with its quote. -/
theorem ascii_cons (isPrintable : CodePoint → Bool) (s : Text) :
    ∃ rest, ascii isPrintable s = quoteOf s :: rest := by
  have hquote : (quoteOf s).val < 0x80 := by
    rcases quoteOf_eq s with h | h <;> rw [h] <;> decide
  unfold ascii repr
  rw [List.cons_append, List.flatMap_cons, if_pos hquote]
  exact ⟨_, rfl⟩

end Repr

/-! ## Two newlines in place of any string -/

section Varies

variable {v : Version} {conversion : Option CodePoint} {spec : Spec} {x y s t : Text} {n : ℕ}

/-- Two newlines. -/
def newlines (n : ℕ) : Text := List.replicate n (chr '\n')

/-- The same text, but for a first character that is not plain. -/
def Varies (x y : Text) : Prop := y = x ∨ ∃ d c z, ¬Plain d ∧ x = d :: z ∧ y = c :: z

/-- Only the empty text varies with the empty one. -/
theorem Varies.nil_left (h : Varies [] y) : y = [] := by
  rcases h with h | ⟨d, c, z, -, h, -⟩
  · exact h
  · nomatch h

/-- A text whose characters are plain is the same. -/
theorem Varies.of_plain (h : Varies x y) (hx : ∀ c ∈ x, Plain c) : y = x := by
  rcases h with h | ⟨d, c, z, hd, rfl, -⟩
  · exact h
  · exact absurd (hx d List.mem_cons_self) hd

/-- Two texts have plain characters after their first where one text made of both does. -/
theorem plain_of_append {x' : Text} (h : ∀ c ∈ (x ++ x').tail, Plain c) :
    (∀ c ∈ x.tail, Plain c) ∧ ∀ c ∈ x'.tail, Plain c := by
  cases x with
  | nil => exact ⟨nofun, h⟩
  | cons a x =>
    rw [List.cons_append, List.tail_cons] at h
    exact ⟨fun c hc => h c (List.mem_append_left _ hc),
      fun c hc => h c (List.mem_append_right _ (List.mem_of_mem_tail hc))⟩

/-- Texts that vary piece by piece vary, when only the first character is not plain. -/
theorem Varies.append {x' y' : Text} (h : Varies x y) (h' : Varies x' y')
    (hplain : ∀ c ∈ (x ++ x').tail, Plain c) : Varies (x ++ x') (y ++ y') := by
  cases x with
  | nil =>
    rw [h.nil_left]
    exact h'
  | cons a x =>
    rw [List.cons_append, List.tail_cons] at hplain
    have hrest : y' = x' := h'.of_plain fun c hc => hplain c (List.mem_append_right _ hc)
    subst hrest
    rcases h with rfl | ⟨d, c, z, hd, hx, rfl⟩
    · exact .inl rfl
    · obtain ⟨rfl, rfl⟩ := List.cons.inj hx
      exact .inr ⟨a, c, x ++ y', hd, rfl, rfl⟩

/-- As a specification of strings, it has the precision and the width. -/
theorem Varies.strSpec {groups : Bool} (h : Varies x y) (hx : strSpec groups x = some spec) :
    ∃ c, strSpec groups y = some { spec with fill := c } := by
  rcases h with rfl | ⟨d, c, z, hd, rfl, rfl⟩
  · exact ⟨spec.fill, hx⟩
  · exact ⟨c, strSpec_cons hd hx c⟩

/-- The form of newlines begins with an escape. -/
theorem repr_newlines (isPrintable : CodePoint → Bool) (n : ℕ) :
    ∃ z, repr isPrintable (newlines (n + 1)) = chr '\'' :: chr '\\' :: z := by
  have hquote : quoteOf (newlines (n + 1)) = chr '\'' := by
    refine if_neg fun h => ?_
    exact absurd (List.eq_of_mem_replicate h.1) (by decide)
  unfold repr
  rw [hquote, newlines, List.replicate_succ, List.flatMap_cons]
  exact ⟨_, rfl⟩

/-- Some conversions keep a string, and the others quote it. -/
theorem convert_cases (h : convert v conversion s = some x) :
    (keeps conversion = true ∧ ∀ t, convert v conversion t = some t) ∨
    (keeps conversion = false ∧ ∀ t, convert v conversion t = some (repr v.isPrintable t)) ∨
    (keeps conversion = false ∧ ∀ t, convert v conversion t = some (ascii v.isPrintable t)) := by
  -- Only `repr` and `ascii` quote.
  cases conversion with
  | none => exact .inl ⟨rfl, fun _ => rfl⟩
  | some c =>
    unfold convert at h ⊢
    dsimp only at h ⊢
    split at h
    · next hs =>
      subst hs
      exact .inl ⟨rfl, fun _ => rfl⟩
    · split at h
      · next hr =>
        subst hr
        exact .inr (.inl ⟨rfl, fun _ => rfl⟩)
      · split at h
        · next ha =>
          subst ha
          exact .inr (.inr ⟨rfl, fun _ => rfl⟩)
        · nomatch h

/-- A conversion that works on one text works on every one. -/
theorem convert_isSome (h : convert v conversion s = some x) (t : Text) :
    ∃ y, convert v conversion t = some y := by
  rcases convert_cases h with ⟨-, hall⟩ | ⟨-, hall⟩ | ⟨-, hall⟩
  · exact ⟨t, hall t⟩
  · exact ⟨_, hall t⟩
  · exact ⟨_, hall t⟩

/-- However newlines are converted, the first two characters are not plain. -/
theorem convert_newlines (h : convert v conversion (newlines (n + 2)) = some x) :
    ∃ d e z, x = d :: e :: z ∧ ¬Plain d ∧ ¬Plain e := by
  obtain ⟨z, hrepr⟩ := repr_newlines v.isPrintable (n + 1)
  rcases convert_cases h with ⟨-, hall⟩ | ⟨-, hall⟩ | ⟨-, hall⟩
  · obtain rfl := Option.some.inj (h.symm.trans (hall _))
    exact ⟨_, _, newlines n, rfl, by decide, by decide⟩
  · obtain rfl := Option.some.inj (h.symm.trans (hall _))
    exact ⟨_, _, z, hrepr, by decide, by decide⟩
  · obtain rfl := Option.some.inj (h.symm.trans (hall _))
    unfold ascii
    rw [hrepr, List.flatMap_cons, List.flatMap_cons, if_pos (by decide), if_pos (by decide)]
    exact ⟨_, _, _, rfl, by decide, by decide⟩

/-- What a string other than the empty one is converted to is not empty. -/
theorem convert_ne_nil (ht : t ≠ []) (h : convert v conversion t = some y) : y ≠ [] := by
  rcases convert_cases h with ⟨-, hall⟩ | ⟨-, hall⟩ | ⟨-, hall⟩
  · obtain rfl := Option.some.inj (h.symm.trans (hall _))
    exact ht
  · obtain rfl := Option.some.inj (h.symm.trans (hall _))
    obtain ⟨rest, hrest⟩ := repr_cons v.isPrintable t
    rw [hrest]
    exact List.cons_ne_nil _ _
  · obtain rfl := Option.some.inj (h.symm.trans (hall _))
    obtain ⟨rest, hrest⟩ := ascii_cons v.isPrintable t
    rw [hrest]
    exact List.cons_ne_nil _ _

/-- A text before a first character, or a second character, is more than one. -/
theorem mem_tail_append {a : Text} {c : CodePoint} (h : a ≠ []) (hc : c ∈ x) (b : Text) :
    c ∈ (a ++ x ++ b).tail := by
  cases a with
  | nil => exact absurd rfl h
  | cons d a =>
    exact List.mem_append_left _ (List.mem_append_right _ hc)

/-- A specification that cuts nothing keeps texts varying. -/
theorem varies_apply {d e : CodePoint} {z : Text} (hd : ¬Plain d) (he : ¬Plain e) (hy : y ≠ [])
    (hplain : ∀ c ∈ (spec.apply (d :: e :: z)).tail, Plain c) :
    Varies (spec.apply (d :: e :: z)) (spec.apply y) := by
  obtain ⟨c, y', rfl⟩ := List.exists_cons_of_ne_nil hy
  -- Nothing comes before the first character that is left.
  have hbefore : ∀ w, spec.cut (d :: e :: z) = d :: w →
      spec.before (spec.cut (d :: e :: z)).length = 0 ∧ ∀ c ∈ w, Plain c := by
    intro w hcut
    unfold Spec.apply at hplain
    dsimp only at hplain
    rw [hcut] at hplain ⊢
    cases hn : spec.before (d :: w).length with
    | succ n =>
      rw [hn] at hplain
      exact absurd (hplain d (mem_tail_append (List.cons_ne_nil _ _) List.mem_cons_self _)) hd
    | zero =>
      rw [hn] at hplain
      exact ⟨rfl, fun c hc => hplain c (List.mem_append_left _ hc)⟩
  have hcut_more : ∀ w, spec.cut (d :: e :: z) ≠ d :: e :: w := fun w hcut =>
    he ((hbefore _ hcut).2 e List.mem_cons_self)
  cases hp : spec.precision with
  | none => exact absurd (by rw [Spec.cut, hp]; rfl) (hcut_more z)
  | some p =>
    have hcut : ∀ s, spec.cut s = s.take p := fun s => by rw [Spec.cut, hp]; rfl
    match p with
    | 0 => exact .inl (Spec.apply_congr (by rw [hcut, hcut, List.take_zero, List.take_zero]))
    | 1 =>
      have hone : ∀ a w, spec.cut (a :: w) = [a] := fun a w => hcut (a :: w)
      have hnone : spec.before 1 = 0 := by
        have := (hbefore [] (hone d _)).1
        rwa [hone] at this
      have hshown : ∀ a w, spec.apply (a :: w) = a :: List.replicate (spec.padding 1) spec.fill := by
        intro a w
        unfold Spec.apply
        dsimp only
        rw [hone, List.length_singleton, hnone]
        rfl
      exact .inr ⟨d, c, _, hd, hshown d _, hshown c _⟩
    | p + 2 => exact absurd (hcut _) (hcut_more (z.take p))

/-- What is shown of two newlines in a specification is what is shown of any string but the empty
one, up to the fill. -/
theorem exists_varies {σ : Text} (hx : showStr v (newlines 2) conversion σ = some x)
    (hplain : ∀ c ∈ x.tail, Plain c) (ht : t ≠ []) :
    ∃ y, showStr v t conversion σ = some y ∧ Varies x y := by
  obtain ⟨s, hs, hx⟩ := Option.bind_eq_some_iff.mp hx
  obtain ⟨spec, hspec, hx⟩ := Option.bind_eq_some_iff.mp hx
  obtain rfl := Option.some.inj hx
  obtain ⟨d, e, z, rfl, hd, he⟩ := convert_newlines hs
  obtain ⟨y, hy⟩ := convert_isSome hs t
  refine ⟨spec.apply y, ?_, varies_apply hd he (convert_ne_nil ht hy) hplain⟩
  exact Option.bind_eq_some_iff.mpr ⟨y, hy, Option.bind_eq_some_iff.mpr ⟨spec, hspec, rfl⟩⟩

/-- What is shown has no more newlines than the width and the precision leave. -/
theorem count_showStr {σ : Text} (hspec : strSpec v.groups σ = some spec)
    (hx : showStr v t conversion σ = some x)
    (hcut : keeps conversion = true → spec.precision ≠ none) :
    x.count (chr '\n') ≤ spec.precision.getD 0 + spec.width.getD 0 := by
  obtain ⟨s, hs, hx⟩ := Option.bind_eq_some_iff.mp hx
  obtain ⟨spec', hspec', hx⟩ := Option.bind_eq_some_iff.mp hx
  obtain rfl := Option.some.inj (hspec.symm.trans hspec')
  obtain rfl := Option.some.inj hx
  -- Cutting leaves no more newlines than characters.
  have hnewline : (spec.cut s).count (chr '\n') ≤ spec.precision.getD 0 := by
    cases hp : spec.precision with
    | some p => exact Spec.count_cut_le hp s _
    | none =>
      have hquoted : ∀ {q}, chr '\n' ∉ q → convert v conversion t = some q →
          (spec.cut s).count (chr '\n') ≤ 0 := by
        intro q hq hconvert
        obtain rfl := Option.some.inj (hs.symm.trans hconvert)
        rw [Spec.cut, hp]
        exact (List.count_eq_zero.mpr hq).le
      rcases convert_cases hs with ⟨hkeeps, -⟩ | ⟨-, hall⟩ | ⟨-, hall⟩
      · exact absurd hp (hcut hkeeps)
      · exact hquoted (newline_notMem_repr t) (hall t)
      · exact hquoted (newline_notMem_ascii t) (hall t)
  exact (spec.count_apply s _).trans (Nat.add_le_add_right hnewline _)

end Varies

end Fraisier.Lib.StrFormat
