import Mathlib.Data.List.Chain
import Fraisier.Lib.Json

/-!
# What is written is read back

`loads_dumps`: `json.loads` reads back what `json.dumps` wrote, with a newline after it, if the value
is `Plain`: its integers are no longer than `int` takes, its floats are as `float.__repr__` writes
them, it has no key twice, and no string in which a high surrogate stands before a low one. Two such
surrogates are written as the character that they stand for would be.

The proof follows the passes of the reader. `lex_dumps` gives the tokens of the text, from what one
character, one string and one number are cut into; `run_tokens` gives the value of the tokens.
-/

namespace Fraisier.Lib.Json

open Unicode

/-! ## Plain values -/

/-- No high surrogate stands before a low one. -/
def Apart (s : Text) : Prop := s.IsChain fun a b => ¬(isHigh a.val = true ∧ isLow b.val = true)

/-- A character of Lean is no surrogate. -/
theorem isHigh_text {s : String} {c : CodePoint} (hc : c ∈ text s) : isHigh c.val = false := by
  obtain ⟨x, -, rfl⟩ := List.mem_map.mp hc
  have hvalid := x.valid
  have hnat : x.toNat = x.val.toNat := rfl
  simp only [UInt32.isValidChar, Nat.isValidChar] at hvalid
  simp only [chr_val, isHigh, Bool.and_eq_false_iff, decide_eq_false_iff_not]
  omega

/-- A text that ends without a high surrogate keeps the next one's surrogates apart. -/
theorem Apart.append {s t : Text} (hs : ∀ c ∈ s, isHigh c.val = false) (ht : Apart t) :
    Apart (s ++ t) := by
  induction s with
  | nil => exact ht
  | cons c s ih =>
    rw [List.forall_mem_cons] at hs
    have htail := ih hs.2
    cases hst : s ++ t with
    | nil => rw [List.cons_append, hst]; exact List.isChain_singleton _
    | cons d r =>
      rw [hst] at htail
      rw [List.cons_append, hst]
      refine List.isChain_cons_cons.mpr ⟨fun h => ?_, htail⟩
      rw [hs.1] at h
      exact Bool.false_ne_true h.1

/-- A text without surrogates. -/
theorem apart_text (s : String) : Apart (text s) := by
  have happart : Apart (text s ++ []) := .append (fun _ => isHigh_text) List.isChain_nil
  rwa [List.append_nil] at happart

/-- Digits of a fraction or an exponent. -/
def Digits (ds : Text) : Prop := ds ≠ [] ∧ ∀ c ∈ ds, isDigit c = true

/-- A fraction that is written, or none. -/
def FractionText (s : Text) : Prop := s = [] ∨ ∃ ds, Digits ds ∧ s = chr '.' :: ds

/-- An exponent that is written, or none. -/
def ExponentText (s : Text) : Prop :=
  s = [] ∨ ∃ sign ds, Digits ds ∧ sign ∈ [[], [chr '+'], [chr '-']] ∧ s = chr 'e' :: (sign ++ ds)

/-- What `float.__repr__` gives, or the word for a float that is no number. -/
inductive FloatText : Text → Prop
  | nan : FloatText (text "NaN")
  | infinity : FloatText (text "Infinity")
  | negInfinity : FloatText (text "-Infinity")
  | finite (negative : Bool) (n : ℕ) {frac exp : Text} (hfrac : FractionText frac)
      (hexp : ExponentText exp) (hne : frac ++ exp ≠ []) :
      FloatText ((if negative then text "-" else []) ++ decimal n ++ frac ++ exp)

mutual

/-- A value that is read back as it was. -/
def Plain : Json → Prop
  | .null | .bool _ => True
  | .int n => digits n ≤ maxStrDigits
  | .float literal => FloatText literal
  | .str s => Apart s
  | .arr items => PlainItems items
  | .obj members => (members.map Prod.fst).Nodup ∧ PlainMembers members

def PlainItems : List Json → Prop
  | [] => True
  | v :: items => Plain v ∧ PlainItems items

def PlainMembers : List (Text × Json) → Prop
  | [] => True
  | (key, v) :: members => Apart key ∧ Plain v ∧ PlainMembers members

end

/-- Items that are plain one by one are plain. -/
theorem plainItems {items : List Json} (h : ∀ v ∈ items, Plain v) : PlainItems items := by
  induction items with
  | nil => trivial
  | cons v items ih => exact ⟨h v List.mem_cons_self, ih fun w hw => h w (List.mem_cons_of_mem v hw)⟩

/-- Items are no deeper than the deepest. -/
theorem depthItems_le {n : ℕ} {items : List Json} (h : ∀ v ∈ items, depth v ≤ n) :
    depthItems items ≤ n := by
  induction items with
  | nil => exact Nat.zero_le n
  | cons v items ih =>
    exact Nat.max_le.mpr ⟨h v List.mem_cons_self, ih fun w hw => h w (List.mem_cons_of_mem v hw)⟩

mutual

/-- The tokens that a value is written in. -/
def tokens : Json → List Token
  | .null => [.null]
  | .bool b => [.bool b]
  | .int n => [.int n]
  | .float literal => [.float literal]
  | .str s => [.str s]
  | .arr [] => [.lbracket, .rbracket]
  | .arr (v :: items) => .lbracket :: (tokens v ++ tokensItems items)
  | .obj [] => [.lbrace, .rbrace]
  | .obj ((key, v) :: members) => .lbrace :: .str key :: .colon :: (tokens v ++ tokensMembers members)

def tokensItems : List Json → List Token
  | [] => [.rbracket]
  | v :: items => .comma :: (tokens v ++ tokensItems items)

def tokensMembers : List (Text × Json) → List Token
  | [] => [.rbrace]
  | (key, v) :: members => .comma :: .str key :: .colon :: (tokens v ++ tokensMembers members)

end

/-! ## Strings -/

variable {c d : CodePoint} {s t rest ys : Text}

/-- The rest of a string after some characters is read as if it began there. -/
theorem string_skip (ys rest : Text) :
    string ys.length (ys ++ rest) = (string 0 rest).map fun (s, n) => (s, n + ys.length) := by
  induction ys with
  | nil => simp
  | cons y ys ih =>
    rw [List.length_cons, List.cons_append, string, ih, Option.map_map]
    rfl

/-- An escape, and what comes after it. -/
theorem string_escape {n : ℕ} (he : escape (ys ++ rest) = some (d, ys.length))
    (hs : string 0 rest = some (s, n)) :
    string 0 (chr '\\' :: (ys ++ rest)) = some (d :: s, ys.length + n + 1) := by
  have hquote : is '"' (chr '\\') = false := rfl
  have hbackslash : is '\\' (chr '\\') = true := rfl
  rw [string, hquote, hbackslash, he]
  simp only [Bool.false_eq_true, if_false, if_true, Option.bind_eq_bind, Option.bind_some,
    string_skip, hs, Option.map_some]
  rw [Nat.add_comm n]
  rfl

/-- A hexadecimal digit is read back. -/
theorem hexDigit_hexChar {k : ℕ} (h : k < 16) : hexDigit (hexChar k) = some k := by
  have hall : ∀ k < 16, hexDigit (hexChar k) = some k := by decide
  exact hall k h

/-- The digits of an escape. -/
theorem hex4_unicodeEscape (rest : Text) {n : ℕ} (h : n < 0x10000) :
    hex4 ((unicodeEscape n).drop 2 ++ rest) = some n := by
  simp only [unicodeEscape, List.drop_succ_cons, List.drop_zero, List.cons_append, hex4,
    hexDigit_hexChar (show n / 0x1000 < 16 by omega),
    hexDigit_hexChar (show n / 0x100 % 0x10 < 16 by omega),
    hexDigit_hexChar (show n / 0x10 % 0x10 < 16 by omega),
    hexDigit_hexChar (show n % 0x10 < 16 by omega), Option.bind_eq_bind, Option.bind_some]
  congr 1
  omega

/-- The ways in which a code point is written. -/
inductive Written (c : CodePoint) : Text → Prop
  | plain (hquote : is '"' c = false) (hbackslash : is '\\' c = false) (hascii : 0x20 ≤ c.val)
      (hdel : c.val < 0x7F) : Written c [c]
  | simple (e : CodePoint) (he : simpleEscape e = some c) (hascii : 0x20 ≤ e.val)
      (hdel : e.val < 0x7F) : Written c [chr '\\', e]
  | short (h : c.val < 0x10000) : Written c (unicodeEscape c.val)
  | pair (h : 0x10000 ≤ c.val) :
      Written c (unicodeEscape (0xD800 + (c.val - 0x10000) / 0x400) ++
        unicodeEscape (0xDC00 + (c.val - 0x10000) % 0x400))

/-- A code point is that of its number. -/
theorem eq_of_val {n : ℕ} (h : c.val = n) : c = point n := by
  rw [← h, point_self]

/-- Every character is written in one of the ways. -/
theorem written (c : CodePoint) : Written c (writeChar c) := by
  -- The five escapes of one letter are written alike.
  have hsimple : ∀ (e : Char) (x : CodePoint), simpleEscape (chr e) = some x → 0x20 ≤ (chr e).val →
      (chr e).val < 0x7F → c = x → Written c [chr '\\', chr e] := by
    rintro e x he h h' rfl
    exact .simple _ he h h'
  unfold writeChar
  split
  · rename_i h
    exact hsimple '"' (chr '"') rfl (by decide) (by decide) (eq_of_val (beq_iff_eq.mp h))
  split
  · rename_i h
    exact hsimple '\\' (chr '\\') rfl (by decide) (by decide) (eq_of_val (beq_iff_eq.mp h))
  split
  · rename_i h
    exact hsimple 'n' (chr '\n') rfl (by decide) (by decide) (eq_of_val (beq_iff_eq.mp h))
  split
  · rename_i h
    exact hsimple 'r' (chr '\r') rfl (by decide) (by decide) (eq_of_val (beq_iff_eq.mp h))
  split
  · rename_i h
    exact hsimple 't' (chr '\t') rfl (by decide) (by decide) (eq_of_val (beq_iff_eq.mp h))
  split
  · rename_i h
    exact hsimple 'f' (point 0x0C) rfl (by decide) (by decide) (eq_of_val h)
  split
  · rename_i h
    exact hsimple 'b' (point 0x08) rfl (by decide) (by decide) (eq_of_val h)
  split
  · rename_i hquote hbackslash _ _ _ _ _ h
    exact .plain (Bool.not_eq_true _ ▸ hquote) (Bool.not_eq_true _ ▸ hbackslash) h.1 h.2
  -- Everything else is written by its number, in one escape or in two.
  split
  · rename_i h
    exact .short h
  · rename_i h
    exact .pair (Nat.le_of_not_lt h)

/-- What stands after a code point that is no low surrogate is not taken for one. -/
theorem lowEscape_writeChar (h : isLow c.val = false) :
    lowEscape (writeChar c ++ rest) = some none := by
  have hbackslash : is '\\' (chr '\\') = true := rfl
  have hu : is 'u' (chr 'u') = true := rfl
  -- An escape by number is a low surrogate's only if the number is.
  have hescape : ∀ n < 0x10000, isLow n = false → ∀ rest,
      lowEscape (unicodeEscape n ++ rest) = some none := by
    intro n hn hlow rest
    have hdigits := hex4_unicodeEscape rest hn
    rw [unicodeEscape, List.drop_succ_cons, List.drop_succ_cons, List.drop_zero] at hdigits
    rw [unicodeEscape, List.cons_append, List.cons_append, lowEscape, hbackslash, hu, hdigits]
    simp [hlow]
  -- The cases are the ways a character is written.
  have hw := written c
  generalize writeChar c = w at hw
  cases hw with
  | plain hquote hother hascii hdel => cases rest with
    | nil => rfl
    | cons u rest => simp [lowEscape, hother]
  | simple e he hascii hdel =>
    have hnot : is 'u' e = false := by
      by_contra hu
      rw [Bool.not_eq_false] at hu
      rw [eq_of_val (beq_iff_eq.mp hu)] at he
      cases he
    simp [lowEscape, hnot]
  | short hshort => exact hescape _ hshort h _
  | pair hpair =>
    have hlt := c.isLt
    rw [List.append_assoc]
    refine hescape _ (by omega) ?_ _
    simp only [isLow, Bool.and_eq_false_iff, decide_eq_false_iff_not]
    omega

/-- What an escape of a unit is read as. -/
theorem escape_unicodeEscape {n : ℕ} (hn : n < 0x10000)
    (h : isHigh n = true → lowEscape rest = some none) :
    escape ((unicodeEscape n).drop 1 ++ rest) = some (point n, 5) := by
  have hdigits := hex4_unicodeEscape rest hn
  have hnone : simpleEscape (chr 'u') = none := rfl
  have hu : is 'u' (chr 'u') = true := rfl
  rw [unicodeEscape, List.drop_succ_cons, List.drop_succ_cons, List.drop_zero] at hdigits
  rw [unicodeEscape, List.drop_succ_cons, List.drop_zero, List.cons_append, escape, hnone]
  simp only [hu, if_true, hdigits, Option.bind_eq_bind, Option.bind_some]
  by_cases hhigh : isHigh n = true
  · have hlow := h hhigh
    simp [hhigh, hlow]
  · simp [hhigh]

/-- What the escapes of two surrogates are read as. -/
theorem escape_pair (rest : Text) {high low : ℕ} (hhigh : isHigh high = true) (hlow : isLow low = true) :
    escape ((unicodeEscape high).drop 1 ++ (unicodeEscape low ++ rest)) =
      some (point (joined high low), 11) := by
  have hhigh' : high < 0x10000 := by
    simp only [isHigh, Bool.and_eq_true, decide_eq_true_eq] at hhigh
    omega
  have hlow' : low < 0x10000 := by
    simp only [isLow, Bool.and_eq_true, decide_eq_true_eq] at hlow
    omega
  have hnone : simpleEscape (chr 'u') = none := rfl
  have hu : is 'u' (chr 'u') = true := rfl
  have hbackslash : is '\\' (chr '\\') = true := rfl
  -- Four digits are read of each of the two escapes.
  have hdigits := hex4_unicodeEscape (unicodeEscape low ++ rest) hhigh'
  have hdigits' := hex4_unicodeEscape rest hlow'
  -- The second escape is a low surrogate's.
  have hnext : lowEscape (unicodeEscape low ++ rest) = some (some low) := by
    rw [unicodeEscape, List.drop_succ_cons, List.drop_succ_cons, List.drop_zero] at hdigits'
    rw [unicodeEscape, List.cons_append, List.cons_append, lowEscape, hbackslash, hu, hdigits']
    simp [hlow]
  have hdrop : ((unicodeEscape high).drop 2 ++ (unicodeEscape low ++ rest)).drop 4 =
      unicodeEscape low ++ rest := rfl
  have hcons : (unicodeEscape high).drop 1 ++ (unicodeEscape low ++ rest) =
      chr 'u' :: ((unicodeEscape high).drop 2 ++ (unicodeEscape low ++ rest)) := rfl
  rw [hcons, escape, hnone]
  simp only [hu, if_true, hdigits, Option.bind_eq_bind, Option.bind_some, hhigh, hdrop, hnext]
  rfl

/-- The surrogates that stand for a character are joined to it. -/
theorem joined_halves {n : ℕ} (h : 0x10000 ≤ n) :
    joined (0xD800 + (n - 0x10000) / 0x400) (0xDC00 + (n - 0x10000) % 0x400) = n := by
  unfold joined
  omega

/-- An escape begins with a backslash. -/
theorem unicodeEscape_eq (n : ℕ) : unicodeEscape n = chr '\\' :: (unicodeEscape n).drop 1 := rfl

/-- One code point of a string. -/
theorem string_writeChar {n : ℕ} (hs : string 0 rest = some (s, n))
    (h : isHigh c.val = true → lowEscape rest = some none) :
    string 0 (writeChar c ++ rest) = some (c :: s, (writeChar c).length + n) := by
  -- The cases are the ways a character is written.
  have hw := written c
  generalize writeChar c = w at hw
  cases hw with
  | plain hquote hother hascii hdel =>
    have hnot : ¬c.val < 0x20 := by omega
    rw [List.singleton_append, string, hquote, hother, hs]
    simp only [Bool.false_eq_true, if_false, hnot, Option.map_some, List.length_singleton]
    rw [Nat.add_comm]
  | simple e he hascii hdel =>
    have hescape : escape ([e] ++ rest) = some (c, [e].length) := by
      rw [List.singleton_append, escape, he]
      rfl
    have hstring := string_escape hescape hs
    rw [List.length_singleton] at hstring
    rw [List.cons_append, hstring, List.length_cons, List.length_singleton]
    congr 2
    omega
  | short hshort =>
    have hescape := escape_unicodeEscape hshort h
    rw [point_self] at hescape
    have hstring := string_escape hescape hs
    rw [unicodeEscape_eq, List.cons_append, hstring]
    congr 2
    simp only [unicodeEscape, List.drop_succ_cons, List.drop_zero, List.length_cons, List.length_nil]
    omega
  | pair hpair =>
    have hlt := c.isLt
    -- The two halves are surrogates that join to the character.
    have hhigh : isHigh (0xD800 + (c.val - 0x10000) / 0x400) = true := by
      simp only [isHigh, Bool.and_eq_true, decide_eq_true_eq]
      omega
    have hlow : isLow (0xDC00 + (c.val - 0x10000) % 0x400) = true := by
      simp only [isLow, Bool.and_eq_true, decide_eq_true_eq]
      omega
    have hjoined := eq_of_val (joined_halves hpair).symm
    generalize 0xD800 + (c.val - 0x10000) / 0x400 = high at *
    generalize 0xDC00 + (c.val - 0x10000) % 0x400 = low at *
    have hescape := escape_pair rest hhigh hlow
    rw [← hjoined, ← List.append_assoc] at hescape
    have hstring := string_escape hescape hs
    rw [unicodeEscape_eq high, List.cons_append, List.cons_append, hstring, List.length_cons,
      Nat.add_right_comm]

/-- No escape of a low surrogate begins with a quote. -/
theorem lowEscape_quote : lowEscape (chr '"' :: rest) = some none := by
  cases rest with
  | nil => rfl
  | cons u rest => rfl

/-- A string is read to its closing quote. -/
theorem string_flatMap (rest : Text) (h : Apart s) :
    string 0 (s.flatMap writeChar ++ chr '"' :: rest) =
      some (s, (s.flatMap writeChar).length + 1) := by
  -- Induction on the string: an escape may need the one that follows it.
  induction s with
  | nil => rfl
  | cons c s ih =>
    have hs := ih (List.IsChain.tail h)
    rw [List.flatMap_cons, List.append_assoc, string_writeChar hs fun hhigh => ?_,
      List.length_append, Nat.add_assoc]
    cases s with
    | nil => exact lowEscape_quote
    | cons d s =>
      have hlow : isLow d.val = false := by
        rw [← Bool.not_eq_true]
        exact fun hlow => (List.isChain_cons_cons.mp h).1 ⟨hhigh, hlow⟩
      rw [List.flatMap_cons, List.append_assoc]
      exact lowEscape_writeChar hlow

/-! ## Tokens -/

/-- A text is cut into the token at its start and the tokens of the rest. -/
theorem lex_cons {t : Token} (h : token c (ys ++ rest) = (some t, ys.length)) :
    lex (c :: (ys ++ rest)) = t :: lex rest := by
  rw [lex, pieces_cons h, List.reduceOption_cons_of_some]
  rfl

/-- A blank is no token. -/
theorem lex_space : lex (chr ' ' :: rest) = lex rest := by
  have h : token (chr ' ') ([] ++ rest) = (none, List.length ([] : Text)) := rfl
  exact (congrArg List.reduceOption (pieces_cons h)).trans (List.reduceOption_cons_of_none _)

/-- A string and what comes after it. -/
theorem lex_writeString (h : Apart s) : lex (writeString s ++ rest) = .str s :: lex rest := by
  have hstring := string_flatMap rest h
  have htoken : token (chr '"') ((s.flatMap writeChar ++ [chr '"']) ++ rest) =
      (some (.str s), (s.flatMap writeChar ++ [chr '"']).length) := by
    rw [List.append_assoc, List.singleton_append, List.length_append, List.length_singleton]
    unfold token
    rw [if_neg (by decide), if_neg (by decide), if_neg (by decide), if_neg (by decide),
      if_neg (by decide), if_neg (by decide), if_neg (by decide), if_pos (by decide), hstring]
  exact lex_cons htoken

/-- The text does not continue a number. -/
def Stops (rest : Text) : Prop :=
  ∀ c ∈ rest.head?, isDigit c = false ∧ is '.' c = false ∧ is 'e' c = false ∧ is 'E' c = false

/-- A decimal digit of Lean is one of JSON. -/
theorem isDigit_chr {x : Char} (h : x.isDigit = true) : isDigit (chr x) = true := by
  simp only [Char.isDigit, Bool.and_eq_true, decide_eq_true_eq, UInt32.le_iff_toNat_le] at h
  simp only [isDigit, chr_val, Bool.and_eq_true, decide_eq_true_eq]
  exact h

/-- A number is written in digits. -/
theorem isDigit_decimal {n : ℕ} : ∀ c ∈ decimal n, isDigit c = true := by
  intro c hc
  obtain ⟨x, hx, rfl⟩ := List.mem_map.mp hc
  exact isDigit_chr (Nat.isDigit_of_mem_toDigits (by decide) (by decide) hx)

/-- A number is read back from its digits. -/
theorem natOf_decimal (n : ℕ) : natOf (decimal n) = n := by
  have h := Nat.ofDigitChars_ten_toDigits (n := n)
  rw [Nat.ofDigitChars_eq_foldl] at h
  simpa only [natOf, decimal, List.foldl_map, chr_val] using h

/-- A number below ten is one digit. -/
theorem decimal_of_lt {n : ℕ} (h : n < 10) : decimal n = [chr (Nat.digitChar n)] := by
  rw [decimal, Nat.toDigits_of_lt_base h]
  rfl

/-- A larger number ends with the digit of its remainder. -/
theorem decimal_of_le {n : ℕ} (h : 10 ≤ n) :
    decimal n = decimal (n / 10) ++ [chr (Nat.digitChar (n % 10))] := by
  rw [decimal, Nat.toDigits_of_base_le (by decide) h, List.map_append]
  rfl

/-- A number of more than one digit does not begin with a zero. -/
theorem decimal_cons (n : ℕ) : ∃ c cs, decimal n = c :: cs ∧ (is '0' c = true → cs = []) ∧
    (0 < n → is '0' c = false) := by
  induction n using Nat.strongRecOn with
  | ind n ih =>
    by_cases h : n < 10
    · have hzero : ∀ k < 10, 0 < k → is '0' (chr (Nat.digitChar k)) = false := by decide
      exact ⟨_, _, decimal_of_lt h, fun _ => rfl, hzero n h⟩
    · have hle : 10 ≤ n := Nat.le_of_not_lt h
      obtain ⟨c, cs, hcs, -, hpos⟩ := ih (n / 10) (by omega)
      have hc := hpos (by omega)
      rw [decimal_of_le hle, hcs]
      exact ⟨c, _, rfl, fun h => absurd h (by simp [hc]), fun _ => hc⟩

/-- The text does not begin with a digit. -/
def NoDigit (rest : Text) : Prop := ∀ c ∈ rest.head?, isDigit c = false

/-- The digits of a number end where something else begins. -/
theorem takeWhile_digits {ds : Text} (hds : ∀ c ∈ ds, isDigit c = true) (h : NoDigit rest) :
    (ds ++ rest).takeWhile isDigit = ds := by
  rw [List.takeWhile_append_of_pos hds]
  cases rest with
  | nil => simp
  | cons c rest =>
    have hc := h c rfl
    simp [hc]

/-- What stops a number is no digit. -/
theorem Stops.noDigit (h : Stops rest) : NoDigit rest := fun c hc => (h c hc).1

/-- The digits of a number are those that are read. -/
theorem intDigits_decimal {n : ℕ} (h : NoDigit rest) : intDigits (decimal n ++ rest) = decimal n := by
  obtain ⟨c, cs, hcs, hzero, -⟩ := decimal_cons n
  have htake : (decimal n ++ rest).takeWhile isDigit = decimal n :=
    takeWhile_digits isDigit_decimal h
  rw [hcs, List.cons_append, intDigits]
  split
  · rename_i h0
    rw [hzero h0]
  · rw [← List.cons_append, ← hcs, htake]

/-- A number without a sign is read as one token. -/
theorem unsigned_decimal (n : ℕ) (negative : Bool) (hn : (decimal n).length ≤ maxStrDigits)
    (h : Stops rest) : unsigned negative (decimal n ++ rest) =
      some (.int (if negative then -(n : ℤ) else n), (decimal n).length) := by
  have hne : decimal n ≠ [] := by
    obtain ⟨c, cs, hcs, -⟩ := decimal_cons n
    simp [hcs]
  have hfraction : fraction rest = [] := by
    cases rest with
    | nil => rfl
    | cons c rest => simp [fraction, (h c rfl).2.1]
  have hexponent : exponent rest = [] := by
    cases rest with
    | nil => rfl
    | cons c rest => simp [exponent, (h c rfl).2.2.1, (h c rfl).2.2.2]
  simp [unsigned, intDigits_decimal h.noDigit, hne, hfraction, hexponent, hn, natOf_decimal]

/-- Code points of different numbers are different characters. -/
theorem is_eq_false {x : Char} (h : c.val ≠ x.toNat) : is x c = false := by
  simpa [is] using h

/-- A digit begins the token of a number. -/
theorem token_digit (h : isDigit c = true) (cs : Text) :
    token c cs = match unsigned false (c :: cs) with
      | some (t, n) => (some t, n - 1)
      | none => (some .bad, 0) := by
  have hval : 48 ≤ c.val ∧ c.val ≤ 57 := by simpa [isDigit] using h
  -- A digit is none of the characters that begin another token.
  have hnot : ∀ x : Char, (x.toNat < 48 ∨ 57 < x.toNat) → is x c = false := by
    intro x hx
    exact is_eq_false (by omega)
  have hspace : isSpace c = false := by
    simp [isSpace, hnot ' ' (by decide), hnot '\t' (by decide), hnot '\n' (by decide),
      hnot '\r' (by decide)]
  rw [token, hspace, hnot '\x7b' (by decide), hnot '\x7d' (by decide), hnot '[' (by decide),
    hnot ']' (by decide), hnot ',' (by decide), hnot ':' (by decide), hnot '"' (by decide),
    hnot 'n' (by decide), hnot 't' (by decide), hnot 'f' (by decide), hnot 'N' (by decide),
    hnot 'I' (by decide), hnot '-' (by decide)]
  rfl

/-- An integer and what comes after it. -/
theorem lex_writeInt {n : ℤ} (hn : digits n ≤ maxStrDigits) (h : Stops rest) :
    lex (writeInt n ++ rest) = .int n :: lex rest := by
  -- A negative number has its sign before the digits.
  cases n with
  | ofNat n =>
    obtain ⟨c, cs, hcs, -⟩ := decimal_cons n
    have hunsigned := unsigned_decimal n false hn h
    have hdigit : isDigit c = true := isDigit_decimal c (hcs ▸ List.mem_cons_self)
    rw [writeInt, hcs, List.cons_append]
    rw [hcs, List.cons_append] at hunsigned
    refine lex_cons ?_
    rw [token_digit hdigit, hunsigned]
    rfl
  | negSucc n =>
    have hunsigned := unsigned_decimal (n + 1) true hn h
    refine lex_cons ?_
    show (match unsigned true (decimal (n + 1) ++ rest) with
      | some (t, n) => (some t, n)
      | none => word "Infinity" (.float (text "-Infinity")) (decimal (n + 1) ++ rest)) = _
    rw [hunsigned]
    rfl

/-! ## Floats -/

/-- A fraction is read up to what does not continue it. -/
theorem fraction_append {frac : Text} (hfrac : FractionText frac) (hdigit : NoDigit rest)
    (hdot : ∀ c ∈ rest.head?, is '.' c = false) : fraction (frac ++ rest) = frac := by
  rcases hfrac with rfl | ⟨ds, ⟨hne, hds⟩, rfl⟩
  · cases rest with
    | nil => rfl
    | cons c rest => simp [fraction, hdot c rfl]
  · have hchr : is '.' (chr '.') = true := rfl
    rw [List.cons_append, fraction, takeWhile_digits hds hdigit, hchr]
    simp [hne]

/-- An exponent is read up to what does not continue it. -/
theorem exponent_append {exp : Text} (hexp : ExponentText exp) (h : Stops rest) :
    exponent (exp ++ rest) = exp := by
  -- There is no exponent, or one with a sign and digits.
  rcases hexp with rfl | ⟨sign, ds, ⟨hne, hds⟩, hsign, rfl⟩
  · cases rest with
    | nil => rfl
    | cons c rest => simp [exponent, (h c rfl).2.2.1, (h c rfl).2.2.2]
  · obtain ⟨d, ds', rfl⟩ := List.exists_cons_of_ne_nil hne
    have hval : 48 ≤ d.val ∧ d.val ≤ 57 := by simpa [isDigit] using hds d List.mem_cons_self
    have hd : (is '+' d || is '-' d) = false := by
      rw [is_eq_false (by change d.val ≠ 43; omega), is_eq_false (by change d.val ≠ 45; omega)]
      rfl
    -- The sign is as much as is taken, since a digit follows it.
    have htake : (sign ++ (d :: ds' ++ rest)).takeWhile (fun c => is '+' c || is '-' c) = sign := by
      have hall : ∀ c ∈ sign, (is '+' c || is '-' c) = true := by
        revert hsign
        generalize sign = s
        intro hsign c hc
        simp only [List.mem_cons, List.not_mem_nil, or_false] at hsign
        rcases hsign with rfl | rfl | rfl
        · cases hc
        · rw [List.mem_singleton.mp hc]; rfl
        · rw [List.mem_singleton.mp hc]; rfl
      rw [List.takeWhile_append_of_pos hall]
      simp [hd]
    have hlength : sign.length ≤ 1 := by
      simp only [List.mem_cons, List.not_mem_nil, or_false] at hsign
      rcases hsign with rfl | rfl | rfl <;> simp
    have he : (is 'e' (chr 'e') || is 'E' (chr 'e')) = true := rfl
    rw [List.cons_append, List.append_assoc, exponent, he, htake]
    simp only [if_true, List.drop_left, takeWhile_digits hds h.noDigit]
    rw [if_pos ⟨hlength, hne⟩, List.cons_append]

/-- An exponent begins with no digit and no point. -/
theorem ExponentText.head {exp : Text} (hexp : ExponentText exp) (h : Stops rest) :
    ∀ c ∈ (exp ++ rest).head?, isDigit c = false ∧ is '.' c = false := by
  rcases hexp with rfl | ⟨sign, ds, -, -, rfl⟩
  · exact fun c hc => ⟨(h c hc).1, (h c hc).2.1⟩
  · intro c hc
    obtain rfl := Option.some.inj hc
    exact ⟨rfl, rfl⟩

/-- A fraction begins with no digit. -/
theorem FractionText.noDigit {frac exp : Text} (hfrac : FractionText frac) (hexp : ExponentText exp)
    (h : Stops rest) : NoDigit (frac ++ (exp ++ rest)) := by
  rcases hfrac with rfl | ⟨ds, -, rfl⟩
  · exact fun c hc => (hexp.head h c hc).1
  · intro c hc
    obtain rfl := Option.some.inj hc
    rfl

/-- A finite float without its sign, and what comes after it. -/
theorem unsigned_float (negative : Bool) (n : ℕ) {frac exp : Text} (hfrac : FractionText frac)
    (hexp : ExponentText exp) (hne : frac ++ exp ≠ []) (h : Stops rest) :
    unsigned negative (decimal n ++ (frac ++ (exp ++ rest))) =
      some (.float ((if negative then text "-" else []) ++ decimal n ++ frac ++ exp),
        (decimal n).length + frac.length + exp.length) := by
  have hdecimal : decimal n ≠ [] := by
    obtain ⟨c, cs, hcs, -⟩ := decimal_cons n
    simp [hcs]
  have hfraction := fraction_append hfrac (fun c hc => (hexp.head h c hc).1)
    fun c hc => (hexp.head h c hc).2
  simp only [unsigned, intDigits_decimal (hfrac.noDigit hexp h), hdecimal, if_false,
    List.drop_left, hfraction, exponent_append hexp h, hne]

/-- A float and what comes after it. -/
theorem lex_floatText {literal : Text} (hliteral : FloatText literal) (h : Stops rest) :
    lex (literal ++ rest) = .float literal :: lex rest := by
  -- The three words and the literals.
  cases hliteral with
  | nan =>
    have hlex : lex (chr 'N' :: (text "aN" ++ rest)) = .float (text "NaN") :: lex rest := lex_cons rfl
    exact hlex
  | infinity =>
    have hlex : lex (chr 'I' :: (text "nfinity" ++ rest)) = .float (text "Infinity") :: lex rest :=
      lex_cons rfl
    exact hlex
  | negInfinity =>
    have hlex : lex (chr '-' :: (text "Infinity" ++ rest)) = .float (text "-Infinity") :: lex rest :=
      lex_cons rfl
    exact hlex
  | finite negative n hfrac hexp hne =>
    rename_i frac exp
    have hunsigned := unsigned_float negative n hfrac hexp hne h
    cases negative with
    | true =>
      have htoken : token (chr '-') ((decimal n ++ (frac ++ exp)) ++ rest) =
          (some (.float (text "-" ++ decimal n ++ frac ++ exp)),
            (decimal n ++ (frac ++ exp)).length) := by
        show (match unsigned true ((decimal n ++ (frac ++ exp)) ++ rest) with
          | some (t, n) => (some t, n)
          | none => word "Infinity" (.float (text "-Infinity")) _) = _
        rw [List.append_assoc, List.append_assoc, hunsigned]
        simp [Nat.add_assoc]
      have hlex := lex_cons htoken
      simpa [text] using hlex
    | false =>
      obtain ⟨c, cs, hcs, -⟩ := decimal_cons n
      have hdigit : isDigit c = true := isDigit_decimal c (hcs ▸ List.mem_cons_self)
      have htoken : token c ((cs ++ (frac ++ exp)) ++ rest) =
          (some (.float (decimal n ++ frac ++ exp)), (cs ++ (frac ++ exp)).length) := by
        rw [token_digit hdigit, ← List.cons_append, ← List.cons_append, ← hcs, List.append_assoc,
          List.append_assoc, hunsigned]
        simp [hcs]
        omega
      have hlex := lex_cons htoken
      simpa [hcs] using hlex

/-! ## The tokens of what is written -/

/-- A character that goes on with no number stops one. -/
theorem stops_cons (h : isDigit c = false ∧ is '.' c = false ∧ is 'e' c = false ∧ is 'E' c = false) :
    Stops (c :: rest) := by
  intro d hd
  cases Option.some.inj hd
  exact h

/-- What comes after an item stops a number. -/
theorem stops_dumpsItems (items : List Json) (rest : Text) :
    Stops (dumpsItems items ++ rest) := by
  cases items with
  | nil => exact stops_cons ⟨rfl, rfl, rfl, rfl⟩
  | cons v items => exact stops_cons ⟨rfl, rfl, rfl, rfl⟩

/-- What comes after a member stops a number. -/
theorem stops_dumpsMembers (members : List (Text × Json)) (rest : Text) :
    Stops (dumpsMembers members ++ rest) := by
  cases members with
  | nil => exact stops_cons ⟨rfl, rfl, rfl, rfl⟩
  | cons member members => exact stops_cons ⟨rfl, rfl, rfl, rfl⟩

/-- The comma between items is one token. -/
theorem lex_comma (rest : Text) : lex (text ", " ++ rest) = .comma :: lex rest := by
  have h : lex (chr ',' :: ([] ++ chr ' ' :: rest)) = .comma :: lex (chr ' ' :: rest) := lex_cons rfl
  rw [lex_space] at h
  exact h

/-- The colon after a key is one token. -/
theorem lex_colon : lex (text ": " ++ rest) = .colon :: lex rest := by
  have h : lex (chr ':' :: ([] ++ chr ' ' :: rest)) = .colon :: lex (chr ' ' :: rest) := lex_cons rfl
  rw [lex_space] at h
  exact h

mutual

/-- The tokens of a value that is written before something that does not continue it. -/
theorem lex_dumps : ∀ (v : Json) (rest : Text), Plain v → Stops rest →
    lex (dumps v ++ rest) = tokens v ++ lex rest
  -- Structural recursion, with what follows the value as a parameter.
  | .null, rest, _, _ => by
    have h : lex (chr 'n' :: (text "ull" ++ rest)) = .null :: lex rest := lex_cons rfl
    exact h
  | .bool true, rest, _, _ => by
    have h : lex (chr 't' :: (text "rue" ++ rest)) = .bool true :: lex rest := lex_cons rfl
    exact h
  | .bool false, rest, _, _ => by
    have h : lex (chr 'f' :: (text "alse" ++ rest)) = .bool false :: lex rest := lex_cons rfl
    exact h
  | .int n, rest, hv, hstops => lex_writeInt hv hstops
  | .float literal, rest, hv, hstops => lex_floatText hv hstops
  | .str s, rest, hv, _ => lex_writeString hv
  | .arr [], rest, _, _ => by
    have h : lex (chr '[' :: ([] ++ (chr ']' :: ([] ++ rest)))) = .lbracket :: .rbracket :: lex rest :=
      (lex_cons rfl).trans (congrArg _ (lex_cons rfl))
    exact h
  | .arr (v :: items), rest, hv, _ => by
    have h : lex (chr '[' :: ([] ++ (dumps v ++ (dumpsItems items ++ rest)))) =
        .lbracket :: lex (dumps v ++ (dumpsItems items ++ rest)) := lex_cons rfl
    rw [lex_dumps v _ hv.1 (stops_dumpsItems items rest), lex_dumpsItems items rest hv.2] at h
    simpa only [dumps, tokens, List.cons_append, List.append_assoc, List.nil_append] using h
  | .obj [], rest, _, _ => by
    have h : lex (chr '\x7b' :: ([] ++ (chr '\x7d' :: ([] ++ rest)))) =
        .lbrace :: .rbrace :: lex rest :=
      (lex_cons rfl).trans (congrArg _ (lex_cons rfl))
    exact h
  | .obj ((key, v) :: members), rest, hv, _ => by
    have hmembers := hv.2
    have h : lex (chr '\x7b' :: ([] ++ (writeString key ++ (text ": " ++ (dumps v ++
        (dumpsMembers members ++ rest)))))) = .lbrace :: lex (writeString key ++ (text ": " ++
          (dumps v ++ (dumpsMembers members ++ rest)))) := lex_cons rfl
    rw [lex_writeString hmembers.1, lex_colon,
      lex_dumps v _ hmembers.2.1 (stops_dumpsMembers members rest),
      lex_dumpsMembers members rest hmembers.2.2] at h
    simpa only [dumps, tokens, List.cons_append, List.append_assoc, List.nil_append] using h

/-- The items that are written are cut into their tokens. -/
theorem lex_dumpsItems : ∀ (items : List Json) (rest : Text), PlainItems items →
    lex (dumpsItems items ++ rest) = tokensItems items ++ lex rest
  | [], rest, _ => by
    have h : lex (chr ']' :: ([] ++ rest)) = .rbracket :: lex rest := lex_cons rfl
    exact h
  | v :: items, rest, hv => by
    have h := lex_comma (dumps v ++ (dumpsItems items ++ rest))
    rw [lex_dumps v _ hv.1 (stops_dumpsItems items rest), lex_dumpsItems items rest hv.2] at h
    simpa only [dumpsItems, tokensItems, List.cons_append, List.append_assoc] using h

/-- The members that are written are cut into their tokens. -/
theorem lex_dumpsMembers : ∀ (members : List (Text × Json)) (rest : Text), PlainMembers members →
    lex (dumpsMembers members ++ rest) = tokensMembers members ++ lex rest
  | [], rest, _ => by
    have h : lex (chr '\x7d' :: ([] ++ rest)) = .rbrace :: lex rest := lex_cons rfl
    exact h
  | (key, v) :: members, rest, hv => by
    have h := lex_comma (writeString key ++ (text ": " ++ (dumps v ++
      (dumpsMembers members ++ rest))))
    rw [lex_writeString hv.1, lex_colon, lex_dumps v _ hv.2.1 (stops_dumpsMembers members rest),
      lex_dumpsMembers members rest hv.2.2] at h
    simpa only [dumpsMembers, tokensMembers, List.cons_append, List.append_assoc] using h

end

/-! ## The value of the tokens -/

variable {maxDepth : ℕ}

/-- The machine takes one token, and then the others. -/
theorem run_cons {σ σ' : State} {t : Token} {ts : List Token} (h : step maxDepth σ t = .ok σ') :
    run maxDepth σ (t :: ts) = run maxDepth σ' ts := by
  rw [run, h]

/-- A bracket opens an array, if the stack has room for it. -/
theorem run_lbracket {open_ : List Frame} (h : open_.length < maxDepth) (ts : List Token) :
    run maxDepth (.value open_) (.lbracket :: ts) = run maxDepth (.firstItem open_) ts :=
  run_cons (if_pos h)

/-- A brace opens an object, if the stack has room for it. -/
theorem run_lbrace {open_ : List Frame} (h : open_.length < maxDepth) (ts : List Token) :
    run maxDepth (.value open_) (.lbrace :: ts) = run maxDepth (.firstKey open_) ts :=
  run_cons (if_pos h)

/-- A new key is put at the end. -/
theorem insert_append {key : Text} {v : Json} {members : List (Text × Json)}
    (h : key ∉ members.map Prod.fst) : insert key v members = members ++ [(key, v)] := by
  induction members with
  | nil => rfl
  | cons member members ih =>
    rw [List.map_cons, List.mem_cons, not_or] at h
    rw [insert, if_neg (Ne.symm h.1), ih h.2, List.cons_append]

/-- The first item of an array does not begin with the end of an array. -/
theorem run_firstItem (v : Json) (open_ : List Frame) (ts : List Token) :
    run maxDepth (.firstItem open_) (tokens v ++ ts) =
      run maxDepth (.value (.arr [] :: open_)) (tokens v ++ ts) := by
  cases v with
  | arr items => cases items <;> rfl
  | obj members => cases members <;> rfl
  | _ => rfl

mutual

/-- The machine reads the value of the tokens, in the containers that are open. -/
theorem run_tokens : ∀ (v : Json) (open_ : List Frame) (ts : List Token), Plain v →
    open_.length + depth v ≤ maxDepth →
    -- Structural recursion, with the containers that are open as a parameter.
    run maxDepth (.value open_) (tokens v ++ ts) = run maxDepth (complete v open_) ts
  | .null, _, _, _, _ => rfl
  | .bool _, _, _, _, _ => rfl
  | .int _, _, _, _, _ => rfl
  | .float _, _, _, _, _ => rfl
  | .str _, _, _, _, _ => rfl
  | .arr [], open_, ts, _, hdepth => by
    rw [depth, depthItems] at hdepth
    exact (run_lbracket (by omega) _).trans (run_cons rfl)
  | .arr (v :: items), open_, ts, hv, hdepth => by
    simp only [depth, depthItems] at hdepth
    -- The first item lies one container deeper.
    have hfirst : (Frame.arr [] :: open_).length + depth v ≤ maxDepth := by
      rw [List.length_cons]
      omega
    rw [tokens, List.cons_append, List.append_assoc, run_lbracket (by omega), run_firstItem,
      run_tokens v _ _ hv.1 hfirst]
    exact run_tokensItems items [v] open_ ts hv.2 (by omega)
  | .obj [], open_, ts, _, hdepth => by
    rw [depth, depthMembers] at hdepth
    exact (run_lbrace (by omega) _).trans (run_cons rfl)
  | .obj ((key, v) :: members), open_, ts, hv, hdepth => by
    simp only [depth, depthMembers] at hdepth
    have hmembers := hv.2
    -- The first member lies one container deeper.
    have hfirst : (Frame.obj [] key :: open_).length + depth v ≤ maxDepth := by
      rw [List.length_cons]
      omega
    rw [tokens, List.cons_append, List.cons_append, List.cons_append, List.append_assoc,
      run_lbrace (by omega), run_cons rfl, run_cons rfl, run_tokens v _ _ hmembers.2.1 hfirst]
    exact run_tokensMembers members [(key, v)] open_ ts hv.1 hmembers.2.2 (by omega)

/-- The machine reads the items of an array, after those that it has. -/
theorem run_tokensItems : ∀ (items done : List Json) (open_ : List Frame) (ts : List Token),
    PlainItems items → open_.length + depthItems items + 1 ≤ maxDepth →
    run maxDepth (.item done open_) (tokensItems items ++ ts) =
      run maxDepth (complete (.arr (done ++ items)) open_) ts
  | [], done, open_, ts, _, _ => by
    rw [List.append_nil]
    exact run_cons rfl
  -- An item is read as a value inside the array, and is then added to it.
  | v :: items, done, open_, ts, hv, hdepth => by
    simp only [depthItems] at hdepth
    have hnext : (Frame.arr done :: open_).length + depth v ≤ maxDepth := by
      rw [List.length_cons]
      omega
    have hitems := run_tokensItems items (done ++ [v]) open_ ts hv.2 (by omega)
    rw [List.append_assoc, List.singleton_append] at hitems
    rw [tokensItems, List.cons_append, List.append_assoc, run_cons rfl, run_tokens v _ _ hv.1 hnext]
    exact hitems

/-- The machine reads the members of an object, after those that it has. -/
theorem run_tokensMembers : ∀ (members done : List (Text × Json)) (open_ : List Frame)
    (ts : List Token), ((done ++ members).map Prod.fst).Nodup → PlainMembers members →
    open_.length + depthMembers members + 1 ≤ maxDepth →
    run maxDepth (.member done open_) (tokensMembers members ++ ts) =
      run maxDepth (complete (.obj (done ++ members)) open_) ts
  | [], done, open_, ts, _, _, _ => by
    rw [List.append_nil]
    exact run_cons rfl
  | (key, v) :: members, done, open_, ts, hkeys, hv, hdepth => by
    simp only [depthMembers] at hdepth
    have hnext : (Frame.obj done key :: open_).length + depth v ≤ maxDepth := by
      rw [List.length_cons]
      omega
    -- The keys so far are others, so the member is added at the end.
    have hnew : key ∉ done.map Prod.fst := by
      rw [List.map_append, List.map_cons, List.nodup_append] at hkeys
      exact fun hmem => hkeys.2.2 key hmem key List.mem_cons_self rfl
    rw [← List.singleton_append, ← List.append_assoc] at hkeys
    have hmembers := run_tokensMembers members (done ++ [(key, v)]) open_ ts hkeys hv.2.2 (by omega)
    rw [List.append_assoc, List.singleton_append] at hmembers
    rw [tokensMembers, List.cons_append, List.cons_append, List.cons_append, List.append_assoc,
      run_cons rfl, run_cons rfl, run_cons rfl, run_tokens v _ _ hv.2.1 hnext, complete,
      insert_append hnew]
    exact hmembers

end

/-! ## The bytes -/

/-- Printable ASCII characters. -/
def Printable (s : Text) : Prop := ∀ c ∈ s, 0x20 ≤ c.val ∧ c.val < 0x7F

/-- Two printable texts make one. -/
theorem Printable.append (hs : Printable s) (ht : Printable t) : Printable (s ++ t) :=
  List.forall_mem_append.mpr ⟨hs, ht⟩

/-- A printable character before a printable text makes one. -/
theorem Printable.cons (hc : 0x20 ≤ c.val ∧ c.val < 0x7F) (hs : Printable s) : Printable (c :: s) :=
  List.forall_mem_cons.mpr ⟨hc, hs⟩

/-- The empty text is printable. -/
theorem printable_nil : Printable [] := nofun

/-- An escape is printable. -/
theorem printable_unicodeEscape {n : ℕ} (h : n < 0x10000) : Printable (unicodeEscape n) := by
  have hhex : ∀ k < 16, 0x20 ≤ (hexChar k).val ∧ (hexChar k).val < 0x7F := by decide
  exact .cons (by decide) (.cons (by decide) (.cons (hhex _ (by omega)) (.cons (hhex _ (by omega))
    (.cons (hhex _ (by omega)) (.cons (hhex _ (by omega)) printable_nil)))))

/-- A character is written in printable ones. -/
theorem printable_writeChar (c : CodePoint) : Printable (writeChar c) := by
  have hw := written c
  generalize writeChar c = w at hw
  cases hw with
  | plain hquote hother hascii hdel => exact .cons ⟨hascii, hdel⟩ printable_nil
  | simple e he hascii hdel => exact .cons (by decide) (.cons ⟨hascii, hdel⟩ printable_nil)
  | short hshort => exact printable_unicodeEscape hshort
  | pair hpair =>
    have hlt := c.isLt
    exact (printable_unicodeEscape (by omega)).append (printable_unicodeEscape (by omega))

/-- A string is written in printable characters. -/
theorem printable_writeString (s : Text) : Printable (writeString s) := by
  refine .append (.cons (by decide) fun c hc => ?_) (.cons (by decide) printable_nil)
  obtain ⟨d, -, hd⟩ := List.mem_flatMap.mp hc
  exact printable_writeChar d c hd

/-- Digits are printable. -/
theorem printable_decimal (n : ℕ) : Printable (decimal n) := by
  intro c hc
  have h : 48 ≤ c.val ∧ c.val ≤ 57 := by simpa [isDigit] using isDigit_decimal c hc
  omega

/-- An integer is written in printable characters. -/
theorem printable_writeInt (n : ℤ) : Printable (writeInt n) := by
  cases n with
  | ofNat n => exact printable_decimal n
  | negSucc n => exact .cons (by decide) (printable_decimal (n + 1))

/-- A literal of printable characters is printable. -/
theorem printable_text {s : String} (h : (text s).all fun c => 0x20 ≤ c.val && c.val < 0x7F) :
    Printable (text s) := by
  intro c hc
  simpa using List.all_eq_true.mp h c hc

/-- A text of digits is printable. -/
theorem printable_digits {ds : Text} (h : ∀ c ∈ ds, isDigit c = true) : Printable ds := by
  intro c hc
  have hdigit := h c hc
  simp only [isDigit, Bool.and_eq_true, decide_eq_true_eq] at hdigit
  change 48 ≤ c.val ∧ c.val ≤ 57 at hdigit
  omega

/-- The literal of a float is printable. -/
theorem printable_floatText {literal : Text} (h : FloatText literal) : Printable literal := by
  cases h with
  | nan => exact printable_text rfl
  | infinity => exact printable_text rfl
  | negInfinity => exact printable_text rfl
  -- The digits, then the fraction, then the exponent.
  | finite negative n hfrac hexp _ =>
    refine .append (.append (.append ?_ (printable_decimal n)) ?_) ?_
    · cases negative with
      | true => exact printable_text rfl
      | false => exact printable_nil
    · rcases hfrac with rfl | ⟨ds, ⟨-, hds⟩, rfl⟩
      · exact printable_nil
      · exact .cons (by decide) (printable_digits hds)
    · rcases hexp with rfl | ⟨sign, ds, ⟨-, hds⟩, hsign, rfl⟩
      · exact printable_nil
      · refine .cons (by decide) (.append ?_ (printable_digits hds))
        simp only [List.mem_cons, List.not_mem_nil, or_false] at hsign
        rcases hsign with rfl | rfl | rfl
        · exact printable_nil
        · exact .cons (by decide) printable_nil
        · exact .cons (by decide) printable_nil

mutual

/-- A plain value is written in printable characters. -/
theorem printable_dumps : ∀ v : Json, Plain v → Printable (dumps v)
  | .null, _ => printable_text rfl
  | .bool true, _ => printable_text rfl
  | .bool false, _ => printable_text rfl
  | .int n, _ => printable_writeInt n
  | .float literal, hv => printable_floatText hv
  | .str s, _ => printable_writeString s
  | .arr [], _ => printable_text rfl
  | .arr (v :: items), hv =>
    .cons (by decide) ((printable_dumps v hv.1).append (printable_dumpsItems items hv.2))
  | .obj [], _ => printable_text rfl
  | .obj ((key, v) :: members), hv =>
    .append (.append (.cons (by decide) ((printable_writeString key).append (printable_text rfl)))
      (printable_dumps v hv.2.2.1)) (printable_dumpsMembers members hv.2.2.2)

/-- Plain items are written in printable characters. -/
theorem printable_dumpsItems : ∀ items : List Json, PlainItems items → Printable (dumpsItems items)
  | [], _ => printable_text rfl
  | v :: items, hv =>
    .append (.append (printable_text rfl) (printable_dumps v hv.1)) (printable_dumpsItems items hv.2)

/-- Plain members are written in printable characters. -/
theorem printable_dumpsMembers : ∀ members : List (Text × Json), PlainMembers members →
    Printable (dumpsMembers members)
  | [], _ => printable_text rfl
  | (key, v) :: members, hv =>
    .append (.append (.append (.append (printable_text rfl) (printable_writeString key))
      (printable_text rfl)) (printable_dumps v hv.2.1)) (printable_dumpsMembers members hv.2.2)

end

/-- The machine reads what `json.dumps` wrote, with white space after it. -/
theorem run_dumps {v : Json} (hv : Plain v) (hdepth : depth v ≤ maxDepth) (hstops : Stops rest)
    (hrest : lex rest = []) : run maxDepth (.value []) (lex (dumps v ++ rest)) = .ok (.done v) := by
  have hlex : lex (dumps v ++ rest) = tokens v ++ [] :=
    (lex_dumps v rest hv hstops).trans (by rw [hrest])
  have hrun := run_tokens v [] [] hv (by simpa using hdepth)
  rw [hlex, hrun]
  rfl

/-- What `json.dumps` wrote, with a newline after it, is read back. -/
theorem loads_dumps {v : Json} (hv : Plain v) (hdepth : depth v ≤ maxDepth) :
    loads maxDepth ((dumps v ++ [chr '\n']).map (·.val)) = .ok v := by
  have hascii : ∀ c ∈ dumps v ++ [chr '\n'], 0 < c.val ∧ c.val < 0x80 := by
    intro c hc
    rcases List.mem_append.mp hc with hc | hc
    · have h := printable_dumps v hv c hc
      omega
    · rw [List.mem_singleton.mp hc]
      decide
  have hstops : Stops [chr '\n'] := stops_cons ⟨rfl, rfl, rfl, rfl⟩
  rw [loads, decodeBytes_ascii hascii]
  simp only [run_dumps hv hdepth hstops rfl]

end Fraisier.Lib.Json
