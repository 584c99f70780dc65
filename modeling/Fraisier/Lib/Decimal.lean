import Fraisier.Lib.Strip

/-!
# Decimal numbers as text

`int(str(n))` is `n`, as long as `str(n)` is not too long to be read: `toInt_toDigits`. What `int`
reads in general has blanks around it, a sign and underscores between digits: `readInt`.
-/

namespace Fraisier.Lib

namespace Str

/-- `str(n)`: `none` when it raises `ValueError`, with too many digits. -/
def intText (n : ℕ) : Option Str :=
  if (Nat.toDigits 10 n).length ≤ maxDigits then some (Nat.toDigits 10 n) else none

/-- A blank that `int` passes over at either end: one of `str.isspace`, less the four separators
U+001C to U+001F. -/
def isIntSpace (c : Char) : Bool := isSpace c && !inRanges [(0x1c, 0x1f)] c

/-- `int(s)`: `none` when it raises `ValueError`. -/
def readInt (s : Str) : Option ℤ :=
  let (sign, digits) := match stripBy isIntSpace s with
    | '-' :: digits => (-1, digits)
    | '+' :: digits => (1, digits)
    | digits => (1, digits)
  let groups := digits.splitOn '_'
  if groups.all fun g => g ≠ [] && g.all fun c => (decimal? c).isSome then
    (toInt groups.flatten).map fun n : ℕ => sign * (n : ℤ)
  else none

example : readInt " +5_432".toList = some 5432 ∧ readInt "5432x".toList = none ∧
    readInt "".toList = none ∧ readInt "\x1c5".toList = none := by decide

/-! ## Texts of no number -/

/-- A character of a joined text other than the separator stands in one of the pieces. -/
theorem exists_mem_of_mem_intercalate {c d : Char} (hne : c ≠ d) {pieces : List Str}
    (h : c ∈ [d].intercalate pieces) : ∃ piece ∈ pieces, c ∈ piece := by
  induction pieces with
  | nil => exact absurd h List.not_mem_nil
  | cons piece pieces ih =>
    by_cases hnil : pieces = []
    · rw [hnil, List.intercalate_singleton] at h
      exact ⟨piece, List.mem_cons_self, h⟩
    · rw [List.intercalate_cons_of_ne_nil hnil, List.mem_append, List.mem_append,
        List.mem_singleton] at h
      rcases h with (h | h) | h
      · exact ⟨piece, List.mem_cons_self, h⟩
      · exact absurd h hne
      · obtain ⟨other, hother, hc⟩ := ih h
        exact ⟨other, List.mem_cons_of_mem _ hother, hc⟩

/-- A character other than the separator stays in a piece. -/
theorem exists_mem_splitOn {c d : Char} (hne : c ≠ d) {s : Str} (h : c ∈ s) :
    ∃ piece ∈ s.splitOn d, c ∈ piece :=
  exists_mem_of_mem_intercalate hne (by rwa [List.intercalate_splitOn])

/-- A text with a character that is no blank, sign, underscore or digit is not read as a number. -/
theorem readInt_eq_none {c : Char} (hspace : isSpace c = false) (hdigit : decimal? c = none)
    (hother : c ∉ ['-', '+', '_']) {s : Str} (h : c ∈ s) : readInt s = none := by
  simp only [List.mem_cons, List.not_mem_nil, or_false, not_or] at hother
  -- A group with the character in it is not all digits.
  have hgroups : ∀ digits : Str, c ∈ digits →
      ((digits.splitOn '_').all fun g => g ≠ [] && g.all fun c => (decimal? c).isSome) = false := by
    intro digits hdigits
    obtain ⟨g, hg, hc⟩ := exists_mem_splitOn hother.2.2 hdigits
    refine List.all_eq_false.mpr ⟨g, hg, ?_⟩
    rw [Bool.and_eq_true, not_and, List.all_eq_true]
    intro _ hall
    have hsome := hall c hc
    rw [hdigit] at hsome
    exact absurd hsome Bool.false_ne_true
  have hstrip : c ∈ stripBy isIntSpace s := mem_stripBy (by simp [isIntSpace, hspace]) h
  -- The character is not the sign, so it is in what follows.
  have hsigned : ∀ {d : Char} {digits : Str}, c ≠ d → stripBy isIntSpace s = d :: digits → c ∈ digits := by
    intro d digits hne hs
    rw [hs] at hstrip
    exact (List.mem_cons.mp hstrip).resolve_left hne
  unfold readInt
  split
  rename_i hsplit
  split at hsplit
  · rename_i digits hs
    obtain ⟨rfl, rfl⟩ := Prod.mk.inj hsplit
    exact if_neg (by rw [hgroups digits (hsigned hother.1 hs)]; exact Bool.false_ne_true)
  · rename_i digits hs
    obtain ⟨rfl, rfl⟩ := Prod.mk.inj hsplit
    exact if_neg (by rw [hgroups digits (hsigned hother.2.1 hs)]; exact Bool.false_ne_true)
  · obtain ⟨rfl, rfl⟩ := Prod.mk.inj hsplit
    exact if_neg (by rw [hgroups (stripBy isIntSpace s) hstrip]; exact Bool.false_ne_true)

/-! ## Numbers as `str` gives them -/

/-- A digit has its value. -/
theorem decimal?_of_isDigit {c : Char} (h : c.isDigit = true) :
    decimal? c = some (c.toNat - '0'.toNat) := by
  have hrange : 0x30 ≤ c.toNat ∧ c.toNat < 0x30 + 10 := by
    simp only [Char.isDigit, Bool.and_eq_true, decide_eq_true_eq, UInt32.le_iff_toNat_le] at h
    exact ⟨h.1, Nat.lt_succ_of_le h.2⟩
  rw [decimal?, decimalZeros, List.find?_cons_of_pos (by simp [hrange])]
  rfl

/-- A digit is no space. -/
theorem not_isSpace_of_isDigit {c : Char} (h : c.isDigit = true) : isSpace c = false := by
  have hrange : 0x30 ≤ c.toNat ∧ c.toNat ≤ 0x39 := by
    simp only [Char.isDigit, Bool.and_eq_true, decide_eq_true_eq, UInt32.le_iff_toNat_le] at h
    exact h
  simp only [isSpace, inRanges, List.any_cons, List.any_nil, Bool.or_false, Bool.or_eq_false_iff,
    Bool.and_eq_false_iff, decide_eq_false_iff_not]
  omega

/-- A digit of a number has its value. -/
theorem decimal?_of_mem_toDigits {n : ℕ} {c : Char} (h : c ∈ Nat.toDigits 10 n) :
    decimal? c = some (c.toNat - '0'.toNat) :=
  decimal?_of_isDigit (Nat.isDigit_of_mem_toDigits (by decide) (by decide) h)

/-- A number is written in digits. -/
theorem allDigits_toDigits (n : ℕ) : allDigits (Nat.toDigits 10 n) = true := by
  unfold allDigits
  rw [List.isEmpty_eq_false_iff.mpr Nat.toDigits_ne_nil, Bool.not_false, Bool.true_and,
    List.all_eq_true]
  intro c hc
  rw [isDigit, decimal?_of_mem_toDigits hc]
  rfl

/-- Reading digits one after another. -/
theorem foldlM_decimal? {s : Str} (h : ∀ c ∈ s, decimal? c = some (c.toNat - '0'.toNat)) (n : ℕ) :
    s.foldlM (fun n c => (decimal? c).map (10 * n + ·)) n = some (Nat.ofDigitChars 10 s n) := by
  induction s generalizing n with
  | nil => rfl
  | cons c s ih =>
    rw [List.foldlM_cons, h c List.mem_cons_self, Nat.ofDigitChars_cons]
    exact ih (fun d hd => h d (List.mem_cons_of_mem c hd)) _

/-- A number is read back from its digits, if they are not too many. -/
theorem toInt_toDigits {n : ℕ} (h : (Nat.toDigits 10 n).length ≤ maxDigits) :
    toInt (Nat.toDigits 10 n) = some n := by
  rw [toInt, if_neg (Nat.not_lt.mpr h), foldlM_decimal? fun c hc => decimal?_of_mem_toDigits hc,
    Nat.ofDigitChars_ten_toDigits]

/-- A text that `str` gives for a number: it is read as that number, and has decimal digits only. -/
theorem intText_spec {n : ℕ} {s : Str} (h : intText n = some s) :
    toInt s = some n ∧ s ≠ [] ∧ ∀ c ∈ s, c.isDigit = true := by
  unfold intText at h
  split at h
  · rename_i hlen
    obtain rfl := Option.some.inj h
    exact ⟨toInt_toDigits hlen, Nat.toDigits_ne_nil,
      fun c hc => Nat.isDigit_of_mem_toDigits (by decide) (by decide) hc⟩
  · cases h

end Str

end Fraisier.Lib
