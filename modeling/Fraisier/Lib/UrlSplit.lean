import Fraisier.Lib.Partition

/-!
# `urllib.parse.urlsplit`

The scheme that `urlsplit` finds, or `none` when it raises `ValueError`: on brackets of the part
before the path that hold no address, and on characters there that normalization would turn into
separators. Which text is the normalized one is a parameter, since it takes the tables of Unicode.
A URL with a plain scheme and two slashes has that scheme: `urlsplit_scheme`.
-/

namespace Fraisier.Lib

namespace Str

/-! ## Addresses -/

/-- A digit of `string.hexdigits`. -/
def isHexDigit (c : Char) : Bool := c.isDigit || 'a' ≤ c && c ≤ 'f' || 'A' ≤ c && c ≤ 'F'

/-- `IPv4Address._parse_octet` accepts the octet. -/
def isOctet (s : Str) : Bool :=
  s ≠ [] && s.all Char.isDigit && s.length ≤ 3 && (s = ['0'] || s.head? ≠ some '0') &&
    Nat.ofDigitChars 10 s 0 ≤ 255

/-- `IPv4Address` accepts the text. -/
def isIPv4 (s : Str) : Bool :=
  let octets := s.splitOn '.'
  octets.length = 4 && octets.all isOctet

/-- `IPv6Address._parse_hextet` accepts the part. -/
def isHextet (s : Str) : Bool := s ≠ [] && s.all isHexDigit && s.length ≤ 4

/-- The parts between the colons make up an address: eight of them, or fewer around one gap. -/
def areHextets (parts : List Str) : Bool :=
  let gaps := (List.range parts.length).filter fun i =>
    0 < i && i + 1 < parts.length && parts[i]? = some []
  match gaps with
  | [] => parts.length = 8 && parts.all isHextet
  | [i] =>
    let high := if parts.take i = [[]] then [] else parts.take i
    let low := if parts.drop (i + 1) = [[]] then [] else parts.drop (i + 1)
    parts.length ≤ 9 && high.length + low.length < 8 && (high ++ low).all isHextet
  | _ => false

/-- `IPv6Address` accepts the text, with a scope or without. -/
def isIPv6 (s : Str) : Bool :=
  let (address, found, scope) := partition '%' s
  let parts := address.splitOn ':'
  let last := parts.getLast?.getD []
  if found && (scope = [] || '%' ∈ scope) || parts.length < 3 then false
  -- an address of version 4 in the end stands for two parts
  else if '.' ∈ last then isIPv4 last && areHextets (parts.dropLast ++ [['0'], ['0']])
  else areHextets parts

example : isIPv6 "::1".toList ∧ isIPv6 "fe80::192.0.2.1%eth0".toList ∧ ¬isIPv6 "::g".toList := by
  decide

/-- `_check_bracketed_host` accepts what stands in the brackets. -/
def isBracketedHost (s : Str) : Bool :=
  match s with
  | 'v' :: rest =>
    let version := rest.takeWhile isHexDigit
    let tail := rest.dropWhile isHexDigit
    version ≠ [] && tail.head? = some '.' && tail.tail ≠ []
  | _ => isIPv6 s

/-- `_check_bracketed_netloc`, for the part after the last `@`. -/
def isBracketedNetloc (netloc : Str) : Bool :=
  let hostport := netloc.rtakeWhile (· ≠ '@')
  match partition '[' hostport with
  | (before, true, bracketed) =>
    let (host, _, port) := partition ']' bracketed
    before = [] && (port = [] || port.head? = some ':') && isBracketedHost host
  | (_, false, _) => isBracketedHost (partition ':' hostport).1

/-! ## The function -/

/-- `_checknetloc`, where `nfkc` normalizes. -/
def isPlainNetloc (nfkc : Str → Str) (netloc : Str) : Bool :=
  let separators := "@:#?".toList
  let bare := netloc.filter (· ∉ separators)
  netloc.all (·.toNat < 0x80) || nfkc bare = bare || (nfkc bare).all (· ∉ "/?#@:".toList)

/-- The scheme and the rest. -/
def cutScheme (url : Str) : Str × Str :=
  let (scheme, found, rest) := partition ':' url
  if found && (scheme.head?.any Char.isAlpha) &&
      scheme.all (fun c => c.isAlphanum || c ∈ "+-.".toList) then
    (scheme.map Char.toLower, rest)
  else ([], url)

/-- What is removed from a URL before it is read: what stands before it, and breaks of lines. -/
def cleanUrl (url : Str) : Str :=
  (url.dropWhile (·.toNat ≤ 0x20)).filter (· ∉ ['\t', '\r', '\n'])

/-- `urlsplit(url).scheme`: `none` when it raises `ValueError`. -/
def urlsplit (nfkc : Str → Str) (url : Str) : Option Str :=
  let (scheme, rest) := cutScheme (cleanUrl url)
  let netloc := if rest.startsWith ['/', '/'] then
    (rest.drop 2).takeWhile (· ∉ ['/', '?', '#']) else []
  let bracketed := '[' ∈ netloc ∧ ']' ∈ netloc
  if ('[' ∈ netloc ↔ ']' ∈ netloc) ∧ (bracketed → isBracketedNetloc netloc) ∧
      isPlainNetloc nfkc netloc then some scheme
  else none

example : urlsplit id "postgresql://u:p@[::1]:5432/a".toList = some "postgresql".toList ∧
    urlsplit id "postgresql://u:[p]@h/a".toList = none := by decide

/-- A letter is no control character and no space. -/
theorem lt_of_isAlpha {c : Char} (h : c.isAlpha = true) : 0x20 < c.toNat := by
  have hcase : 'A'.val.toNat ≤ c.val.toNat ∨ 'a'.val.toNat ≤ c.val.toNat := by
    rcases Bool.or_eq_true_iff.mp (show (c.isUpper || c.isLower) = true from h) with h | h
    · exact .inl (of_decide_eq_true (show decide (c.val ≥ 'A'.val ∧ _) = true from h)).1
    · exact .inr (of_decide_eq_true (Bool.and_eq_true_iff.mp
        (show (decide (c.val ≥ 'a'.val) && _) = true from h)).1)
  show 0x20 < c.val.toNat
  rcases hcase with hcase | hcase
  · exact lt_of_lt_of_le (by decide) hcase
  · exact lt_of_lt_of_le (by decide) hcase

/-- A letter or digit is not what is neither. -/
theorem ne_of_isAlphanum {c d : Char} (h : c.isAlphanum = true) (hd : d.isAlphanum = false) :
    c ≠ d := by
  rintro rfl
  rw [h] at hd
  cases hd

/-- A URL that begins with a scheme is clean. -/
theorem cleanUrl_scheme {scheme : Str} (hhead : scheme.head?.any Char.isAlpha = true)
    (hchars : ∀ c ∈ scheme, c.isAlphanum = true) (rest : Str) :
    cleanUrl (scheme ++ ':' :: rest) =
      scheme ++ ':' :: rest.filter (· ∉ ['\t', '\r', '\n']) := by
  -- No character of a scheme is one that is taken out.
  have hkept : ∀ c ∈ scheme, decide (c ∉ ['\t', '\r', '\n']) = true := by
    intro c hc
    have hne := fun d => ne_of_isAlphanum (d := d) (hchars c hc)
    simp [hne '\t' (by decide), hne '\r' (by decide), hne '\n' (by decide)]
  cases scheme with
  | nil => cases hhead
  | cons first tail =>
    have hfirst := lt_of_isAlpha (c := first) (by simpa using hhead)
    unfold cleanUrl
    rw [List.cons_append, List.dropWhile_cons_of_neg (by simpa using hfirst), ← List.cons_append,
      List.filter_append, List.filter_eq_self.mpr hkept,
      List.filter_cons_of_pos (by decide)]

/-- A URL that begins with a scheme has that one, if it is read at all. -/
theorem urlsplit_scheme {nfkc : Str → Str} {scheme rest found : Str}
    (hhead : scheme.head?.any Char.isAlpha = true) (hchars : ∀ c ∈ scheme, c.isAlphanum = true)
    (h : urlsplit nfkc (scheme ++ ':' :: rest) = some found) :
    found = scheme.map Char.toLower := by
  -- No character of a scheme is a colon, and cleaning leaves them all.
  have hcolon : ':' ∉ scheme := fun hmem =>
    ne_of_isAlphanum (hchars _ hmem) (by decide : ':'.isAlphanum = false) rfl
  have hall : scheme.all (fun c => c.isAlphanum || c ∈ "+-.".toList) = true := by
    rw [List.all_eq_true]
    intro c hc
    rw [hchars c hc, Bool.true_or]
  have hcut : (cutScheme (cleanUrl (scheme ++ ':' :: rest))).1 = scheme.map Char.toLower := by
    rw [cleanUrl_scheme hhead hchars]
    unfold cutScheme
    rw [partition_append_cons hcolon]
    dsimp only
    rw [hhead, hall]
    rfl
  unfold urlsplit at h
  obtain ⟨-, hfound⟩ := Option.ite_none_right_eq_some.mp h
  rw [← hcut]
  exact (Option.some.inj hfound).symm

end Str

end Fraisier.Lib
