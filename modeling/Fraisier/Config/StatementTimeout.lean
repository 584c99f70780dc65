import Mathlib.Data.Rat.Floor
import Fraisier.Lib.Binary64
import Fraisier.Lib.UrlSplit
import Fraisier.Config.DbUrl
import Fraisier.Config.Quote
import Fraisier.Config.ServerOptions

/-!
# A statement timeout in a URL

`statement_timeout_url` adds a setting to the `options` of a URL. `statementTimeoutUrl_spec` says what
comes of it: the URL is left as it is, or the new one is read as the old one with one setting more, or
is not read at all, where the old options had a zero byte. From that follows when the URL still says
what it said (`unchanged_iff`) and when the server takes the timeout from it (`bounded_iff`): what is
below a millisecond is turned into none, and what does not fit 32 bits is refused.
-/

namespace Fraisier.Config

open Fraisier.Lib Str Fallible Json

/-! ## The function -/

/-- A `float`. -/
structure Seconds where
  value : Number
  isFloat : ∀ q, value = .finite q → FitsSignificand |q|

/-- `seconds <= 0`. -/
def notPositive : Number → Bool
  | .finite q => q ≤ 0
  | .infinity negative => negative
  | .nan => false

/-- `int(seconds * 1000)` of seconds that are not `<= 0`: `none` when it raises. -/
def milliseconds : Number → Option ℕ
  | .finite q =>
    match nearest false (q.num.toNat * 1000) q.den with
    | .finite product => some ⌊product⌋₊
    | _ => none
  | _ => none

/-- A parameter with its key decoded. -/
structure Entry where
  name : Str
  key : Str
  value : Str

/-- `split_param` and `decode` of the key. -/
def readEntry (param : Str) : Option Entry := do
  let (key, value) ← splitParam param
  let name ← decode key
  some ⟨name, key, value⟩

/-- `f"{k}={v}"`. -/
def Entry.text (entry : Entry) : Str := entry.key ++ '=' :: entry.value

/-- The options with the setting: `none` when `decode` raises. -/
def mergedOptions (entries : List Entry) (n : ℕ) : Option Str :=
  match (entries.filter (·.name = "options".toList)).getLast? with
  | none => some (timeoutSwitch n)
  | some entry => (decode entry.value).map (· ++ ' ' :: timeoutSwitch n)

/-- The URL with the setting: `none` when the `try` block raises. -/
def attach (url : Str) (seconds : Number) : Option Str := do
  let (base, _, query) := Str.partition '?' url
  let entries ← (if query = [] then [] else query.splitOn '&').mapM readEntry
  let n ← milliseconds seconds
  let merged ← mergedOptions entries n
  let kept := (entries.filter (·.name ≠ "options".toList)).map Entry.text
  some (base ++ '?' :: joinParams (kept ++ ["options=".toList ++ quote merged]))

/-- `statement_timeout_url`, with the normalization that `urlsplit` goes by. -/
def statementTimeoutUrl (nfkc : Str → Str) (url : Option Str) (seconds : Number) : Option Str :=
  match url with
  | none => none
  | some url =>
    if url = [] ∨ notPositive seconds then some url
    else match urlsplit nfkc url with
      | none | some [] => some url
      | some _ => some ((attach url seconds).getD url)

/-! ## Milliseconds -/

/-- The finite seconds whose milliseconds are a positive number of 32 bits with a sign. -/
def InRange (seconds : Number) : Prop :=
  ∃ q, seconds = .finite q ∧ 1 ≤ 1000 * q ∧ 1000 * q < 2 ^ 31

/-- No more than the milliseconds, rounded up. -/
def UpTo (seconds : Number) (n : ℕ) : Prop := ∀ q, seconds = .finite q → n ≤ ⌈1000 * q⌉₊

variable {nfkc : Str → Str} {url param : Str} {conn : PgConn} {params : List Str}
  {kvs : List (Str × Str)} {n : ℕ}

/-- The product as a fraction. -/
theorem thousand_div {q : ℚ} (hq : 0 < q) :
    0 < q.num.toNat * 1000 ∧ ((q.num.toNat * 1000 : ℕ) : ℚ) / q.den = 1000 * q := by
  have hnum : 0 < q.num := Rat.num_pos.mpr hq
  have hcast : ((q.num.toNat : ℕ) : ℚ) = q.num := by
    exact_mod_cast Int.toNat_of_nonneg hnum.le
  refine ⟨by omega, ?_⟩
  rw [Nat.cast_mul, hcast, mul_div_right_comm, Rat.num_div_den, mul_comm]
  rfl

/-- Seconds that have milliseconds, and the product they come from. -/
theorem milliseconds_some {seconds : Seconds} (hpos : notPositive seconds.value = false)
    (h : milliseconds seconds.value = some n) : ∃ q y, seconds.value = .finite q ∧
      FitsSignificand q ∧ Nonempty (Nearest (1000 * q) y) ∧ n = ⌊y⌋₊ := by
  obtain ⟨value, hfits⟩ := seconds
  dsimp only at hpos h hfits ⊢
  -- Only finite seconds have milliseconds.
  cases value with
  | nan => cases h
  | infinity negative => cases h
  | finite q =>
    have hq : 0 < q := by simpa [notPositive] using hpos
    obtain ⟨hnum, hprod⟩ := thousand_div hq
    have hfit := hfits q rfl
    rw [abs_of_pos hq] at hfit
    unfold milliseconds at h
    -- The product is rounded to the nearest significand, unless it overflows.
    obtain ⟨y, hnearest, hy⟩ | ⟨hnearest, -⟩ := nearest_cases hnum q.den_pos
    · rw [hprod] at hy
      simp only [hnearest] at h
      exact ⟨q, y, rfl, hfit, hy, (Option.some.inj h).symm⟩
    · simp only [hnearest] at h
      cases h

/-- The milliseconds are in range when the seconds are, and then they are not more. -/
theorem milliseconds_range {seconds : Seconds} (hpos : notPositive seconds.value = false)
    (h : milliseconds seconds.value = some n) : (1 ≤ n ∧ n < 2 ^ 31 ↔ InRange seconds.value) ∧
      (n < 2 ^ 31 → UpTo seconds.value n) := by
  obtain ⟨q, y, hvalue, hfit, ⟨hy⟩, rfl⟩ := milliseconds_some hpos h
  -- Rounding keeps on which side of a power of two the product lies.
  have hone : 1 ≤ ⌊y⌋₊ ↔ 1 ≤ 1000 * q := by
    have hpow := hfit.pow_le_iff hy (show (-1021 : ℤ) ≤ 0 by decide)
    rw [zpow_zero] at hpow
    rw [Nat.le_floor_iff' one_ne_zero, Nat.cast_one, hpow]
  have hmax : ⌊y⌋₊ < 2 ^ 31 ↔ 1000 * q < 2 ^ 31 := by
    have hpow := hfit.pow_le_iff hy (show (-1021 : ℤ) ≤ 31 by decide)
    rw [Nat.floor_lt' (by decide), ← not_le, ← not_le]
    exact_mod_cast not_congr hpow
  constructor
  · rw [hone, hmax, hvalue]
    constructor
    · intro hrange
      exact ⟨q, rfl, hrange⟩
    · rintro ⟨q', hq', hrange⟩
      obtain rfl := Number.finite.inj hq'
      exact hrange
  -- The product is below 2^53, where every whole number is a float.
  · intro hlt q' hq'
    obtain rfl := Number.finite.inj (hvalue.symm.trans hq')
    have hceil : ⌈1000 * q⌉₊ < 2 ^ 53 := by
      have : ⌈1000 * q⌉₊ ≤ 2 ^ 31 := Nat.ceil_le.mpr (by exact_mod_cast (hmax.mp hlt).le)
      omega
    exact Nat.floor_le_of_le (hy.le_natCast hceil (Nat.le_ceil _))

/-- Seconds in range have milliseconds. -/
theorem milliseconds_isSome {seconds : Number} (h : InRange seconds) :
    (milliseconds seconds).isSome = true := by
  obtain ⟨q, rfl, hone, hmax⟩ := h
  obtain ⟨hnum, hprod⟩ := thousand_div (show 0 < q by linarith)
  unfold milliseconds
  obtain ⟨y, hnearest, -⟩ | ⟨-, hhuge⟩ := nearest_cases hnum q.den_pos
  · simp only [hnearest, Option.isSome_some]
  · rw [hprod] at hhuge
    have hpow : (2 : ℚ) ^ (31 : ℤ) ≤ 2 ^ (1023 : ℤ) :=
      zpow_le_zpow_right₀ (by norm_num) (by decide)
    exact absurd (lt_of_le_of_lt (hpow.trans hhuge) (by exact_mod_cast hmax)) (lt_irrefl _)

/-! ## The parameters -/

/-- An entry and what its parameter sets: of the options, the value; of the others, any. -/
structure EntryOf (entry : Entry) (kv : Str × Str) : Prop where
  same : entry.name = "options".toList ↔ kv.1 = "options".toList
  value : kv.1 = "options".toList → decode entry.value = some kv.2

/-- A parameter that is read has an entry, which is written as the parameter. -/
theorem readEntry_of_read {kv : Str × Str} (h : readParam param = some kv) :
    ∃ entry, readEntry param = some entry ∧ entry.text = param ∧ EntryOf entry kv := by
  unfold readParam at h
  obtain ⟨⟨rawKey, rawValue⟩, hsplit, h⟩ := Option.bind_eq_some_iff.mp h
  obtain ⟨name, hname, h⟩ := Option.bind_eq_some_iff.mp h
  obtain ⟨value, hvalue, h⟩ := Option.bind_eq_some_iff.mp h
  have hentry : readEntry param = some ⟨name, rawKey, rawValue⟩ := by
    unfold readEntry
    rw [hsplit, Option.bind_eq_bind, Option.bind_some]
    dsimp only
    rw [hname]
    rfl
  -- The two halves of a split parameter are the parameter.
  have htext : rawKey ++ '=' :: rawValue = param := by
    obtain ⟨-, hcut⟩ := splitParam_some hsplit
    obtain ⟨-, hnone⟩ | ⟨a, b, hparam, -, hsome⟩ := partition_cases '=' param
    · rw [hnone] at hcut
      cases hcut
    · rw [hsome] at hcut
      obtain ⟨rfl, hcut⟩ := Prod.mk.inj hcut
      obtain ⟨-, rfl⟩ := Prod.mk.inj hcut
      exact hparam.symm
  refine ⟨_, hentry, htext, ?_⟩
  -- Only `ssl=true` is read as another parameter.
  by_cases hssl : name = "ssl".toList ∧ value = "true".toList
  · simp only [if_pos hssl] at h
    split at h
    · obtain rfl := Option.some.inj h
      refine ⟨?_, fun hkey => absurd hkey (by decide)⟩
      simp only [hssl.1]
      decide
    · cases h
  · simp only [if_neg hssl] at h
    split at h
    · obtain rfl := Option.some.inj h
      exact ⟨Iff.rfl, fun _ => hvalue⟩
    · cases h

/-- The parameters that are read, as entries. Those that are kept are read as before, and those of the
options have the values that were set. -/
theorem entries_of_read (h : params.mapM readParam = some kvs) :
    ∃ entries, params.mapM readEntry = some entries ∧
      (∀ entry ∈ entries, entry.text ∈ params) ∧
      ((entries.filter (·.name ≠ "options".toList)).map Entry.text).mapM readParam =
        some (kvs.filter (·.1 ≠ "options".toList)) ∧
      (entries.filter (·.name = "options".toList)).map (decode ·.value) =
        (kvs.filter (·.1 = "options".toList)).map (some ·.2) := by
  -- Induction on the parameters, each of which has its entry.
  induction params generalizing kvs with
  | nil =>
    obtain rfl := Option.some.inj h
    exact ⟨[], rfl, by simp, rfl, rfl⟩
  | cons param params ih =>
    obtain ⟨kv, rest, hparam, hrest, rfl⟩ := mapM_cons_some h
    obtain ⟨entries, hentries, htexts, hkept, hoptions⟩ := ih hrest
    obtain ⟨entry, hentry, htext, hsame, hvalue⟩ := readEntry_of_read hparam
    refine ⟨entry :: entries, by rw [List.mapM_cons, hentry, hentries]; rfl, ?_, ?_, ?_⟩
    · rintro entry' (_ | ⟨_, hentry'⟩)
      · rw [htext]
        exact List.mem_cons_self
      · exact List.mem_cons_of_mem _ (htexts entry' hentry')
    · generalize "options".toList = key at hsame hkept ⊢
      by_cases hkey : kv.1 = key
      · rw [List.filter_cons_of_neg (by simpa using hsame.mpr hkey),
          List.filter_cons_of_neg (by simpa using hkey)]
        exact hkept
      · rw [List.filter_cons_of_pos (by simpa using mt hsame.mp hkey),
          List.filter_cons_of_pos (by simpa using hkey), List.map_cons, List.mapM_cons, htext,
          hparam, hkept]
        rfl
    · generalize "options".toList = key at hsame hvalue hoptions ⊢
      by_cases hkey : kv.1 = key
      · rw [List.filter_cons_of_pos (by simpa using hsame.mpr hkey),
          List.filter_cons_of_pos (by simpa using hkey), List.map_cons, List.map_cons,
          hvalue hkey, hoptions]
      · rw [List.filter_cons_of_neg (by simpa using mt hsame.mp hkey),
          List.filter_cons_of_neg (by simpa using hkey)]
        exact hoptions

/-- The options that the parameters set, the last ones. -/
theorem lookup_reverse (key : Str) (l : List (Str × Str)) :
    l.reverse.lookup key = ((l.filter (·.1 = key)).getLast?).map (·.2) := by
  have hhead : ∀ l : List (Str × Str), l.lookup key = (l.filter (·.1 = key)).head?.map (·.2) := by
    intro l
    induction l with
    | nil => rfl
    | cons kv l ih =>
      by_cases hkey : kv.1 = key
      · rw [List.filter_cons_of_pos (by simpa using hkey), List.lookup_cons]
        simp [hkey]
      · rw [List.filter_cons_of_neg (by simpa using hkey), List.lookup_cons, ih]
        have hne : (key == kv.1) = false := by simpa using Ne.symm hkey
        rw [hne]
  rw [hhead, List.filter_reverse, List.head?_reverse]

/-- The old options with the setting. -/
def extendOptions (old : Option Str) (n : ℕ) : Str :=
  match old with
  | none => timeoutSwitch n
  | some old => old ++ ' ' :: timeoutSwitch n

/-- The last options are the ones that are extended. -/
theorem mergedOptions_eq {entries : List Entry}
    (h : (entries.filter (·.name = "options".toList)).map (decode ·.value) =
      (kvs.filter (·.1 = "options".toList)).map (some ·.2)) :
    mergedOptions entries n = some (extendOptions (kvs.reverse.lookup "options".toList) n) := by
  -- The last of the entries' values is the last of the parameters'.
  have hlast := congrArg List.getLast? h
  rw [List.getLast?_map, List.getLast?_map] at hlast
  rw [lookup_reverse]
  unfold mergedOptions extendOptions
  cases hentry : (entries.filter (·.name = "options".toList)).getLast? with
  | none =>
    rw [hentry] at hlast
    cases hkv : (kvs.filter (·.1 = "options".toList)).getLast? with
    | none => rfl
    | some kv =>
      rw [hkv] at hlast
      cases hlast
  | some entry =>
    rw [hentry] at hlast
    cases hkv : (kvs.filter (·.1 = "options".toList)).getLast? with
    | none =>
      rw [hkv] at hlast
      cases hlast
    | some kv =>
      rw [hkv] at hlast
      have hvalue : decode entry.value = some kv.2 := Option.some.inj hlast
      simp only [hvalue, Option.map_some]

/-! ## The new URL -/

/-- No options are set. -/
def PgConn.NoOptions (conn : PgConn) : Prop := conn.params.lookup "options".toList = none

/-- Another setting adds no options. -/
theorem PgConn.NoOptions.set {key value : Str} (h : conn.NoOptions)
    (hkey : key ≠ "options".toList) : (conn.set key value).NoOptions := by
  unfold NoOptions PgConn.set
  have hne : ("options".toList == key) = false := beq_eq_false_iff_ne.mpr (Ne.symm hkey)
  rw [List.lookup_cons, hne]
  exact h

/-- The part before the query sets no options. -/
theorem base_options {netloc path : Str} {server base : PgConn}
    (hserver : readServer netloc = some server) (hbase : server.addPath path = some base) :
    base.NoOptions := by
  have hother : ∀ key ∈ serverKeywords, key ≠ "options".toList := by decide
  have hkept : SetKeeps PgConn.NoOptions := fun _ key _ hkey h => h.set (hother key hkey)
  exact hkept.base rfl hserver hbase

/-- The query of a URL that is cut at its first `?`. -/
theorem splitUrl_query {netloc path query base old : Str} {found : Bool}
    (hurl : splitUrl url = some (netloc, path, query))
    (hcut : Str.partition '?' url = (base, found, old)) :
    old = query ∧ ∀ new, splitUrl (base ++ '?' :: new) = some (netloc, path, new) := by
  obtain ⟨scheme, hscheme, -⟩ := parts_plain hurl
  obtain ⟨hschemes, rest, rfl⟩ := scheme_cases hscheme
  -- The scheme has no `?`, so the first one is that of the query.
  have hplain : '?' ∉ scheme := by
    obtain rfl | rfl := hschemes <;> decide
  rw [splitUrl_eq hscheme] at hurl
  rw [partition_append hplain] at hcut
  obtain ⟨rfl, htail⟩ := Prod.mk.inj hcut
  obtain ⟨hnetloc, hurl⟩ := Prod.mk.inj (Option.some.inj hurl)
  obtain ⟨hpath, hquery⟩ := Prod.mk.inj hurl
  rw [htail] at hquery
  have hbase : '?' ∉ (Str.partition '?' rest).1 := notMem_of_partition rfl
  refine ⟨hquery, fun new => ?_⟩
  rw [List.append_assoc, splitUrl_eq hscheme, partition_append_cons hbase, hnetloc, hpath]

/-- The parameters of a query that does not end with a separator are those that `attach` reads. -/
theorem queryParams_eq {query : Str} (h : query.getLast? ≠ some '&') :
    (if query = [] then [] else query.splitOn '&') = queryParams query := by
  unfold queryParams
  split
  · rfl
  · next hquery =>
    rw [if_neg]
    rintro ⟨-, hlast⟩
    exact h ((getLast?_splitOn hquery).mp hlast)

/-- What the setting is read as. -/
theorem readParam_options (text : Str) : readParam ("options=".toList ++ quote text) =
    if '\x00' ∈ text then none else some ("options".toList, text) := by
  -- The key ends at the first `=`, and is no other name for a keyword.
  have hsplit : splitParam ("options=".toList ++ quote text) =
      some ("options".toList, quote text) := by
    have hcut : Str.partition '=' ("options".toList ++ '=' :: quote text) =
        ("options".toList, true, quote text) := partition_append_cons (by decide) _
    unfold splitParam
    rw [show "options=".toList ++ quote text = "options".toList ++ '=' :: quote text from rfl, hcut]
  have hkey : decode "options".toList = some "options".toList := by decide
  have hssl : ¬("options".toList = "ssl".toList ∧ text = "true".toList) := by
    rintro ⟨hname, -⟩
    exact absurd hname (by decide)
  unfold readParam
  rw [hsplit, Option.bind_eq_bind, Option.bind_some]
  dsimp only
  rw [hkey, Option.bind_eq_bind, Option.bind_some, decode_quote]
  split
  · rfl
  · have hknown : checkKeyword "options".toList = true := by decide
    rw [Option.bind_some, if_neg hssl]
    exact if_pos hknown

/-- The setting has no zero byte. -/
theorem zero_mem_extendOptions (old : Option Str) (n : ℕ) :
    '\x00' ∈ extendOptions old n ↔ '\x00' ∈ old.getD [] := by
  have hswitch : '\x00' ∉ timeoutSwitch n := by
    intro h
    obtain h | h := List.mem_append.mp h
    · exact absurd h (by decide)
    obtain h | h := List.mem_append.mp h
    · exact absurd h (by decide)
    · exact absurd (Nat.isDigit_of_mem_toDigits (by decide) (by decide) h) (by decide)
  unfold extendOptions
  cases old with
  | none => simp [hswitch]
  | some old => simp [hswitch]

/-- The new query: the entries that are kept, and the options. -/
theorem queryParams_attach {entries : List Entry} {query : Str} (text : Str)
    (htexts : ∀ entry ∈ entries, entry.text ∈ queryParams query) :
    queryParams (joinParams ((entries.filter (·.name ≠ "options".toList)).map Entry.text ++
      ["options=".toList ++ quote text])) =
      (entries.filter (·.name ≠ "options".toList)).map Entry.text ++
        ["options=".toList ++ quote text] := by
  -- No entry holds the separator, since the options are quoted.
  refine queryParams_join fun param hparam => ?_
  obtain hparam | hparam := List.mem_append.mp hparam
  · obtain ⟨entry, hentry, rfl⟩ := List.mem_map.mp hparam
    refine ⟨notMem_of_mem_queryParams (htexts entry (List.mem_of_mem_filter hentry)), ?_⟩
    unfold Entry.text
    simp
  · obtain rfl := List.mem_singleton.mp hparam
    have hplain : '&' ∉ "options=".toList := by decide
    refine ⟨?_, List.append_ne_nil_of_left_ne_nil (by decide) _⟩
    rw [List.mem_append, not_or]
    exact ⟨hplain, notMem_quote text⟩

/-- The URL that a setting is attached to is read as before, with the setting after the old options,
unless they have a zero byte. -/
theorem attach_spec {seconds : Number} (h : PgConn.parse url = some conn)
    (hend : (Str.partition '?' url).2.2.getLast? ≠ some '&')
    (hn : milliseconds seconds = some n) : ∃ new, attach url seconds = some new ∧
      if '\x00' ∈ (conn.get "options").getD [] then PgConn.parse new = none
      else ∃ conn', PgConn.parse new = some conn' ∧
        conn'.get "options" = some (extendOptions (conn.get "options") n) ∧
        ∀ key ≠ "options".toList, conn'.params.lookup key = conn.params.lookup key := by
  -- The URL is read as its parts.
  obtain ⟨netloc, path, query, server, base, kvs, hurl, hserver, hbase, hkvs, rfl, hname⟩ :=
    parse_iff.mp h
  rcases hcut : Str.partition '?' url with ⟨before, found, old⟩
  obtain ⟨rfl, hnew⟩ := splitUrl_query hurl hcut
  rw [hcut] at hend
  obtain ⟨entries, hentries, htexts, hkept, hoptions⟩ := entries_of_read hkvs
  have hget : PgConn.get ⟨kvs.reverse ++ base.params⟩ "options" =
      kvs.reverse.lookup "options".toList := by
    unfold PgConn.get
    rw [List.lookup_append, base_options hserver hbase, Option.or_none]
  -- Attaching puts the kept parameters back, and the extended options after them.
  have hattach : attach url seconds = some (before ++ '?' :: joinParams
      ((entries.filter (·.name ≠ "options".toList)).map Entry.text ++
        ["options=".toList ++
          quote (extendOptions (kvs.reverse.lookup "options".toList) n)])) := by
    unfold attach
    rw [hcut]
    dsimp only
    rw [queryParams_eq hend, hentries, hn]
    simp only [Option.bind_eq_bind, Option.bind_some, mergedOptions_eq hoptions]
  refine ⟨_, hattach, ?_⟩
  rw [hget]
  generalize hold : kvs.reverse.lookup "options".toList = options
  have hparams := queryParams_attach (extendOptions options n) htexts
  -- The new parameters are read as the kept ones and the options, if these have no zero byte.
  have hread : ((entries.filter (·.name ≠ "options".toList)).map Entry.text ++
      ["options=".toList ++ quote (extendOptions options n)]).mapM readParam =
        if '\x00' ∈ options.getD [] then none
        else some (kvs.filter (·.1 ≠ "options".toList) ++
          [("options".toList, extendOptions options n)]) := by
    rw [List.mapM_append, hkept, List.mapM_cons, readParam_options]
    simp only [zero_mem_extendOptions]
    split <;> rfl
  split
  -- Old options with a zero byte make the new ones unreadable.
  · next hzero =>
    rw [if_pos hzero] at hread
    rw [Option.eq_none_iff_forall_ne_some]
    intro conn' hconn'
    obtain ⟨_, _, _, _, _, kvs', hurl', -, -, hkvs', -, -⟩ := parse_iff.mp hconn'
    rw [hnew] at hurl'
    obtain ⟨-, hurl'⟩ := Prod.mk.inj (Option.some.inj hurl')
    obtain ⟨-, rfl⟩ := Prod.mk.inj hurl'
    rw [hparams, hread] at hkvs'
    cases hkvs'
  · next hzero =>
    rw [if_neg hzero] at hread
    -- A key other than the options is looked up among the kept ones.
    have hlookup : ∀ key ≠ "options".toList, ((kvs.filter (·.1 ≠ "options".toList) ++
        [("options".toList, extendOptions options n)]).reverse ++ base.params).lookup key =
          (kvs.reverse ++ base.params).lookup key := by
      intro key hkey
      have hne : (key == "options".toList) = false := beq_eq_false_iff_ne.mpr hkey
      rw [List.reverse_append, List.reverse_singleton, List.append_assoc, List.singleton_append,
        List.lookup_cons, hne, List.lookup_append, List.lookup_append, ← List.filter_reverse,
        lookup_filter_ne hkey]
    refine ⟨⟨(kvs.filter (·.1 ≠ "options".toList) ++
      [("options".toList, extendOptions options n)]).reverse ++ base.params⟩, ?_, ?_, hlookup⟩
    · refine parse_iff.mpr ⟨netloc, path, _, server, base, _, hnew _, hserver, hbase,
        by rw [hparams, hread], rfl, ?_⟩
      unfold PgConn.get at hname ⊢
      rw [hlookup _ (by decide)]
      exact hname
    · unfold PgConn.get
      rw [List.reverse_append, List.reverse_singleton, List.append_assoc, List.singleton_append,
        List.lookup_cons, beq_self_eq_true]

/-- Otherwise the URL stays. -/
theorem attach_none {seconds : Number} (h : (Str.partition '?' url).2.2.getLast? = some '&' ∨
    milliseconds seconds = none) : attach url seconds = none := by
  rw [Option.eq_none_iff_forall_ne_some]
  intro new hnew
  unfold attach at hnew
  rcases hcut : Str.partition '?' url with ⟨before, found, query⟩
  rw [hcut] at h hnew
  dsimp only at h hnew
  obtain ⟨entries, hentries, hnew⟩ := Option.bind_eq_some_iff.mp hnew
  obtain ⟨n, hn, -⟩ := Option.bind_eq_some_iff.mp hnew
  -- The query ends in an empty entry, or the seconds have no milliseconds.
  obtain hend | hnone := h
  · have hquery : query ≠ [] := by
      rintro rfl
      cases hend
    rw [if_neg hquery] at hentries
    have hempty := List.mem_of_getLast? ((getLast?_splitOn hquery).mpr hend)
    obtain ⟨entry, -, hentry⟩ := mem_of_mapM hentries hempty
    cases hentry
  · rw [hnone] at hn
    cases hn

/-! ## The URL that is returned -/

/-- The URL can be edited: `urlsplit` reads it, no separator ends its query, and there are
milliseconds to set. -/
structure Editable (nfkc : Str → Str) (url : Str) (seconds : Number) : Prop where
  positive : notPositive seconds = false
  split : (urlsplit nfkc url).isSome = true
  closed : (Str.partition '?' url).2.2.getLast? ≠ some '&'
  product : (milliseconds seconds).isSome = true

/-- A URL that is accepted has a scheme. -/
theorem urlsplit_ne_nil {scheme : Str} (h : PgConn.parse url = some conn)
    (hsplit : urlsplit nfkc url = some scheme) : scheme ≠ [] := by
  obtain ⟨_, _, _, _, _, _, hurl, -⟩ := parse_iff.mp h
  obtain ⟨start, hstart, -⟩ := parts_plain hurl
  obtain ⟨hschemes, rest, rfl⟩ := scheme_cases hstart
  -- A scheme that is accepted is one of two.
  obtain rfl | rfl := hschemes
  · have hfound : scheme = "postgresql".toList.map Char.toLower :=
      urlsplit_scheme (by decide)
        (List.all_eq_true.mp (show "postgresql".toList.all Char.isAlphanum = true by decide)) hsplit
    rw [hfound]
    decide
  · have hfound : scheme = "postgres".toList.map Char.toLower :=
      urlsplit_scheme (by decide)
        (List.all_eq_true.mp (show "postgres".toList.all Char.isAlphanum = true by decide)) hsplit
    rw [hfound]
    decide

/-- What is returned for a URL that is accepted. -/
theorem statementTimeoutUrl_spec (nfkc : Str → Str) (seconds : Number)
    (h : PgConn.parse url = some conn) :
    (Editable nfkc url seconds ∧ ∃ n new, milliseconds seconds = some n ∧
      statementTimeoutUrl nfkc (some url) seconds = some new ∧
        if '\x00' ∈ (conn.get "options").getD [] then PgConn.parse new = none
        else ∃ conn', PgConn.parse new = some conn' ∧
          conn'.get "options" = some (extendOptions (conn.get "options") n) ∧
          ∀ key ≠ "options".toList, conn'.params.lookup key = conn.params.lookup key) ∨
      ¬Editable nfkc url seconds ∧ statementTimeoutUrl nfkc (some url) seconds = some url := by
  by_cases hedit : Editable nfkc url seconds
  · left
    -- A URL that can be edited has the setting attached.
    obtain ⟨n, hn⟩ := Option.isSome_iff_exists.mp hedit.product
    obtain ⟨scheme, hscheme⟩ := Option.isSome_iff_exists.mp hedit.split
    obtain ⟨new, hattach, hnew⟩ := attach_spec h hedit.closed hn
    have hne : url ≠ [] := by
      rintro rfl
      cases h
    have hreturn : statementTimeoutUrl nfkc (some url) seconds = some new := by
      unfold statementTimeoutUrl
      dsimp only
      rw [if_neg (by simp [hne, hedit.positive]), hscheme, hattach]
      obtain ⟨c, rest, rfl⟩ := List.exists_cons_of_ne_nil (urlsplit_ne_nil h hscheme)
      rfl
    exact ⟨hedit, n, new, hn, hreturn, hnew⟩
  · refine .inr ⟨hedit, ?_⟩
    unfold statementTimeoutUrl
    dsimp only
    split
    · rfl
    · next hguard =>
      split
      · rfl
      · rfl
      · next scheme hscheme =>
        rw [attach_none, Option.getD_none]
        by_contra hnot
        rw [not_or] at hnot hguard
        exact hedit ⟨Bool.eq_false_iff.mpr hguard.2, by rw [hscheme]; rfl, hnot.1,
          Option.isSome_iff_ne_none.mpr hnot.2⟩

/-! ## Nothing else changes -/

/-- The connections have the same keywords, but for a setting after the old options. -/
def Agrees (conn conn' : PgConn) : Prop :=
  (∀ key ≠ "options".toList, conn'.params.lookup key = conn.params.lookup key) ∧
    (conn'.get "options" = conn.get "options" ∨
      ∃ n, conn'.get "options" = some (extendOptions (conn.get "options") n))

/-- The URL that is returned is still read, with one setting more at most, unless it was edited and
its options have a zero byte. -/
theorem unchanged_iff {seconds : Number} (h : PgConn.parse url = some conn) :
    (∃ new conn', statementTimeoutUrl nfkc (some url) seconds = some new ∧
      PgConn.parse new = some conn' ∧ Agrees conn conn') ↔
        ¬(Editable nfkc url seconds ∧ '\x00' ∈ (conn.get "options").getD []) := by
  obtain ⟨hedit, n, new, -, hreturn, hnew⟩ | ⟨hedit, hreturn⟩ :=
    statementTimeoutUrl_spec nfkc seconds h
  -- A URL that was edited reads as before unless its options hold a zero character.
  · rw [hreturn]
    split at hnew
    · next hzero =>
      refine iff_of_false ?_ (not_not.mpr ⟨hedit, hzero⟩)
      rintro ⟨_, conn', hsame, hconn', -⟩
      obtain rfl := Option.some.inj hsame
      rw [hnew] at hconn'
      cases hconn'
    · next hzero =>
      obtain ⟨conn', hconn', hoptions, hothers⟩ := hnew
      exact iff_of_true ⟨new, conn', rfl, hconn', hothers, .inr ⟨n, hoptions⟩⟩
        fun hboth => hzero hboth.2
  · exact iff_of_true ⟨url, conn, hreturn, h, fun _ _ => rfl, .inl rfl⟩ fun hboth => hedit hboth.1

/-- A URL whose options have a zero byte. -/
def zeroUrl : Str := "postgresql:///a?options=\x00".toList

/-- A timeout of zero, on the sample URL. -/
theorem unchanged_iff_zero : ∃ conn, PgConn.parse zeroUrl = some conn ∧
    ((∃ new conn', statementTimeoutUrl id (some zeroUrl) (.finite 1) = some new ∧
      PgConn.parse new = some conn' ∧ Agrees conn conn') ↔
        ¬(Editable id zeroUrl (.finite 1) ∧ '\x00' ∈ (conn.get "options").getD [])) := by
  obtain ⟨conn, hconn⟩ := Option.isSome_iff_exists.mp
    (show (PgConn.parse zeroUrl).isSome = true by decide)
  exact ⟨conn, hconn, unchanged_iff hconn⟩

/-- The edited URL is not read, though the old one is. -/
theorem not_unchanged : (PgConn.parse zeroUrl).isSome = true ∧
    ∃ new, statementTimeoutUrl id (some zeroUrl) (.finite 1) = some new ∧
      PgConn.parse new = none := by
  have hconn : PgConn.parse zeroUrl =
      some ⟨[("options".toList, ['\x00']), ("dbname".toList, ['a'])]⟩ := by decide
  have hrange : InRange (.finite 1) := ⟨1, rfl, by norm_num, by norm_num⟩
  have hedit : Editable id zeroUrl (.finite 1) :=
    ⟨rfl, by decide, by decide, milliseconds_isSome hrange⟩
  refine ⟨by rw [hconn]; rfl, ?_⟩
  obtain ⟨-, n, new, -, hreturn, hnew⟩ | ⟨hnot, -⟩ := statementTimeoutUrl_spec id (.finite 1) hconn
  · rw [if_pos (by decide)] at hnew
    exact ⟨new, hreturn, hnew⟩
  · exact absurd hedit hnot

/-! ## The server takes the timeout -/

/-- The server takes from the options a timeout of a millisecond at least, and of no more than the
seconds. -/
def SetsTimeout (server : Server) (seconds : Number) (conn : PgConn) : Prop :=
  ∃ t, (conn.get "options").bind server.timeout = some t ∧ 1 ≤ t ∧ UpTo seconds t

/-- The server takes the timeout when the options can be extended by it. -/
theorem timeout_extendOptions (server : Server) (old : Option Str) (n : ℕ) :
    server.timeout (extendOptions old n) =
      if server.Extends (old.getD []) ∧ n < 2 ^ 31 then some n else none := by
  cases old with
  | none =>
    have hnil : server.Extends (none.getD []) := ⟨rfl, rfl⟩
    simp only [hnil, true_and]
    exact Server.timeout_switch n
  | some old => exact Server.timeout_append old n

/-- The URL that is returned carries a timeout within the seconds when it could be edited and the
seconds are neither too small nor too large for the server, which can read a setting after the old
options; or when it could not, and had such a timeout. -/
theorem bounded_iff {server : Server} {seconds : Seconds} (h : PgConn.parse url = some conn)
    (hpos : notPositive seconds.value = false) :
    (∃ new conn', statementTimeoutUrl nfkc (some url) seconds.value = some new ∧
      PgConn.parse new = some conn' ∧ SetsTimeout server seconds.value conn') ↔
        Editable nfkc url seconds.value ∧ InRange seconds.value ∧
            '\x00' ∉ (conn.get "options").getD [] ∧ server.Extends ((conn.get "options").getD []) ∨
          ¬Editable nfkc url seconds.value ∧ SetsTimeout server seconds.value conn := by
  obtain ⟨hedit, n, new, hn, hreturn, hnew⟩ | ⟨hedit, hreturn⟩ :=
    statementTimeoutUrl_spec nfkc seconds.value h
  -- The URL was edited: what counts is the range, and what the old options leave to the server.
  · obtain ⟨hrange, hupTo⟩ := milliseconds_range hpos hn
    rw [hreturn, or_iff_left fun hnot => hnot.1 hedit]
    constructor
    · rintro ⟨_, conn', hsame, hconn', t, ht, hone, -⟩
      obtain rfl := Option.some.inj hsame
      split at hnew
      · rw [hnew] at hconn'
        cases hconn'
      · next hzero =>
        obtain ⟨conn'', hconn'', hoptions, -⟩ := hnew
        obtain rfl := Option.some.inj (hconn'.symm.trans hconn'')
        rw [hoptions, Option.bind_some, timeout_extendOptions] at ht
        obtain ⟨⟨hextends, hmax⟩, hsome⟩ := Option.ite_none_right_eq_some.mp ht
        obtain rfl := Option.some.inj hsome
        exact ⟨hedit, hrange.mp ⟨hone, hmax⟩, hzero, hextends⟩
    · rintro ⟨-, hin, hzero, hextends⟩
      obtain ⟨hone, hmax⟩ := hrange.mpr hin
      rw [if_neg hzero] at hnew
      obtain ⟨conn', hconn', hoptions, -⟩ := hnew
      refine ⟨new, conn', rfl, hconn', n, ?_, hone, hupTo hmax⟩
      rw [hoptions, Option.bind_some, timeout_extendOptions, if_pos ⟨hextends, hmax⟩]
  -- The URL was not edited, and is what it was.
  · rw [hreturn, or_iff_right fun hyes => hedit hyes.1]
    constructor
    · rintro ⟨_, conn', hsame, hconn', hsets⟩
      obtain rfl := Option.some.inj hsame
      obtain rfl := Option.some.inj (h.symm.trans hconn')
      exact ⟨hedit, hsets⟩
    · rintro ⟨-, hsets⟩
      exact ⟨url, conn, rfl, h, hsets⟩

/-- A URL without options. -/
def plainUrl : Str := "postgresql:///a".toList

/-- Half a millisecond, nearly. -/
def halfMillisecond : Seconds where
  value := .finite (1 / 2048)
  isFloat := by
    intro q hq
    obtain rfl := Number.finite.inj hq
    exact ⟨1, -11, by norm_num, by norm_num⟩

/-- Half a millisecond is positive. -/
theorem halfMillisecond_pos : notPositive halfMillisecond.value = false :=
  decide_eq_false (show ¬(1 / 2048 : ℚ) ≤ 0 by norm_num)

/-- A timeout of half a millisecond, on the sample URL. -/
theorem bounded_iff_half : ∃ conn, PgConn.parse plainUrl = some conn ∧
    ((∃ new conn', statementTimeoutUrl id (some plainUrl) halfMillisecond.value = some new ∧
      PgConn.parse new = some conn' ∧ SetsTimeout postgres halfMillisecond.value conn') ↔
        Editable id plainUrl halfMillisecond.value ∧ InRange halfMillisecond.value ∧
            '\x00' ∉ (conn.get "options").getD [] ∧
              postgres.Extends ((conn.get "options").getD []) ∨
          ¬Editable id plainUrl halfMillisecond.value ∧
            SetsTimeout postgres halfMillisecond.value conn) := by
  obtain ⟨conn, hconn⟩ := Option.isSome_iff_exists.mp
    (show (PgConn.parse plainUrl).isSome = true by decide)
  exact ⟨conn, hconn, bounded_iff hconn halfMillisecond_pos⟩

/-- Less than a millisecond is written as no timeout. -/
theorem not_bounded : (PgConn.parse plainUrl).isSome = true ∧
    notPositive halfMillisecond.value = false ∧ ∃ new conn',
      statementTimeoutUrl id (some plainUrl) halfMillisecond.value = some new ∧
        PgConn.parse new = some conn' ∧
        (conn'.get "options").bind postgres.timeout = some 0 := by
  have hconn : PgConn.parse plainUrl = some ⟨[("dbname".toList, ['a'])]⟩ := by decide
  have hzero : milliseconds halfMillisecond.value = some 0 := by decide +kernel
  have hedit : Editable id plainUrl halfMillisecond.value :=
    ⟨halfMillisecond_pos, by decide, by decide, by rw [hzero]; rfl⟩
  refine ⟨by rw [hconn]; rfl, halfMillisecond_pos, ?_⟩
  -- The URL is one that is edited, with a timeout of no milliseconds.
  obtain ⟨-, n, new, hn, hreturn, hnew⟩ | ⟨hnot, -⟩ :=
    statementTimeoutUrl_spec id halfMillisecond.value hconn
  · obtain rfl := Option.some.inj (hn.symm.trans hzero)
    rw [if_neg (by decide)] at hnew
    obtain ⟨conn', hconn', hoptions, -⟩ := hnew
    refine ⟨new, conn', hreturn, hconn', ?_⟩
    rw [hoptions, Option.bind_some, timeout_extendOptions]
    rfl
  · exact absurd hedit hnot

end Fraisier.Config
