import Mathlib.Data.List.Infix
import Mathlib.Data.List.MinMax
import Mathlib.Data.Rat.Floor
import Fraisier.Lib.PathGlob

/-!
# The latest backup

`find_latest_backup` of `restore.py`. When a compression is preferred, the newest of the dumps with
it is taken, whatever they are dumps of: the operator's pattern is used only when there is none.
`picksConfigured_iff` says when the entry is nevertheless the one that the pattern asks for.
-/

namespace Fraisier.Dbops.LatestBackup

open Fraisier.Lib Str PathGlob

/-- A file or a directory below the backup directory, with its `st_mtime`. -/
structure Entry where
  found : Found
  mtime : ℚ
  deriving DecidableEq, Repr

/-- `max(…, key=lambda p: p.stat().st_mtime)`, or `None` of no entries. -/
def newest (entries : List Entry) : Option Entry := entries.argmax Entry.mtime

/-- The pattern of the dumps with a compression. -/
def preferredPattern (algo : Str) : Str := "*_".toList ++ algo ++ ".dump".toList

/-- The dumps with the preferred compression. -/
def preferredDumps (dir : List Entry) : Option Str → Except Refusal (List Entry)
  | none => pure []
  | some algo => if algo = [] then pure [] else glob Entry.found dir (preferredPattern algo)

/-- `find_latest_backup`, of a directory with its entries in the order they are listed. -/
def findLatestBackup (dir : List Entry) (pattern : Str) (preferred : Option Str) :
    Except Refusal (Option Entry) := do
  let dumps ← preferredDumps dir preferred
  if dumps ≠ [] then return newest dumps
  return newest (← glob Entry.found dir pattern)

/-! ## The newest of the configured entries -/

/-- An entry carries a compression: from some directory on, its path is one of a dump with it. -/
def carries (algo : Str) (e : Entry) : Bool :=
  e.found.path.tails.any (standParts (components (preferredPattern algo)))

/-- The entries to choose from: those of the pattern with the preferred compression, if there are
such, or else those of the pattern. -/
def configured (matching : List Entry) : Option Str → List Entry
  | none => matching
  | some algo =>
    if algo ≠ [] ∧ matching.filter (carries algo) ≠ [] then matching.filter (carries algo)
    else matching

/-- The result is a newest one of the entries, or `None` when there are none. -/
def IsNewestOf (entries : List Entry) : Option Entry → Prop
  | none => entries = []
  | some e => e ∈ entries ∧ ∀ a ∈ entries, a.mtime ≤ e.mtime

/-- What is returned matches the pattern, and is the newest of the configured entries. -/
def PicksConfigured (dir : List Entry) (pattern : Str) (preferred : Option Str) : Prop :=
  ∀ matching, glob Entry.found dir pattern = .ok matching →
    ∃ result, findLatestBackup dir pattern preferred = .ok result ∧
      (∀ e, result = some e → e ∈ matching) ∧ IsNewestOf (configured matching preferred) result

/-- The entry is the newest, and of several the one that is listed first. -/
def FirstNewest (entries : List Entry) (e : Entry) : Prop :=
  e ∈ entries ∧ (∀ a ∈ entries, a.mtime ≤ e.mtime) ∧
    ∀ a ∈ entries, e.mtime ≤ a.mtime → entries.idxOf e ≤ entries.idxOf a

/-- The newest dump with the preferred compression in the directory itself is one of the pattern, and
none of the pattern that lies deeper is newer. When there is no such dump, the newest entry of the
pattern carries the compression unless none does. -/
structure PreferredIsConfigured (dir matching : List Entry) (algo : Str) : Prop where
  top : ∀ dumps, glob Entry.found dir (preferredPattern algo) = .ok dumps → ∀ e,
    FirstNewest dumps e → e ∈ matching ∧
      ∀ a ∈ matching, carries algo a → a ∉ dumps → a.mtime ≤ e.mtime
  deeper : glob Entry.found dir (preferredPattern algo) = .ok [] → ∀ e,
    FirstNewest matching e → (∃ a ∈ matching, carries algo a) → carries algo e

/-! ## When the pattern is kept to -/

section

variable {dir matching dumps entries : List Entry} {pattern algo : Str} {preferred : Option Str}
  {e : Entry}

/-- The newest entry is the first of the latest ones. -/
theorem newest_eq_some : newest entries = some e ↔ FirstNewest entries e := List.argmax_eq_some_iff

/-- There is no newest entry when there is none. -/
theorem newest_eq_none : newest entries = none ↔ entries = [] := List.argmax_eq_none

/-- What is found is the newest. -/
theorem isNewestOf_newest (entries : List Entry) : IsNewestOf entries (newest entries) := by
  cases h : newest entries with
  | none => exact newest_eq_none.mp h
  | some e =>
    obtain ⟨hmem, hle, -⟩ := newest_eq_some.mp h
    exact ⟨hmem, hle⟩

/-- The pattern of a compression is one that is accepted. -/
theorem parse_preferredPattern (algo : Str) : Pattern.parse (preferredPattern algo) =
    .ok { parts := components (preferredPattern algo), dirsOnly := false } := by
  have hhead : (preferredPattern algo).head? = some '*' := rfl
  have hlast : (preferredPattern algo).getLast? = some 'p' := by
    rw [preferredPattern, List.getLast?_append_of_ne_nil _ (by decide)]
    rfl
  -- its first component begins with the star
  have hkept : Kept ((preferredPattern algo).takeWhile (· ≠ '/')) := by
    have hcons : (preferredPattern algo).takeWhile (· ≠ '/') =
        '*' :: ('_' :: (algo ++ ".dump".toList)).takeWhile (· ≠ '/') := rfl
    rw [hcons]
    exact ⟨List.cons_ne_nil _ _, fun h => absurd (List.cons.inj h).1 (by decide)⟩
  have hne : components (preferredPattern algo) ≠ [] :=
    List.ne_nil_of_mem (firstComponent_mem hkept)
  rw [Pattern.parse, hhead, hlast, if_neg (by decide), if_neg hne]
  rfl

/-- What the pattern of a compression finds carries it. -/
theorem carries_of_mem (h : glob Entry.found dir (preferredPattern algo) = .ok dumps)
    (he : e ∈ dumps) : carries algo e = true := by
  rw [glob, parse_preferredPattern] at h
  obtain rfl := Except.ok.inj h
  have hstands := (List.mem_filter.mp he).2
  rw [Pattern.stands, Bool.and_eq_true] at hstands
  exact List.any_eq_true.mpr ⟨e.found.path, List.mem_tails _ _ |>.mpr List.suffix_rfl, hstands.1⟩

/-- Without a preferred compression the newest of the pattern is returned. -/
theorem findLatestBackup_of_empty (hpreferred : preferredDumps dir preferred = .ok [])
    (hmatching : glob Entry.found dir pattern = .ok matching) :
    findLatestBackup dir pattern preferred = .ok (newest matching) := by
  rw [findLatestBackup, hpreferred, hmatching]
  rfl

/-- With one, the newest of the dumps with it. -/
theorem findLatestBackup_of_dumps (hpreferred : preferredDumps dir preferred = .ok dumps)
    (hne : dumps ≠ []) : findLatestBackup dir pattern preferred = .ok (newest dumps) := by
  rw [findLatestBackup, hpreferred]
  exact if_pos hne

/-- `PicksConfigured`, of a result that is known. -/
theorem exists_result_iff {result : Option Entry}
    (h : findLatestBackup dir pattern preferred = .ok result) :
    (∃ r, findLatestBackup dir pattern preferred = .ok r ∧ (∀ e, r = some e → e ∈ matching) ∧
      IsNewestOf (configured matching preferred) r) ↔
    (∀ e, result = some e → e ∈ matching) ∧ IsNewestOf (configured matching preferred) result := by
  constructor
  · rintro ⟨r, hr, hpicks⟩
    obtain rfl := Except.ok.inj (h.symm.trans hr)
    exact hpicks
  · intro hpicks
    exact ⟨result, h, hpicks⟩

/-- The newest entry is one of the entries. -/
theorem mem_of_newest (e : Entry) (h : newest matching = some e) : e ∈ matching :=
  (newest_eq_some.mp h).1

/-- The entries that carry a preferred compression are the ones configured, if there are any. -/
theorem configured_of_carries (hne : algo ≠ []) (hsome : ∃ a ∈ matching, carries algo a) :
    configured matching (some algo) = matching.filter (carries algo) := by
  obtain ⟨a, ha, hcarries⟩ := hsome
  exact if_pos ⟨hne, List.ne_nil_of_mem (List.mem_filter.mpr ⟨ha, hcarries⟩)⟩

/-- Where no entry carries the algorithm, all stay. -/
theorem configured_of_none (hnone : ¬∃ a ∈ matching, carries algo a) :
    configured matching (some algo) = matching := by
  refine if_neg fun h => hnone ?_
  obtain ⟨a, ha⟩ := List.exists_mem_of_ne_nil _ h.2
  exact ⟨a, List.mem_filter.mp ha⟩

/-- With no dump of the compression in the directory itself, the newest of the pattern has to carry
it when one of the pattern does. -/
theorem fallback_iff (hne : algo ≠ []) :
    IsNewestOf (configured matching (some algo)) (newest matching) ↔
      ∀ e, FirstNewest matching e → (∃ a ∈ matching, carries algo a) → carries algo e := by
  constructor
  · intro h e he hsome
    rw [configured_of_carries hne hsome, newest_eq_some.mpr he] at h
    exact (List.mem_filter.mp h.1).2
  · intro h
    -- The newest of the pattern is taken only when none carries the compression.
    by_cases hsome : ∃ a ∈ matching, carries algo a
    · cases hnewest : newest matching with
      | none =>
        obtain ⟨a, ha, -⟩ := hsome
        rw [newest_eq_none.mp hnewest] at ha
        exact absurd ha List.not_mem_nil
      | some e =>
        have he := newest_eq_some.mp hnewest
        rw [configured_of_carries hne hsome]
        exact ⟨List.mem_filter.mpr ⟨he.1, h e he hsome⟩, fun a ha => he.2.1 a (List.mem_of_mem_filter ha)⟩
    · rw [configured_of_none hsome]
      exact isNewestOf_newest matching

/-- The newest dump with the compression in the directory itself has to be one of the pattern, with
none newer that lies deeper. -/
theorem preferred_iff (hne : algo ≠ [])
    (hdumps : glob Entry.found dir (preferredPattern algo) = .ok dumps) (he : FirstNewest dumps e) :
    (e ∈ matching ∧ IsNewestOf (configured matching (some algo)) (some e)) ↔
      e ∈ matching ∧ ∀ a ∈ matching, carries algo a → a ∉ dumps → a.mtime ≤ e.mtime := by
  have hcarries : carries algo e = true := carries_of_mem hdumps he.1
  refine and_congr_right fun hmem => ?_
  rw [configured_of_carries hne ⟨e, hmem, hcarries⟩]
  -- Those in the directory itself are no newer, so only the deeper ones count.
  constructor
  · intro h a ha hcarry _
    exact h.2 a (List.mem_filter.mpr ⟨ha, hcarry⟩)
  · intro h
    refine ⟨List.mem_filter.mpr ⟨hmem, hcarries⟩, fun a ha => ?_⟩
    obtain ⟨ha, hcarry⟩ := List.mem_filter.mp ha
    by_cases htop : a ∈ dumps
    · exact he.2.1 a htop
    · exact h a ha hcarry htop

/-- A directory without a dump of the compression. -/
theorem preferredIsConfigured_of_empty
    (hdumps : glob Entry.found dir (preferredPattern algo) = .ok []) :
    PreferredIsConfigured dir matching algo ↔
      ∀ e, FirstNewest matching e → (∃ a ∈ matching, carries algo a) → carries algo e := by
  constructor
  · intro h
    exact h.deeper hdumps
  · intro h
    refine ⟨fun dumps hdumps' e he => ?_, fun _ => h⟩
    obtain rfl := Except.ok.inj (hdumps.symm.trans hdumps')
    exact absurd he.1 List.not_mem_nil

/-- A directory with one. -/
theorem preferredIsConfigured_of_firstNewest
    (hdumps : glob Entry.found dir (preferredPattern algo) = .ok dumps) (he : FirstNewest dumps e) :
    PreferredIsConfigured dir matching algo ↔
      e ∈ matching ∧ ∀ a ∈ matching, carries algo a → a ∉ dumps → a.mtime ≤ e.mtime := by
  constructor
  · intro h
    exact h.top dumps hdumps e he
  · intro h
    constructor
    case top =>
      intro dumps' hdumps' e' he'
      obtain rfl := Except.ok.inj (hdumps.symm.trans hdumps')
      obtain rfl := Option.some.inj ((newest_eq_some.mpr he).symm.trans (newest_eq_some.mpr he'))
      exact h
    case deeper =>
      intro hnone
      obtain rfl := Except.ok.inj (hdumps.symm.trans hnone)
      exact absurd he.1 List.not_mem_nil

/-- What is found carries the configured algorithm when any entry does. -/
theorem exists_result_iff_preferredIsConfigured (hne : algo ≠ [])
    (hmatching : glob Entry.found dir pattern = .ok matching) :
    (∃ r, findLatestBackup dir pattern (some algo) = .ok r ∧ (∀ e, r = some e → e ∈ matching) ∧
      IsNewestOf (configured matching (some algo)) r) ↔ PreferredIsConfigured dir matching algo := by
  obtain ⟨dumps, hdumps⟩ : ∃ dumps, glob Entry.found dir (preferredPattern algo) = .ok dumps := by
    rw [glob, parse_preferredPattern]
    exact ⟨_, rfl⟩
  have hpreferred : preferredDumps dir (some algo) = .ok dumps := (if_neg hne).trans hdumps
  -- Without a dump in the directory itself the whole pattern is searched.
  cases hnewest : newest dumps with
  | none =>
    obtain rfl := newest_eq_none.mp hnewest
    rw [exists_result_iff (findLatestBackup_of_empty hpreferred hmatching),
      and_iff_right mem_of_newest, fallback_iff hne, preferredIsConfigured_of_empty hdumps]
  | some e =>
    have he := newest_eq_some.mp hnewest
    rw [exists_result_iff (findLatestBackup_of_dumps hpreferred (List.ne_nil_of_mem he.1)), hnewest]
    simp only [Option.some.injEq, forall_eq']
    rw [preferred_iff hne hdumps he, preferredIsConfigured_of_firstNewest hdumps he]

/-- The latest backup is one of the configured backups when no compression is preferred, or when the
dumps with the preferred one are of the pattern as far as it matters. -/
theorem picksConfigured_iff (dir : List Entry) (pattern : Str) (preferred : Option Str) :
    PicksConfigured dir pattern preferred ↔
      ∀ matching, glob Entry.found dir pattern = .ok matching → ∀ algo, preferred = some algo →
        algo ≠ [] → PreferredIsConfigured dir matching algo := by
  refine forall₂_congr fun matching hmatching => ?_
  -- Without a preference every dump of the pattern will do.
  by_cases hset : ∃ algo, preferred = some algo ∧ algo ≠ []
  · obtain ⟨algo, rfl, hne⟩ := hset
    rw [exists_result_iff_preferredIsConfigured hne hmatching]
    simp [hne]
  · have hpreferred : preferredDumps dir preferred = .ok [] := by
      cases preferred with
      | none => rfl
      | some algo => exact if_pos (by_contra fun h => hset ⟨algo, rfl, h⟩)
    have hconfigured : configured matching preferred = matching := by
      cases preferred with
      | none => rfl
      | some algo => exact if_neg fun h => hset ⟨algo, rfl, h.1⟩
    rw [exists_result_iff (findLatestBackup_of_empty hpreferred hmatching), hconfigured]
    refine iff_of_true ⟨mem_of_newest, isNewestOf_newest matching⟩ fun algo halgo hne => ?_
    exact absurd ⟨algo, halgo, hne⟩ hset

end

/-! ## A dump of another database -/

/-- A production dump, and an older one of staging with another compression. -/
def twoDatabases : List Entry :=
  [{ found := { path := ["production_full_20260501_0000_zstd.dump".toList] }, mtime := 2000 },
    { found := { path := ["staging_full_20260430_0000_lz4.dump".toList] }, mtime := 1000 }]

/-- The dump of staging is taken for production. -/
theorem twoDatabases_picks :
    ¬PicksConfigured twoDatabases "production_*.dump".toList (some "lz4".toList) := by
  intro h
  have hresult : findLatestBackup twoDatabases "production_*.dump".toList (some "lz4".toList) =
      .ok twoDatabases[1]? := by decide
  obtain ⟨result, hr, hmem, -⟩ := h (twoDatabases.take 1) (by decide)
  obtain rfl := Except.ok.inj (hresult.symm.trans hr)
  exact absurd (hmem _ rfl) (by decide)

end Fraisier.Dbops.LatestBackup
