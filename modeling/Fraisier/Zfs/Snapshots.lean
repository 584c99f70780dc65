import Mathlib.Data.List.Sort
import Mathlib.Data.Rat.Floor
import Fraisier.Lib.Decimal

/-!
# Snapshots

`list_snapshots` and `cleanup_old_snapshots` of `operations.py`. The creation time of a snapshot is
read with `int`, and `zfs list` is run without `-p`, so that it prints a date: no snapshot is listed
(`listSnapshots_dates`), and none is destroyed. `keepsNewest_iff` says when that is what was wanted.
-/

namespace Fraisier.Zfs

open Fraisier.Lib Str

/-! ## What fraisier does -/

/-- `Snapshot`. -/
structure Snapshot where
  name : Str
  creationTime : ℤ
  used : Str
  referenced : Str
  deriving DecidableEq, Repr

/-- `Snapshot.snapshot_name`: `none` when it raises `IndexError`. -/
def Snapshot.snapshotName (s : Snapshot) : Option Str := (s.name.splitOn '@')[1]?

/-- An entry of a listing as `_parse_list_output` returns it. -/
structure SnapData where
  name : Str
  creation : Str
  used : Str
  referenced : Str
  deriving DecidableEq, Repr

/-- A line of a listing. -/
def parseLine (line : Str) : Option SnapData :=
  if line.strip = [] then none
  else match line.splitOn '\t' with
    | [name, creation, used, referenced] => some { name, creation, used, referenced }
    | _ => none

/-- `_parse_list_output`. -/
def parseListOutput (output : Str) : List SnapData :=
  if output.strip = [] then [] else (output.strip.splitOn '\n').filterMap parseLine

/-- `Snapshot(…)` of an entry: `none` when the time is no number, and the entry is left out. -/
def SnapData.snapshot (data : SnapData) : Option Snapshot :=
  (readInt data.creation).map fun creationTime =>
    { name := data.name, creationTime, used := data.used, referenced := data.referenced }

def sortByCreation (snapshots : List Snapshot) : List Snapshot :=
  snapshots.insertionSort (·.creationTime ≤ ·.creationTime)

/-- `list_snapshots` of what `zfs list` prints: `none` when a name has no `@`. -/
def listSnapshots (stdout : Str) (start : Option Str) : Option (List Snapshot) :=
  let objects := (parseListOutput stdout).filterMap (·.snapshot)
  let wanted := match start with
    | none | some [] => some objects
    | some start => objects.filterM fun s => s.snapshotName.map (Str.startsWith · start)
  wanted.map sortByCreation

/-- A snapshot is older than the maximum age, which is given in seconds. -/
def tooOld (maxAge : Option ℚ) (now creation : ℤ) : Bool :=
  maxAge.any (· < ((now - creation : ℤ) : ℚ))

/-- `snapshots_to_delete`. -/
def snapshotsToDelete (snapshots : List Snapshot) (keepCount : ℕ) (maxAge : Option ℚ) (now : ℤ) :
    List Snapshot :=
  let aged := snapshots.filter (tooOld maxAge now ·.creationTime)
  let remaining := snapshots.filter (· ∉ aged)
  let sorted := sortByCreation remaining
  aged ++
    if remaining.length > keepCount ∨ keepCount = 0 then
      if keepCount = 0 then sorted else sorted.take (sorted.length - keepCount)
    else []

/-! ## What `zfs` does -/

/-- A snapshot in a pool. -/
structure Held where
  dataset : Str
  label : Str
  creation : ℤ
  used : Str
  referenced : Str
  /-- A dataset begins with the name of its pool. -/
  begins : ∃ c rest, dataset = c :: rest ∧ isSpace c = false
  names : ∀ c ∈ dataset ++ label, c ∉ ['\t', '\n', '@']
  sizes : ∀ c ∈ used ++ referenced, isSpace c = false
  ends : referenced ≠ []
  deriving DecidableEq

def Held.name (s : Held) : Str := s.dataset ++ '@' :: s.label

/-- A time as the calendar of the host has it, with the names of the day and the month in its
language. -/
structure CivilTime where
  weekday : Str
  month : Str
  day : ℕ
  hour : ℕ
  minute : ℕ
  year : ℕ
  names : ∀ c ∈ weekday ++ month, c ∉ ['\t', '\n']

/-- A number with two places. -/
def padded (pad : Char) (n : ℕ) : Str :=
  List.replicate (2 - (Nat.toDigits 10 n).length) pad ++ Nat.toDigits 10 n

/-- The date that is printed without `-p`: `%a %b %e %k:%M %Y`. -/
def CivilTime.text (t : CivilTime) : Str :=
  t.weekday ++ ' ' :: t.month ++ ' ' :: padded ' ' t.day ++ ' ' :: padded ' ' t.hour ++
    ':' :: padded '0' t.minute ++ ' ' :: Nat.toDigits 10 t.year

/-- A line of `zfs list -H -o name,creation,used,referenced`, with the creation as it is shown. -/
def Held.line (shown : ℤ → Str) (s : Held) : Str :=
  ['\t'].intercalate [s.name, shown s.creation, s.used, s.referenced]

/-- What `zfs list` prints of the snapshots. -/
def listing (shown : ℤ → Str) (pool : List Held) : Str :=
  pool.flatMap fun s => s.line shown ++ ['\n']

/-- The pool and the list of names, in the course of the deletions. -/
structure Progress where
  pool : List Held
  deleted : List Str := []

/-- A deletion, where `succeeds` says whether `zfs destroy` of a snapshot does. -/
def destroy (succeeds : Str → Bool) (p : Progress) (s : Snapshot) : Progress :=
  if succeeds s.name then
    { pool := p.pool.filter (·.name ≠ s.name), deleted := p.deleted ++ [s.name] }
  else p

/-- `cleanup_old_snapshots`. -/
def cleanupOldSnapshots (succeeds : Str → Bool) (shown : ℤ → Str) (pool : List Held) (keepCount : ℕ)
    (start : Option Str) (maxAge : Option ℚ) (now : ℤ) : Option Progress := do
  let snapshots ← listSnapshots (listing shown pool) start
  return (snapshotsToDelete snapshots keepCount maxAge now).foldl (destroy succeeds) { pool }

/-! ## The snapshots that are kept -/

/-- The name of the snapshot has the prefix. -/
def Held.hasPrefix (start : Option Str) (s : Held) : Bool := start.all (Str.startsWith s.label ·)

/-- What is left of a pool: of the snapshots with the prefix the newest `keepCount` of those that are
not too old, and the others. The list names what was destroyed. -/
structure KeepsNewest (pool : List Held) (keepCount : ℕ) (start : Option Str) (maxAge : Option ℚ)
    (now : ℤ) (after : Progress) : Prop where
  young : ∀ s ∈ after.pool, s.hasPrefix start → s ∈ pool ∧ tooOld maxAge now s.creation = false
  count : (after.pool.filter (·.hasPrefix start)).length = min keepCount
    (pool.filter fun s => s.hasPrefix start && !tooOld maxAge now s.creation).length
  newest : ∀ s ∈ after.pool, s.hasPrefix start → ∀ t ∈ pool, t.hasPrefix start →
    tooOld maxAge now t.creation = false → t ∉ after.pool → t.creation ≤ s.creation
  others : after.pool.filter (!·.hasPrefix start) = pool.filter (!·.hasPrefix start)
  named : ∀ n, n ∈ after.deleted ↔ ∃ s ∈ pool, s ∉ after.pool ∧ s.name = n

/-- No snapshot with the prefix is too old, and there are no more of them than are to be kept. -/
structure NothingToDo (pool : List Held) (keepCount : ℕ) (start : Option Str) (maxAge : Option ℚ)
    (now : ℤ) : Prop where
  young : ∀ s ∈ pool, s.hasPrefix start → tooOld maxAge now s.creation = false
  few : (pool.filter (·.hasPrefix start)).length ≤ keepCount

/-- The newest are kept when every deletion succeeds and `zfs list` prints dates of the calendar. -/
def Cleans (calendar : ℤ → CivilTime) (pool : List Held) (keepCount : ℕ) (start : Option Str)
    (maxAge : Option ℚ) (now : ℤ) : Prop :=
  ∃ after, cleanupOldSnapshots (fun _ => true) (fun t => (calendar t).text) pool keepCount start
    maxAge now = some after ∧ KeepsNewest pool keepCount start maxAge now after

/-! ## Listings are read back -/

section Listings

variable {shown : ℤ → Str} {pool : List Held} {s : Held} {text : Str}

/-- A text with no blank at its ends, and more than blanks in it. -/
structure Solid (text : Str) : Prop where
  head : ∃ c rest, text = c :: rest ∧ isSpace c = false
  last : ∃ c rest, text = rest ++ [c] ∧ isSpace c = false

/-- Spaces around a solid text are stripped. -/
theorem Solid.strip_around (h : Solid text) (before after : Str)
    (hbefore : ∀ c ∈ before, isSpace c = true) (hafter : ∀ c ∈ after, isSpace c = true) :
    (before ++ (text ++ after)).strip = text := by
  obtain ⟨c, rest, htext, hc⟩ := h.head
  obtain ⟨d, rest', htext', hd⟩ := h.last
  refine stripBy_eq hbefore hafter (fun c' r heq => ?_) fun d' r heq => ?_
  · rw [htext] at heq
    rwa [← (List.cons.inj heq).1]
  · rw [htext'] at heq
    rwa [← List.singleton_inj.mp (List.append_inj' heq rfl).2]

/-- A solid text has no space at either end. -/
theorem Solid.strip_eq (h : Solid text) : text.strip = text := by
  simpa using h.strip_around [] [] nofun nofun

/-- A solid text is not empty. -/
theorem Solid.ne_nil (h : Solid text) : text ≠ [] := by
  obtain ⟨c, rest, rfl, -⟩ := h.head
  exact List.cons_ne_nil c rest

/-- Lines that are solid are so together. -/
theorem Solid.intercalate (sep : Str) {lines : List Str} (hne : lines ≠ [])
    (h : ∀ line ∈ lines, Solid line) : Solid (sep.intercalate lines) := by
  -- Induction on the lines: what is joined begins with the first and ends with the last.
  induction lines with
  | nil => exact absurd rfl hne
  | cons line lines ih =>
    have hline := h line List.mem_cons_self
    by_cases hnil : lines = []
    · rw [hnil, List.intercalate_singleton]
      exact hline
    · have hrest := ih hnil fun l hl => h l (List.mem_cons_of_mem line hl)
      rw [List.intercalate_cons_of_ne_nil hnil]
      constructor
      case head =>
        obtain ⟨c, r, hr, hc⟩ := hline.head
        exact ⟨c, _, by rw [hr, List.cons_append, List.cons_append], hc⟩
      case last =>
        obtain ⟨c, r, hr, hc⟩ := hrest.last
        exact ⟨c, _, by rw [hr, ← List.append_assoc], hc⟩

/-- The line of a snapshot is solid. -/
theorem Held.solid_line (shown : ℤ → Str) (s : Held) : Solid (s.line shown) := by
  constructor
  case head =>
    obtain ⟨c, rest, hdataset, hc⟩ := s.begins
    refine ⟨c, (s.line shown).tail, ?_, hc⟩
    simp [Held.line, Held.name, hdataset, List.intercalate_cons_cons]
  case last =>
    obtain ⟨rest, c, hsize⟩ := List.eq_nil_or_concat s.referenced |>.resolve_left s.ends
    have hc : c ∈ s.used ++ s.referenced := by simp [hsize]
    refine ⟨c, s.name ++ ['\t'] ++ shown s.creation ++ ['\t'] ++ s.used ++ ['\t'] ++ rest, ?_,
      s.sizes c hc⟩
    simp [Held.line, List.intercalate_cons_cons, hsize]

/-- The texts of a line have no character in them that ends one of them. -/
theorem Held.notMem_texts (hshown : ∀ c ∈ shown s.creation, c ∉ ['\t', '\n']) :
    ∀ text ∈ [s.name, shown s.creation, s.used, s.referenced], ∀ c ∈ text, c ∉ ['\t', '\n'] := by
  -- A name is the dataset's and the label's, and neither holds a blank.
  have hname : ∀ c ∈ s.name, c ∉ ['\t', '\n'] := by
    intro c hc
    rw [Held.name, List.mem_append, List.mem_cons] at hc
    by_cases hat : c = '@'
    · subst hat
      decide
    · have hin : c ∈ s.dataset ++ s.label :=
        List.mem_append.mpr (hc.imp id fun h => h.resolve_left hat)
      have hnot := s.names c hin
      simp only [List.mem_cons, not_or] at hnot ⊢
      exact ⟨hnot.1, hnot.2.1, List.not_mem_nil⟩
  -- A size holds no space at all.
  have hsizes : ∀ c ∈ s.used ++ s.referenced, c ∉ ['\t', '\n'] := by
    intro c hc hbreak
    have hspace := s.sizes c hc
    rcases List.mem_cons.mp hbreak with rfl | hbreak
    · exact absurd hspace (by decide)
    · rw [List.mem_singleton.mp hbreak] at hspace
      exact absurd hspace (by decide)
  simp only [List.forall_mem_cons]
  exact ⟨hname, hshown, fun c hc => hsizes c (List.mem_append_left _ hc),
    fun c hc => hsizes c (List.mem_append_right _ hc), List.forall_mem_nil _⟩

/-- A line of a listing is read back. -/
theorem parseLine_line (hshown : ∀ c ∈ shown s.creation, c ∉ ['\t', '\n']) :
    parseLine (s.line shown) = some { name := s.name, creation := shown s.creation, used := s.used
                                      referenced := s.referenced } := by
  have hsplit : (s.line shown).splitOn '\t' = [s.name, shown s.creation, s.used, s.referenced] :=
    List.splitOn_intercalate '\t' (fun text htext hmem =>
      Held.notMem_texts hshown text htext '\t' hmem List.mem_cons_self) (List.cons_ne_nil _ _)
  have hstrip : (s.line shown).strip ≠ [] := by
    rw [(s.solid_line shown).strip_eq]
    exact (s.solid_line shown).ne_nil
  rw [parseLine, if_neg hstrip, hsplit]

/-- The line of a snapshot breaks nowhere. -/
theorem newline_notMem_line (hshown : ∀ c ∈ shown s.creation, c ∉ ['\t', '\n']) :
    '\n' ∉ s.line shown := by
  intro h
  obtain ⟨text, htext, hmem⟩ := exists_mem_of_mem_intercalate (by decide) h
  exact Held.notMem_texts hshown text htext '\n' hmem (by decide)

/-- A listing is its lines, and a newline after the last. -/
theorem listing_eq_intercalate (hne : pool ≠ []) :
    listing shown pool = ['\n'].intercalate (pool.map (·.line shown)) ++ ['\n'] := by
  induction pool with
  | nil => exact absurd rfl hne
  | cons s pool ih =>
    by_cases hnil : pool = []
    · rw [hnil]
      simp [listing]
    · have hlines : pool.map (·.line shown) ≠ [] := by simpa using hnil
      rw [listing, List.flatMap_cons, List.map_cons, List.intercalate_cons_of_ne_nil hlines,
        List.append_assoc _ _ ['\n'], ← ih hnil]
      rfl

/-- What is read of a listing is what it was printed of. -/
theorem parseListOutput_listing (hshown : ∀ t, ∀ c ∈ shown t, c ∉ ['\t', '\n'])
    (pool : List Held) : parseListOutput (listing shown pool) = pool.map fun s =>
      { name := s.name, creation := shown s.creation, used := s.used, referenced := s.referenced } := by
  by_cases hnil : pool = []
  · rw [hnil]
    rfl
  · have hlines : pool.map (·.line shown) ≠ [] := by simpa using hnil
    -- The listing begins and ends with a character that is no blank, so stripping leaves it.
    have hsolid : Solid (['\n'].intercalate (pool.map (·.line shown))) := by
      refine .intercalate ['\n'] hlines fun line hline => ?_
      obtain ⟨s, -, rfl⟩ := List.mem_map.mp hline
      exact s.solid_line shown
    have hstrip : (listing shown pool).strip = ['\n'].intercalate (pool.map (·.line shown)) := by
      rw [listing_eq_intercalate hnil]
      exact hsolid.strip_around [] ['\n'] nofun (List.forall_mem_singleton.mpr rfl)
    -- No text of a line holds a break, so the lines are cut where they were joined.
    have hsplit : (['\n'].intercalate (pool.map (·.line shown))).splitOn '\n' =
        pool.map (·.line shown) := by
      refine List.splitOn_intercalate '\n' (fun line hline => ?_) hlines
      obtain ⟨s, -, rfl⟩ := List.mem_map.mp hline
      exact newline_notMem_line (hshown s.creation)
    rw [parseListOutput, hstrip, if_neg hsolid.ne_nil, hsplit, List.filterMap_map]
    simp only [Function.comp_def, parseLine_line (hshown _)]
    exact congrFun List.filterMap_eq_map pool

end Listings

/-! ## Dates are not -/

section Dates

variable {calendar : ℤ → CivilTime} {pool : List Held} {keepCount : ℕ} {start : Option Str}
  {maxAge : Option ℚ} {now : ℤ}

/-- The digits of a number hold no tab and no newline. -/
theorem notMem_toDigits {n : ℕ} {c : Char} (hc : c ∈ Nat.toDigits 10 n) : c ∉ ['\t', '\n'] := by
  have hdigit := Nat.isDigit_of_mem_toDigits (by decide) (by decide) hc
  intro h
  rcases List.mem_cons.mp h with rfl | h
  · exact absurd hdigit (by decide)
  · rw [List.mem_singleton.mp h] at hdigit
    exact absurd hdigit (by decide)

/-- A padded number holds no tab and no newline. -/
theorem notMem_padded {pad : Char} (hpad : pad ∉ ['\t', '\n']) {n : ℕ} {c : Char}
    (hc : c ∈ padded pad n) : c ∉ ['\t', '\n'] := by
  rcases List.mem_append.mp hc with hc | hc
  · rwa [List.eq_of_mem_replicate hc]
  · exact notMem_toDigits hc

/-- A time's text holds no tab and no newline. -/
theorem CivilTime.notMem_text (t : CivilTime) : ∀ c ∈ t.text, c ∉ ['\t', '\n'] := by
  intro c hc
  have hspace : ' ' ∉ ['\t', '\n'] := by decide
  simp only [CivilTime.text, List.mem_append, List.mem_cons] at hc
  -- The parts of the text are names, numbers and separators.
  rcases hc with ((((hc | rfl | hc) | rfl | hc) | rfl | hc) | rfl | hc) | rfl | hc
  · exact t.names c (List.mem_append_left _ hc)
  · exact hspace
  · exact t.names c (List.mem_append_right _ hc)
  · exact hspace
  · exact notMem_padded hspace hc
  · exact hspace
  · exact notMem_padded hspace hc
  · decide
  · exact notMem_padded (by decide) hc
  · exact hspace
  · exact notMem_toDigits hc

/-- A date has a colon in it and is not read as a number. -/
theorem CivilTime.readInt_text (t : CivilTime) : readInt t.text = none :=
  readInt_eq_none (c := ':') (by decide) (by decide) (by decide) (by simp [CivilTime.text])

/-- Of a listing with dates nothing is kept. -/
theorem listSnapshots_dates (calendar : ℤ → CivilTime) (pool : List Held) (start : Option Str) :
    listSnapshots (listing (fun t => (calendar t).text) pool) start = some [] := by
  have hobjects : ((parseListOutput (listing (fun t => (calendar t).text) pool)).filterMap
      (·.snapshot)) = [] := by
    rw [parseListOutput_listing fun t => (calendar t).notMem_text, List.filterMap_map,
      List.filterMap_eq_nil_iff]
    intro s _
    rw [Function.comp_apply, SnapData.snapshot, CivilTime.readInt_text, Option.map_none]
  unfold listSnapshots
  rw [hobjects]
  cases start with
  | none => rfl
  | some start => cases start <;> rfl

/-- Nothing is destroyed. -/
theorem cleanupOldSnapshots_dates (succeeds : Str → Bool) :
    cleanupOldSnapshots succeeds (fun t => (calendar t).text) pool keepCount start maxAge now =
      some { pool } := by
  have hnone : snapshotsToDelete [] keepCount maxAge now = [] := by
    simp [snapshotsToDelete, sortByCreation]
  rw [cleanupOldSnapshots, listSnapshots_dates, Option.bind_eq_bind, Option.bind_some, hnone]
  rfl

/-- Where no snapshot is too old, those of the prefix stay. -/
theorem filter_young (h : ∀ s ∈ pool, s.hasPrefix start → tooOld maxAge now s.creation = false) :
    (pool.filter fun s => s.hasPrefix start && !tooOld maxAge now s.creation) =
      pool.filter (·.hasPrefix start) := by
  refine List.filter_congr fun s hs => ?_
  cases hprefix : s.hasPrefix start with
  | false => rfl
  | true => rw [h s hs hprefix]; rfl

/-- The cleanup does what it is for exactly when there is nothing to do. -/
theorem cleans_iff (calendar : ℤ → CivilTime) (pool : List Held) (keepCount : ℕ)
    (start : Option Str) (maxAge : Option ℚ) (now : ℤ) :
    Cleans calendar pool keepCount start maxAge now ↔
      NothingToDo pool keepCount start maxAge now := by
  rw [Cleans, cleanupOldSnapshots_dates]
  constructor
  · rintro ⟨after, hafter, hkeeps⟩
    obtain rfl := Option.some.inj hafter
    -- What is kept is too young to go.
    have hyoung : ∀ s ∈ pool, s.hasPrefix start → tooOld maxAge now s.creation = false :=
      fun s hs hprefix => (hkeeps.young s hs hprefix).2
    have hcount := hkeeps.count
    rw [filter_young hyoung] at hcount
    exact ⟨hyoung, by rw [hcount]; exact min_le_left _ _⟩
  · rintro ⟨hyoung, hfew⟩
    refine ⟨_, rfl, ?_⟩
    constructor
    case young => exact fun s hs hprefix => ⟨hs, hyoung s hs hprefix⟩
    case count => rw [filter_young hyoung, min_eq_right hfew]
    case newest => exact fun s _ _ t ht _ _ hgone => absurd ht hgone
    case others => rfl
    case named =>
      intro n
      constructor
      · exact fun h => absurd h List.not_mem_nil
      · rintro ⟨s, hs, hgone, -⟩
        exact absurd hs hgone

end Dates

/-! ## One snapshot too many -/

def firstSnapshot : Held where
  dataset := "tank/db".toList
  label := "snap_1".toList
  creation := 1640995200
  used := "1.0G".toList
  referenced := "512M".toList
  begins := ⟨'t', "ank/db".toList, rfl, by decide⟩
  names := by simp
  sizes := by simp [isSpace, inRanges]
  ends := by decide

/-- A calendar that stands still. -/
def newYear (_ : ℤ) : CivilTime where
  weekday := "Sat".toList
  month := "Jan".toList
  day := 1
  hour := 1
  minute := 0
  year := 2022
  names := by simp

/-- It, and another one. -/
def twoSnapshots : List Held :=
  [firstSnapshot, { firstSnapshot with label := "snap_2".toList, names := by simp [firstSnapshot] }]

/-- Of the two snapshots one is to be kept, and both are. -/
theorem twoSnapshots_stay : ¬Cleans newYear twoSnapshots 1 none none 1641168000 := by
  rintro ⟨after, hafter, hkeeps⟩
  rw [cleanupOldSnapshots_dates] at hafter
  obtain rfl := Option.some.inj hafter
  exact absurd hkeeps.count (by decide)

end Fraisier.Zfs
