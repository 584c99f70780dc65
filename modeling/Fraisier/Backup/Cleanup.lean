import Mathlib.Algebra.Order.Ring.Rat
import Mathlib.Data.List.Sort
import Fraisier.Lib.Fallible
import Fraisier.Backup.Dump

/-!
# `cleanup_old_backups`

The prune of a directory of dumps: the age rule, the floor (`keep_minimum`), which exempts the newest
dumps from it, and the ceiling (`keep_last`). The walk goes from the newest dump to the oldest and
counts the slots that are taken. What is looked at is an entry of the directory as it is there: a dump,
or a symbolic link, which may lead out of the directory, or to a dump in it that the walk has removed
by then.
-/

namespace Fraisier.Backup.Cleanup

open Fraisier.Lib Fallible

/-! ## The corpus -/

/-- A symbolic link. -/
structure Link where
  /-- What it leads to is in the directory. -/
  inside : Bool
  /-- It leads to a directory. -/
  toDir : Bool
  /-- The other entries of the directory that it leads through. -/
  through : List Str
  deriving DecidableEq

/-- An entry that the pattern finds: a dump, or a link. -/
structure Candidate where
  /-- `str(f)`. -/
  path : Str
  /-- `f.stat().st_mtime`. -/
  mtime : ℚ
  /-- What `verify_archive` says of it, while what it leads to is there. -/
  verdict : ArchiveVerdict
  link : Option Link := none
  /-- It cannot be removed. -/
  stuck : Bool := false
  deriving DecidableEq

/-- What the entry leads through. -/
def Candidate.through (c : Candidate) : List Str := (c.link.map (·.through)).getD []

/-- `f.resolve().is_relative_to(resolved_root)`. -/
def Candidate.inside (c : Candidate) : Bool := (c.link.map (·.inside)).getD true

/-- What the entry leads to is there. -/
def Candidate.present (gone : List Str) (c : Candidate) : Bool := c.through.all fun p => p ∉ gone

/-- `f.unlink()` or `shutil.rmtree(f)` raises: `rmtree` refuses a link. -/
def Candidate.removalRaises (gone : List Str) (c : Candidate) : Bool :=
  c.stuck || (c.link.map (·.toDir)).getD false && c.present gone

/-- `ArchiveCheck.is_bad`. -/
def isBad (verdict : ArchiveVerdict) : Bool := verdict = .invalid

/-- `verify_archive`, when some entries are gone. -/
def verifyArchive (gone : List Str) (c : Candidate) : ArchiveVerdict :=
  if c.present gone then c.verdict else .unverifiable

/-- What `backup_dir.glob(match)` finds, in its order. -/
structure Corpus where
  entries : List Candidate
  nodup : (entries.map (·.path)).Nodup
  /-- What leads through an entry leads through what that entry leads through. -/
  through : ∀ c ∈ entries, ∀ d ∈ entries, d.path ∈ c.through → ∀ p ∈ d.through, p ∈ c.through

/-- `_candidates`: newest first, and in the order of the pattern where two are of one time. -/
def candidates (corpus : Corpus) : List Candidate :=
  corpus.entries.insertionSort fun a b => b.mtime ≤ a.mtime

/-! ## The walk -/

/-- The arguments of `cleanup_old_backups`. -/
structure Rules where
  retentionHours : Option ℤ := none
  keepMinimum : ℤ := 0
  keepLast : Option ℤ := none
  dryRun : Bool := false

/-- The time before which a dump is past its retention, where there is an age rule. -/
def Rules.cutoff (rules : Rules) (now : ℚ) : Option ℚ :=
  rules.retentionHours.map fun hours => now - hours * 3600

/-- `within_retention`. -/
def within (cutoff : Option ℚ) (c : Candidate) : Bool := cutoff.all (· ≤ c.mtime)

/-- `CleanupOutcome`. -/
structure CleanupOutcome where
  removed : List Str := []
  kept : List Str := []
  exemptedByMinimum : List Str := []
  invalid : List Str := []
  removedByCeiling : List Str := []
  deriving DecidableEq

/-- `CleanupOutcome.floor_was_load_bearing`. -/
def CleanupOutcome.floorWasLoadBearing (o : CleanupOutcome) : Bool :=
  !o.exemptedByMinimum.isEmpty && o.kept.isEmpty

/-- What the loop keeps: its lists, the slots taken, and what is gone from the disk. -/
structure Walk where
  outcome : CleanupOutcome := {}
  slots : ℕ := 0
  gone : List Str := []

/-- `beyond_ceiling`: the ceiling is full. -/
def Rules.beyondCeiling (rules : Rules) (slots : ℕ) : Bool :=
  rules.keepLast.any fun n => decide (n ≤ (slots : ℤ))

/-- What is raised. -/
inductive CleanupError
  | valueError | osError
  deriving DecidableEq, Repr

/-- The end of the loop's body: the entry is removed, unless it leads out of the directory. -/
def remove (rules : Rules) (cutoff : Option ℚ) (w : Walk) (c : Candidate) :
    Except CleanupError Walk :=
  if !c.inside then .ok w
  else if !rules.dryRun && c.removalRaises w.gone then .error .osError
  else .ok { w with
    outcome := { w.outcome with
      removed := w.outcome.removed ++ [c.path]
      removedByCeiling :=
        if within cutoff c then w.outcome.removedByCeiling ++ [c.path]
        else w.outcome.removedByCeiling }
    gone := if rules.dryRun then w.gone else w.gone ++ [c.path] }

/-- The loop's body. -/
def visit (verify : List Str → Candidate → ArchiveVerdict) (rules : Rules) (cutoff : Option ℚ)
    (w : Walk) (c : Candidate) : Except CleanupError Walk :=
  let beyondCeiling := rules.beyondCeiling w.slots
  if within cutoff c && !beyondCeiling then
    .ok { w with outcome := { w.outcome with kept := w.outcome.kept ++ [c.path] }
                 slots := w.slots + 1 }
  else if !beyondCeiling && w.slots < rules.keepMinimum then
    if isBad (verify w.gone c) then
      remove rules cutoff
        { w with outcome := { w.outcome with invalid := w.outcome.invalid ++ [c.path] } } c
    else
      .ok { w with
        outcome := { w.outcome with exemptedByMinimum := w.outcome.exemptedByMinimum ++ [c.path] }
        slots := w.slots + 1 }
  else remove rules cutoff w c

/-- `keep_last` is accepted. -/
def Rules.Accepted (rules : Rules) : Prop :=
  ∀ n, rules.keepLast = some n → 1 ≤ n ∧ rules.keepMinimum ≤ n

instance (rules : Rules) : Decidable rules.Accepted :=
  decidable_of_iff (rules.keepLast.all fun n => 1 ≤ n ∧ rules.keepMinimum ≤ n) (by
    unfold Rules.Accepted
    cases rules.keepLast <;> simp)

/-- The loop of `cleanup_old_backups`, with the answers of `verify_archive` as given. -/
def walk (verify : List Str → Candidate → ArchiveVerdict) (corpus : Corpus) (rules : Rules)
    (now : ℚ) : Except CleanupError Walk :=
  if rules.Accepted then
    (candidates corpus).foldlM (visit verify rules (rules.cutoff now)) {}
  else .error .valueError

/-- `cleanup_old_backups`: the outcome, and what is gone from the disk. -/
def cleanupOldBackups (corpus : Corpus) (rules : Rules) (now : ℚ) :
    Except CleanupError (CleanupOutcome × List Str) :=
  (walk verifyArchive corpus rules now).map fun w => (w.outcome, w.gone)

/-- A verification that never answers "bad". -/
def neverBad (_ : List Str) (_ : Candidate) : ArchiveVerdict := .unverifiable

/-- `cleanup_old_backups` where verification never answers "bad". -/
def blindCleanup (corpus : Corpus) (rules : Rules) (now : ℚ) :
    Except CleanupError (CleanupOutcome × List Str) :=
  (walk neverBad corpus rules now).map fun w => (w.outcome, w.gone)

/-! ## What the walk decides -/

/-- What becomes of an entry. -/
inductive Fate
  | kept | exempted | refused | removed
  deriving DecidableEq

/-- An entry, what becomes of it, and whether the floor found it invalid. -/
structure Ruling where
  entry : Candidate
  fate : Fate
  rejected : Bool

/-- The entry takes a slot. -/
def Ruling.holds (r : Ruling) : Bool := r.fate = .kept ∨ r.fate = .exempted

/-- The slots that are taken. -/
def slotsOf (log : List Ruling) : ℕ := log.countP (·.holds)

/-- The entries of one fate. -/
def ofFate (fate : Fate) (log : List Ruling) : List Str :=
  (log.filter fun r => r.fate = fate).map (·.entry.path)

/-- What is gone from the disk. -/
def goneOf (rules : Rules) (log : List Ruling) : List Str :=
  if rules.dryRun then [] else ofFate .removed log

section Decide

variable (verify : List Str → Candidate → ArchiveVerdict) (rules : Rules) (cutoff : Option ℚ)

/-- The floor has a slot for the entry, if it is a dump that may hold one. -/
def contests (log : List Ruling) (c : Candidate) : Bool :=
  !within cutoff c && !rules.beyondCeiling (slotsOf log) && decide (slotsOf log < rules.keepMinimum)

/-- The ruling on an entry, after those on the newer ones. -/
def ruling (log : List Ruling) (c : Candidate) : Ruling where
  entry := c
  fate :=
    if within cutoff c && !rules.beyondCeiling (slotsOf log) then .kept
    else if contests rules cutoff log c && !isBad (verify (goneOf rules log) c) then .exempted
    else if c.inside then .removed
    else .refused
  rejected := contests rules cutoff log c && isBad (verify (goneOf rules log) c)

/-- The rulings on entries, in their order. -/
def rulings (cs : List Candidate) : List Ruling :=
  cs.foldl (fun log c => log ++ [ruling verify rules cutoff log c]) []

/-- The loop's variables after some rulings. -/
def walkOf (log : List Ruling) : Walk where
  outcome := {
    removed := ofFate .removed log
    kept := ofFate .kept log
    exemptedByMinimum := ofFate .exempted log
    invalid := (log.filter (·.rejected)).map (·.entry.path)
    removedByCeiling := ofFate .removed (log.filter fun r => within cutoff r.entry) }
  slots := slotsOf log
  gone := goneOf rules log

end Decide

section

variable {verify : List Str → Candidate → ArchiveVerdict} {rules : Rules} {cutoff : Option ℚ}
  {log log' : List Ruling} {c : Candidate}

/-- One more ruling is listed at the end of its fate. -/
@[simp] theorem ofFate_snoc (fate : Fate) (log : List Ruling) (r : Ruling) :
    ofFate fate (log ++ [r]) = ofFate fate log ++ if r.fate = fate then [r.entry.path] else [] := by
  unfold ofFate
  by_cases h : r.fate = fate <;> simp [h]

/-- One more ruling takes a slot when it holds one. -/
@[simp] theorem slotsOf_snoc (log : List Ruling) (r : Ruling) :
    slotsOf (log ++ [r]) = slotsOf log + if r.holds then 1 else 0 := by
  unfold slotsOf
  rw [List.countP_append, List.countP_singleton]

/-- One more ruling is gone when it is removed for real. -/
@[simp] theorem goneOf_snoc (log : List Ruling) (r : Ruling) :
    goneOf rules (log ++ [r]) =
      goneOf rules log ++ if !rules.dryRun ∧ r.fate = .removed then [r.entry.path] else [] := by
  unfold goneOf
  cases rules.dryRun <;> simp

/-- A ruling is on its entry. -/
@[simp] theorem ruling_entry (log : List Ruling) (c : Candidate) :
    (ruling verify rules cutoff log c).entry = c := rfl

/-- No candidates give no rulings. -/
@[simp] theorem rulings_nil : rulings verify rules cutoff [] = [] := rfl

/-- One more candidate is ruled on after the others. -/
@[simp] theorem rulings_snoc (cs : List Candidate) (c : Candidate) :
    rulings verify rules cutoff (cs ++ [c]) =
      rulings verify rules cutoff cs ++
        [ruling verify rules cutoff (rulings verify rules cutoff cs) c] := by
  unfold rulings
  rw [List.foldl_append]
  rfl

/-- A walk counts the slots of its log. -/
@[simp] theorem walkOf_slots (log : List Ruling) :
    (walkOf rules cutoff log).slots = slotsOf log := rfl

/-- A walk knows what of its log is gone. -/
@[simp] theorem walkOf_gone (log : List Ruling) :
    (walkOf rules cutoff log).gone = goneOf rules log := rfl

/-- A walk starts empty. -/
theorem walkOf_nil : walkOf rules cutoff [] = {} := by
  unfold walkOf goneOf
  cases rules.dryRun <;> rfl

/-- Removing an entry, from a state whose list of the invalid has it or not. -/
theorem remove_eq (log : List Ruling) (r : Ruling) (w : Walk)
    (hfate : r.fate = if r.entry.inside then .removed else .refused)
    (hw : w = { walkOf rules cutoff log with
      outcome := { (walkOf rules cutoff log).outcome with
        invalid := ((log ++ [r]).filter (·.rejected)).map (·.entry.path) } }) :
    remove rules cutoff w r.entry =
      if r.fate = .removed ∧ !rules.dryRun ∧ r.entry.removalRaises (goneOf rules log) then
        .error .osError
      else .ok (walkOf rules cutoff (log ++ [r])) := by
  subst hw
  unfold remove
  -- What lies inside the directory is removed, or cannot be.
  by_cases hinside : r.entry.inside = true
  · have hremoved : r.fate = .removed := by rw [hfate, if_pos hinside]
    simp only [hinside, Bool.not_true, Bool.false_eq_true, if_false, hremoved, true_and]
    by_cases hraises : (!rules.dryRun) = true ∧ r.entry.removalRaises (goneOf rules log) = true
    · rw [if_pos hraises, if_pos (by simpa [walkOf] using hraises)]
    · rw [if_neg hraises, if_neg (by simpa [walkOf] using hraises)]
      unfold walkOf
      cases hdry : rules.dryRun <;> cases hwithin : within cutoff r.entry <;>
        simp [Ruling.holds, hremoved, hdry, hwithin, List.filter_append]
  -- What lies outside is refused.
  · have hrefused : r.fate = .refused := by rw [hfate, if_neg hinside]
    simp only [Bool.not_eq_true] at hinside
    simp only [hinside, Bool.not_false, if_true, hrefused, reduceCtorEq, false_and, if_false]
    unfold walkOf
    cases hwithin : within cutoff r.entry <;>
      simp [Ruling.holds, hrefused, hwithin, List.filter_append]

/-- The loop's body is the ruling on the entry, and raises where the entry cannot be removed. -/
theorem visit_eq (log : List Ruling) (c : Candidate) :
    visit verify rules cutoff (walkOf rules cutoff log) c =
      if (ruling verify rules cutoff log c).fate = .removed ∧ !rules.dryRun ∧
          c.removalRaises (goneOf rules log) then .error .osError
      else .ok (walkOf rules cutoff (log ++ [ruling verify rules cutoff log c])) := by
  unfold visit
  dsimp only
  -- An entry within the retention is kept while there are slots.
  by_cases hkept : (within cutoff c && !rules.beyondCeiling (slotsOf log)) = true
  · have hfate : (ruling verify rules cutoff log c).fate = .kept := if_pos hkept
    rw [if_pos (by exact hkept), hfate, if_neg (by simp)]
    obtain ⟨hwithin, -⟩ := Bool.and_eq_true_iff.mp hkept
    have hrejected : (ruling verify rules cutoff log c).rejected = false := by
      simp [ruling, contests, hwithin]
    unfold walkOf
    simp [hfate, hrejected, hwithin, Ruling.holds, List.filter_append]
  rw [if_neg (by exact hkept)]
  -- Only an entry that may have a slot of the floor contests it.
  have hsame : (!rules.beyondCeiling (slotsOf log) && decide ((slotsOf log : ℤ) < rules.keepMinimum)) =
      contests rules cutoff log c := by
    unfold contests
    cases hwithin : within cutoff c <;> cases hbeyond : rules.beyondCeiling (slotsOf log) <;>
      simp_all
  have hfate : (ruling verify rules cutoff log c).fate =
      if contests rules cutoff log c && !isBad (verify (goneOf rules log) c) then .exempted
      else if c.inside then .removed else .refused := if_neg hkept
  have hrejected : (ruling verify rules cutoff log c).rejected =
      (contests rules cutoff log c && isBad (verify (goneOf rules log) c)) := rfl
  rw [walkOf_slots, walkOf_gone, hsame]
  -- An entry that contests a slot is read, and one that is bad is removed.
  by_cases hcontests : contests rules cutoff log c = true
  · rw [if_pos hcontests]
    by_cases hbad : isBad (verify (goneOf rules log) c) = true
    · rw [if_pos hbad]
      simp only [hcontests, hbad, Bool.not_true, Bool.and_false, Bool.false_eq_true,
        if_false] at hfate
      simp only [hcontests, hbad, Bool.and_self] at hrejected
      refine remove_eq log (ruling verify rules cutoff log c) _ hfate ?_
      simp [walkOf, hrejected, List.filter_append]
    · rw [if_neg hbad]
      simp only [hcontests, hbad, Bool.not_false, Bool.and_self, if_true] at hfate
      simp only [hcontests, hbad, Bool.and_false] at hrejected
      have hnot : within cutoff c = false := by
        simp only [contests, Bool.and_eq_true, Bool.not_eq_true'] at hcontests
        exact hcontests.1.1
      rw [hfate, if_neg (by simp)]
      unfold walkOf
      simp [hfate, hrejected, hnot, Ruling.holds, List.filter_append]
  · rw [if_neg hcontests]
    simp only [hcontests, Bool.false_and, Bool.false_eq_true, if_false] at hfate hrejected
    refine remove_eq log (ruling verify rules cutoff log c) _ hfate ?_
    simp [walkOf, hrejected, List.filter_append]

/-- An element at the end of a list, or before it. -/
theorem exists_split_snoc {cs : List Candidate} {c : Candidate}
    {P : List Candidate → Candidate → Prop} :
    (∃ newer d older, cs ++ [c] = newer ++ d :: older ∧ P newer d) ↔
      (∃ newer d older, cs = newer ++ d :: older ∧ P newer d) ∨ P cs c := by
  constructor
  · rintro ⟨newer, d, older, hsplit, h⟩
    obtain rfl | ⟨older, x, rfl⟩ := List.eq_nil_or_concat' older
    · obtain ⟨rfl, hlast⟩ := List.append_inj' hsplit rfl
      obtain rfl := List.singleton_inj.mp hlast
      exact .inr h
    · rw [← List.cons_append, ← List.append_assoc] at hsplit
      exact .inl ⟨newer, d, older, (List.append_inj' hsplit rfl).1, h⟩
  · rintro (⟨newer, d, older, rfl, h⟩ | h)
    · exact ⟨newer, d, older ++ [c], by simp, h⟩
    · exact ⟨cs, c, [], rfl, h⟩

variable (verify rules cutoff) in
/-- The run comes to an entry that it cannot remove. -/
def Stuck (cs : List Candidate) : Prop :=
  ∃ newer c older, cs = newer ++ c :: older ∧
    ((ruling verify rules cutoff (rulings verify rules cutoff newer) c).fate = .removed ∧
      !rules.dryRun ∧ c.removalRaises (goneOf rules (rulings verify rules cutoff newer)))

/-- What the loop comes to, when it is not broken off. -/
theorem foldlM_visit_iff {cs : List Candidate} {w : Walk} :
    cs.foldlM (visit verify rules cutoff) {} = .ok w ↔
      ¬Stuck verify rules cutoff cs ∧ w = walkOf rules cutoff (rulings verify rules cutoff cs) := by
  -- Induction on the candidates, the newest first.
  induction cs using List.reverseRecOn generalizing w with
  | nil =>
    rw [rulings_nil, walkOf_nil]
    constructor
    · intro h
      refine ⟨?_, (Except.ok.inj h).symm⟩
      rintro ⟨newer, c, older, hsplit, -⟩
      simp at hsplit
    · rintro ⟨-, rfl⟩
      rfl
  | append_singleton cs c ih =>
    -- The loop is broken off at the last candidate, or before it.
    have hstuck : Stuck verify rules cutoff (cs ++ [c]) ↔ Stuck verify rules cutoff cs ∨
        ((ruling verify rules cutoff (rulings verify rules cutoff cs) c).fate = .removed ∧
          !rules.dryRun ∧ c.removalRaises (goneOf rules (rulings verify rules cutoff cs))) :=
      exists_split_snoc
    rw [List.foldlM_append, bind_ok_iff, hstuck, not_or, rulings_snoc]
    simp only [List.foldlM_cons, List.foldlM_nil, bind_ok_iff]
    constructor
    · rintro ⟨w₁, hw₁, w₂, hw₂, hsame⟩
      obtain ⟨hclear, rfl⟩ := ih.mp hw₁
      rw [visit_eq] at hw₂
      split at hw₂
      · cases hw₂
      · next hnot => exact ⟨⟨hclear, hnot⟩, (Except.ok.inj hsame).symm.trans (Except.ok.inj hw₂).symm⟩
    · rintro ⟨⟨hclear, hnot⟩, rfl⟩
      refine ⟨_, ih.mpr ⟨hclear, rfl⟩, _, ?_, rfl⟩
      rw [visit_eq, if_neg hnot]

end

/-! ## The log of a run -/

/-- A path is listed when a ruling of that fate is on it. -/
theorem mem_ofFate {fate : Fate} {log : List Ruling} {p : Str} :
    p ∈ ofFate fate log ↔ ∃ r ∈ log, r.fate = fate ∧ r.entry.path = p := by
  unfold ofFate
  simp [and_assoc]

section

variable (verify : List Str → Candidate → ArchiveVerdict) (rules : Rules) (cutoff : Option ℚ)

/-- The rulings on some entries are the first ones of the rulings on more. -/
theorem exists_rulings_append (cs ds : List Candidate) :
    ∃ log, rulings verify rules cutoff (cs ++ ds) = rulings verify rules cutoff cs ++ log := by
  induction ds using List.reverseRecOn with
  | nil => exact ⟨[], by rw [List.append_nil, List.append_nil]⟩
  | append_singleton ds d ih =>
    obtain ⟨log, hlog⟩ := ih
    rw [← List.append_assoc, rulings_snoc, hlog, List.append_assoc]
    exact ⟨_, rfl⟩

/-- The ruling on an entry, between those on the newer ones and those on the older ones. -/
theorem exists_rulings_middle (cs ds : List Candidate) (c : Candidate) :
    ∃ log, rulings verify rules cutoff (cs ++ c :: ds) = rulings verify rules cutoff cs ++
      ruling verify rules cutoff (rulings verify rules cutoff cs) c :: log := by
  obtain ⟨log, hlog⟩ := exists_rulings_append verify rules cutoff (cs ++ [c]) ds
  refine ⟨log, ?_⟩
  rw [List.append_cons, hlog, rulings_snoc, List.append_assoc]
  rfl

/-- The rulings are on the candidates, in order. -/
@[simp] theorem rulings_entries (cs : List Candidate) :
    (rulings verify rules cutoff cs).map (·.entry) = cs := by
  induction cs using List.reverseRecOn with
  | nil => rfl
  | append_singleton cs c ih => rw [rulings_snoc, List.map_append, ih]; rfl

/-- Each ruling is made after those on the newer entries. -/
theorem mem_rulings {cs : List Candidate} {r : Ruling} (h : r ∈ rulings verify rules cutoff cs) :
    ∃ newer older, cs = newer ++ r.entry :: older ∧
      r = ruling verify rules cutoff (rulings verify rules cutoff newer) r.entry := by
  induction cs using List.reverseRecOn with
  | nil => cases h
  | append_singleton cs c ih =>
    rw [rulings_snoc, List.mem_append, List.mem_singleton] at h
    obtain h | rfl := h
    · obtain ⟨newer, older, hcs, hr⟩ := ih h
      exact ⟨newer, older ++ [c], by rw [hcs, List.append_assoc]; rfl, hr⟩
    · exact ⟨cs, [], rfl, rfl⟩

end

/-- The candidates are the entries of the corpus. -/
theorem mem_candidates {corpus : Corpus} {c : Candidate} :
    c ∈ candidates corpus ↔ c ∈ corpus.entries :=
  (List.perm_insertionSort _ _).mem_iff

/-- No candidate comes twice. -/
theorem candidates_nodup (corpus : Corpus) : ((candidates corpus).map (·.path)).Nodup :=
  ((List.perm_insertionSort _ _).map _).nodup_iff.mpr corpus.nodup

/-- Two entries of one path are the same. -/
theorem eq_of_path {corpus : Corpus} {c d : Candidate} (hc : c ∈ candidates corpus)
    (hd : d ∈ candidates corpus) (h : c.path = d.path) : c = d :=
  List.inj_on_of_nodup_map (candidates_nodup corpus) hc hd h

/-- The entries that are newer than one. -/
theorem newer_unique {corpus : Corpus} {newer older newer' older' : List Candidate} {c : Candidate}
    (h : candidates corpus = newer ++ c :: older) (h' : candidates corpus = newer' ++ c :: older') :
    newer = newer' := by
  have hnodup : (newer ++ c :: older).Nodup := h ▸ List.Nodup.of_map _ (candidates_nodup corpus)
  have hnot := List.nodup_middle.mp hnodup
  rw [List.nodup_cons, List.mem_append, not_or] at hnot
  exact ((List.append_cons_inj_of_notMem hnot.1.1 hnot.1.2).mp (h.symm.trans h')).1

/-- An entry is in a group when its ruling says so. -/
theorem mem_group_iff {verify : List Str → Candidate → ArchiveVerdict} {corpus : Corpus}
    {rules : Rules} {cutoff : Option ℚ} {newer older : List Candidate} {c : Candidate}
    (p : Ruling → Bool) (h : candidates corpus = newer ++ c :: older) :
    c.path ∈ ((rulings verify rules cutoff (candidates corpus)).filter p).map (·.entry.path) ↔
      p (ruling verify rules cutoff (rulings verify rules cutoff newer) c) = true := by
  rw [List.mem_map]
  simp only [List.mem_filter]
  constructor
  -- The paths of a corpus are distinct, so the path names the entry.
  · rintro ⟨r, ⟨hr, hp⟩, hpath⟩
    obtain ⟨newer', older', hsplit, hruling⟩ := mem_rulings _ _ _ hr
    have hc : c ∈ candidates corpus := by simp [h]
    have hentry : r.entry = c := eq_of_path (by simp [hsplit]) hc hpath
    rw [hentry] at hsplit hruling
    rw [newer_unique h hsplit, ← hruling, hp]
  · intro hp
    obtain ⟨log, hlog⟩ := exists_rulings_middle verify rules cutoff newer older c
    exact ⟨_, ⟨by rw [h, hlog]; simp, hp⟩, rfl⟩

/-- A path is listed when its entry's ruling has that fate. -/
theorem ofFate_iff {verify : List Str → Candidate → ArchiveVerdict} {corpus : Corpus}
    {rules : Rules} {cutoff : Option ℚ} {newer older : List Candidate} {c : Candidate} {fate : Fate}
    (h : candidates corpus = newer ++ c :: older) :
    c.path ∈ ofFate fate (rulings verify rules cutoff (candidates corpus)) ↔
      (ruling verify rules cutoff (rulings verify rules cutoff newer) c).fate = fate :=
  (mem_group_iff _ h).trans decide_eq_true_iff

/-- A run that is not broken off reports the rulings on the entries. -/
theorem walk_iff {verify : List Str → Candidate → ArchiveVerdict} {corpus : Corpus} {rules : Rules}
    {now : ℚ} {o : CleanupOutcome} {gone : List Str} :
    (walk verify corpus rules now).map (fun w => (w.outcome, w.gone)) = .ok (o, gone) ↔
      (rules.Accepted ∧ ¬Stuck verify rules (rules.cutoff now) (candidates corpus)) ∧
        o = (walkOf rules (rules.cutoff now)
          (rulings verify rules (rules.cutoff now) (candidates corpus))).outcome ∧
        gone = goneOf rules (rulings verify rules (rules.cutoff now) (candidates corpus)) := by
  rw [show (walk verify corpus rules now).map (fun w => (w.outcome, w.gone)) = .ok (o, gone) ↔ _
    from map_ok_iff, walk]
  -- A run whose rules are not accepted reports nothing.
  by_cases haccepted : rules.Accepted
  · rw [if_pos haccepted]
    simp only [foldlM_visit_iff, haccepted, true_and]
    constructor
    · rintro ⟨w, ⟨hclear, rfl⟩, hsame⟩
      exact ⟨hclear, (Prod.mk.inj hsame).1.symm, (Prod.mk.inj hsame).2.symm⟩
    · rintro ⟨hclear, rfl, rfl⟩
      exact ⟨_, ⟨hclear, rfl⟩, rfl⟩
  · rw [if_neg haccepted]
    simp [haccepted]

/-- What a cleanup that ends gives is read off its rulings. -/
theorem of_walk {verify : List Str → Candidate → ArchiveVerdict} {corpus : Corpus} {rules : Rules}
    {now : ℚ} {o : CleanupOutcome} {gone : List Str}
    (h : (walk verify corpus rules now).map (fun w => (w.outcome, w.gone)) = .ok (o, gone)) :
    rules.Accepted ∧
      o = (walkOf rules (rules.cutoff now)
        (rulings verify rules (rules.cutoff now) (candidates corpus))).outcome ∧
      gone = goneOf rules (rulings verify rules (rules.cutoff now) (candidates corpus)) := by
  obtain ⟨⟨haccepted, -⟩, ho, hgone⟩ := walk_iff.mp h
  exact ⟨haccepted, ho, hgone⟩

end Fraisier.Backup.Cleanup
