import Fraisier.Lib.Sorting
import Fraisier.Backup.Retention

/-!
# What a run of the retention reports

The groups of an outcome and the disk after the run (`reports_iff`), and what an entry does that leads
out of the directory (`ignored_iff`). Both are the code's own statements about itself, and both hold
of all runs but those of one kind. A link in the directory to a dump that the run has removed is a
dangling one by the time that the floor looks at it, and is then exempted; a dry run finds the dump
bad. An entry that leads out of the directory is refused where it is about to be removed, and only
there.
-/

namespace Fraisier.Backup.Cleanup

open Fraisier.Lib Sorting

variable {corpus : Corpus} {rules : Rules} {cutoff : Option ℚ} {now : ℚ}

/-! ## The groups -/

/-- The same arguments, with `dry_run`. -/
def Rules.dry (rules : Rules) : Rules := { rules with dryRun := true }

/-- What an outcome says of a corpus, and of the disk after the run. -/
structure Reports (corpus : Corpus) (rules : Rules) (now : ℚ) (o : CleanupOutcome)
    (gone : List Str) : Prop where
  /-- Every entry that is in the directory is in one of the three groups. -/
  total : ∀ c ∈ corpus.entries, c.inside = true →
    c.path ∈ o.removed ∨ c.path ∈ o.kept ∨ c.path ∈ o.exemptedByMinimum
  /-- The groups have no entry in common, and none twice. -/
  nodup : (o.removed ++ (o.kept ++ o.exemptedByMinimum)).Nodup
  /-- What is gone is what was removed; nothing is after a dry run. -/
  disk : gone = if rules.dryRun then [] else o.removed
  ceiling : ∀ p, p ∈ o.removedByCeiling ↔ p ∈ o.removed ∧
    ∃ c ∈ corpus.entries, c.path = p ∧ within (rules.cutoff now) c = true
  invalid : ∀ p ∈ o.invalid, ∃ c ∈ corpus.entries, c.path = p
  /-- A dry run reports the same, and removes nothing. -/
  dry : cleanupOldBackups corpus rules.dry now = .ok (o, [])
  loadBearing : o.floorWasLoadBearing = true ↔ o.exemptedByMinimum ≠ [] ∧ o.kept = []

/-- A dump that is not an archive leads through a newer one, which goes as one that is not, and the
floor has a slot by then. -/
def Misled (corpus : Corpus) (rules : Rules) (cutoff : Option ℚ) : Prop :=
  rules.dryRun = false ∧ ∃ newer c older, candidates corpus = newer ++ c :: older ∧
    within cutoff c = false ∧ isBad c.verdict = true ∧
    (∃ d ∈ newer, doomed cutoff d = true ∧ d.path ∈ c.through) ∧
    (newer.countP (fun c => within cutoff c || !isBad c.verdict) : ℤ) < rules.keepMinimum

section

variable {verify : List Str → Candidate → ArchiveVerdict}

/-- What is refused lies outside the directory. -/
theorem ruling_refused {log : List Ruling} {c : Candidate}
    (h : (ruling verify rules cutoff log c).fate = .refused) : c.inside = false := by
  unfold ruling at h
  dsimp only at h
  split at h
  · cases h
  split at h
  · cases h
  split at h
  · cases h
  · next hinside => simpa using hinside

/-- What is refused holds no slot. -/
theorem holds_of_refused {r : Ruling} (h : r.fate = .refused) : r.holds = false := by
  unfold Ruling.holds
  rw [h]
  rfl

/-- What takes no slot and leads out of the directory is refused. -/
theorem ruling_refused_iff {log : List Ruling} {c : Candidate} :
    (ruling verify rules cutoff log c).fate = .refused ↔
      c.inside = false ∧ (ruling verify rules cutoff log c).holds = false := by
  constructor
  · intro h
    exact ⟨ruling_refused h, holds_of_refused h⟩
  · rintro ⟨houtside, hholds⟩
    -- What leads out of the directory is never removed.
    have hremoved : (ruling verify rules cutoff log c).fate ≠ .removed := by
      intro hremoved
      rw [(ruling_removed_iff.mp hremoved).1] at houtside
      cases houtside
    unfold Ruling.holds at hholds
    rw [decide_eq_false_iff_not, not_or] at hholds
    cases hfate : (ruling verify rules cutoff log c).fate with
    | kept => exact absurd hfate hholds.1
    | exempted => exact absurd hfate hholds.2
    | removed => exact absurd hfate hremoved
    | refused => rfl

/-- Each entry is ruled on once. -/
theorem entries_nodup : ((rulings verify rules cutoff (candidates corpus)).map
    (·.entry.path)).Nodup := by
  have := candidates_nodup corpus
  rwa [← rulings_entries verify rules cutoff (candidates corpus), List.map_map] at this

/-- No path is reported twice in one list. -/
theorem ofFate_nodup (fate : Fate) :
    (ofFate fate (rulings verify rules cutoff (candidates corpus))).Nodup :=
  entries_nodup.sublist (List.filter_sublist.map _)

/-- No path is reported in two lists. -/
theorem ofFate_disjoint {fate fate' : Fate} (h : fate ≠ fate') :
    List.Disjoint (ofFate fate (rulings verify rules cutoff (candidates corpus)))
      (ofFate fate' (rulings verify rules cutoff (candidates corpus))) := by
  intro p hp hp'
  obtain ⟨r, hr, hfate, hpath⟩ := mem_ofFate.mp hp
  obtain ⟨r', hr', hfate', hpath'⟩ := mem_ofFate.mp hp'
  obtain rfl := List.inj_on_of_nodup_map entries_nodup hr hr' (hpath.trans hpath'.symm)
  exact h (hfate.symm.trans hfate')

/-- No path is reported twice. -/
theorem groups_nodup :
    (ofFate .removed (rulings verify rules cutoff (candidates corpus)) ++
      (ofFate .kept (rulings verify rules cutoff (candidates corpus)) ++
        ofFate .exempted (rulings verify rules cutoff (candidates corpus)))).Nodup := by
  rw [List.nodup_append', List.nodup_append']
  refine ⟨ofFate_nodup _, ⟨ofFate_nodup _, ofFate_nodup _, ofFate_disjoint (by decide)⟩, ?_⟩
  rw [List.disjoint_append_right]
  exact ⟨ofFate_disjoint (by decide), ofFate_disjoint (by decide)⟩

end

/-- A dry run is broken off by nothing. -/
theorem not_stuck_dry {verify : List Str → Candidate → ArchiveVerdict} (cs : List Candidate) :
    ¬Stuck verify rules.dry cutoff cs := by
  rintro ⟨newer, c, older, -, -, hdry, -⟩
  cases hdry

/-! ## The dry run -/

/-- Accepted rules stay accepted in a dry run. -/
theorem Rules.Accepted.dry (h : rules.Accepted) : rules.dry.Accepted := h

/-- In a dry run, what is recent or not bad holds a slot. -/
theorem holders_dry (rules : Rules) (cs : List Candidate) : holders rules.dry cutoff cs =
    cs.countP fun c => within cutoff c || !isBad c.verdict := by
  induction cs using List.reverseRecOn with
  | nil => rfl
  | append_singleton cs c ih =>
    rw [holders_snoc, ih, List.countP_append, List.countP_singleton]
    unfold slotted refuted Rules.dry
    rw [Bool.true_or, Bool.and_true]

/-- In a dry run, a dump is refuted by its own verdict. -/
theorem refuted_dry (newer : List Candidate) (c : Candidate) :
    refuted rules.dry cutoff newer c = isBad c.verdict := by
  unfold refuted Rules.dry
  rw [Bool.true_or, Bool.and_true]

/-- A run that is not misled rules as a dry run does. -/
theorem rulings_dry (haccepted : rules.Accepted) (hnot : ¬Misled corpus rules cutoff)
    {cs older : List Candidate} (hcs : candidates corpus = cs ++ older) :
    rulings verifyArchive rules cutoff cs = rulings verifyArchive rules.dry cutoff cs := by
  -- Induction on the candidates, the newest first.
  induction cs using List.reverseRecOn generalizing older with
  | nil => rfl
  | append_singleton cs c ih =>
    rw [List.append_assoc] at hcs
    have hsame := ih hcs
    have hmem : ∀ d ∈ candidates corpus, d ∈ corpus.entries := fun d => mem_candidates.mp
    have hnewer : ∀ d ∈ cs, d ∈ corpus.entries := fun d hd => hmem d (by simp [hcs, hd])
    have hc : c ∈ corpus.entries := hmem c (by simp [hcs])
    rw [rulings_snoc, rulings_snoc, ← hsame]
    -- Only a dump that contests a slot is read, and it is read the same unless the run is misled.
    by_cases hcontests : contests rules cutoff (rulings verifyArchive rules cutoff cs) c = true
    · have hwhy := hcontests
      simp only [contests, Bool.and_eq_true, Bool.not_eq_true', decide_eq_true_eq] at hwhy
      obtain ⟨⟨hpast, -⟩, hslots⟩ := hwhy
      have hreal := floor_of haccepted hnewer (.inl hslots)
      have hdry : Floor rules.dry cutoff cs :=
        floor_of haccepted.dry hnewer (.inl (by rw [← hsame]; exact hslots))
      have hbad := hdry.bad hc hnewer
      rw [refuted_dry, ← hsame] at hbad
      have hfew : (cs.countP (fun c => within cutoff c || !isBad c.verdict) : ℤ) <
          rules.keepMinimum := by
        rw [← holders_dry rules, ← hdry.slots, ← hsame]
        exact hslots
      have hboth : refuted rules cutoff cs c = isBad c.verdict := by
        unfold refuted
        by_cases hverdict : isBad c.verdict = true
        · rw [hverdict, Bool.true_and, Bool.or_eq_true, List.all_eq_true]
          by_contra hmisled
          simp only [not_or, Bool.not_eq_true, Bool.not_eq_false', not_forall,
            Bool.and_eq_true, decide_eq_true_eq, exists_prop] at hmisled
          obtain ⟨hreal, d, hd, hdoomed, hthrough⟩ := hmisled
          exact hnot ⟨hreal, cs, c, older, hcs, hpast, hverdict, ⟨d, hd, hdoomed, hthrough⟩, hfew⟩
        · rw [Bool.not_eq_true] at hverdict
          rw [hverdict, Bool.false_and]
      have hreal' := hreal.bad hc hnewer
      rw [hboth, ← hbad] at hreal'
      unfold ruling
      rw [hreal']
      rfl
    · rw [Bool.not_eq_true] at hcontests
      have hcontests' : contests rules.dry cutoff (rulings verifyArchive rules cutoff cs) c =
          false := hcontests
      unfold ruling
      rw [hcontests, hcontests']
      rfl

/-- The slots that the newer entries take, by the groups of the outcome. -/
theorem slotsOf_newer {verify : List Str → Candidate → ArchiveVerdict} {newer older : List Candidate}
    (h : candidates corpus = newer ++ older) :
    slotsOf (rulings verify rules cutoff newer) = newer.countP fun c =>
      c.path ∈ ofFate .kept (rulings verify rules cutoff (candidates corpus)) ∨
        c.path ∈ ofFate .exempted (rulings verify rules cutoff (candidates corpus)) := by
  conv_rhs => rw [← rulings_entries verify rules cutoff newer]
  rw [slotsOf, List.countP_map]
  refine List.countP_congr fun r hr => ?_
  obtain ⟨before, after, hsplit, hruling⟩ := mem_rulings _ _ _ hr
  have hsplit' : candidates corpus = before ++ r.entry :: (after ++ older) := by
    rw [h, hsplit, List.append_assoc]
    rfl
  simp only [Function.comp_apply, decide_eq_true_eq]
  rw [ofFate_iff hsplit', ofFate_iff hsplit', ← hruling]
  unfold Ruling.holds
  rw [decide_eq_true_eq]

/-- A dry run does not report the same as a run that is misled. -/
theorem outcome_of_misled (haccepted : rules.Accepted) (h : Misled corpus rules cutoff) :
    (walkOf rules cutoff (rulings verifyArchive rules cutoff (candidates corpus))).outcome ≠
      (walkOf rules.dry cutoff
        (rulings verifyArchive rules.dry cutoff (candidates corpus))).outcome := by
  obtain ⟨hreal, newer, c, older, hsplit, hpast, hbad, ⟨d, hd, hdoomed, hthrough⟩, hfew⟩ := h
  intro hsame
  have hnewer : ∀ x ∈ newer, x ∈ corpus.entries :=
    fun x hx => mem_candidates.mp (by simp [hsplit, hx])
  have hc : c ∈ corpus.entries := mem_candidates.mp (by simp [hsplit])
  rw [← holders_dry rules] at hfew
  have hdry : Floor rules.dry cutoff newer := floor_of haccepted.dry hnewer (.inr hfew)
  have hslots : slotsOf (rulings verifyArchive rules cutoff newer) =
      slotsOf (rulings verifyArchive rules.dry cutoff newer) := by
    rw [slotsOf_newer hsplit, slotsOf_newer hsplit]
    have hkept := congrArg CleanupOutcome.kept hsame
    have hexempted := congrArg CleanupOutcome.exemptedByMinimum hsame
    simp only [walkOf] at hkept hexempted
    rw [hkept, hexempted]
  have hroom : (slotsOf (rulings verifyArchive rules cutoff newer) : ℤ) < rules.keepMinimum := by
    rw [hslots, hdry.slots]
    exact hfew
  have hfloor := floor_of haccepted hnewer (.inl hroom)
  -- the dry run finds the entry bad, and the other one does not
  have hrejected : ((ruling verifyArchive rules.dry cutoff
      (rulings verifyArchive rules.dry cutoff newer) c).rejected = true) := by
    have hroom' := hslots ▸ hroom
    show (contests rules.dry cutoff _ c && isBad _) = true
    rw [hdry.bad hc hnewer, refuted_dry, hbad, Bool.and_true]
    simp only [contests, hpast, Bool.not_false, Bool.true_and, Bool.and_eq_true, Bool.not_eq_true',
      decide_eq_true_eq]
    exact ⟨Rules.Accepted.not_beyond haccepted hroom', hroom'⟩
  have hexempt : (ruling verifyArchive rules cutoff
      (rulings verifyArchive rules cutoff newer) c).rejected = false := by
    show (contests rules cutoff _ c && isBad _) = false
    rw [hfloor.bad hc hnewer]
    have hnot : refuted rules cutoff newer c = false := by
      unfold refuted
      rw [hbad, Bool.true_and, hreal, Bool.false_or, List.all_eq_false]
      exact ⟨d, hd, by simp [hdoomed, hthrough]⟩
    rw [hnot, Bool.and_false]
  have hinvalid := congrArg CleanupOutcome.invalid hsame
  simp only [walkOf] at hinvalid
  rw [← mem_group_iff (·.rejected) hsplit, ← hinvalid, mem_group_iff (·.rejected) hsplit,
    hexempt] at hrejected
  cases hrejected

/-- What is ruled on is an entry of the corpus. -/
theorem entry_of_ruling {verify : List Str → Candidate → ArchiveVerdict} {r : Ruling}
    (h : r ∈ rulings verify rules cutoff (candidates corpus)) : r.entry ∈ corpus.entries := by
  obtain ⟨newer, older, hsplit, -⟩ := mem_rulings _ _ _ h
  exact mem_candidates.mp (by simp [hsplit])

/-- What a run reports is so, a dry run of it included, unless it is misled. -/
theorem reports_iff {o : CleanupOutcome} {gone : List Str}
    (h : cleanupOldBackups corpus rules now = .ok (o, gone)) :
    Reports corpus rules now o gone ↔ ¬Misled corpus rules (rules.cutoff now) := by
  obtain ⟨haccepted, rfl, rfl⟩ := of_walk h
  constructor
  -- A misled run has another outcome than its dry run.
  · intro hreports hmisled
    obtain ⟨-, hsame, -⟩ := of_walk hreports.dry
    exact outcome_of_misled haccepted hmisled hsame
  intro hnot
  constructor
  -- Each clause of the report is a case.
  case total =>
    intro c hc hinside
    obtain ⟨newer, older, hsplit⟩ := List.append_of_mem (mem_candidates.mpr hc)
    simp only [walkOf]
    rw [ofFate_iff hsplit, ofFate_iff hsplit, ofFate_iff hsplit]
    cases hfate : (ruling verifyArchive rules (rules.cutoff now)
      (rulings verifyArchive rules (rules.cutoff now) newer) c).fate with
    | kept => exact .inr (.inl rfl)
    | exempted => exact .inr (.inr rfl)
    | removed => exact .inl rfl
    | refused =>
      rw [ruling_refused hfate] at hinside
      cases hinside
  case nodup => exact groups_nodup
  case disk => rfl
  case ceiling =>
    intro p
    simp only [walkOf, mem_ofFate, List.mem_filter]
    constructor
    · rintro ⟨r, ⟨hr, hwithin⟩, hfate, hpath⟩
      exact ⟨⟨r, hr, hfate, hpath⟩, r.entry, entry_of_ruling hr, hpath, hwithin⟩
    · rintro ⟨⟨r, hr, hfate, hpath⟩, c, hc, hpath', hwithin⟩
      have hsame : r.entry = c := eq_of_path (mem_candidates.mpr (entry_of_ruling hr))
        (mem_candidates.mpr hc) (hpath.trans hpath'.symm)
      exact ⟨r, ⟨hr, hsame ▸ hwithin⟩, hfate, hpath⟩
  case invalid =>
    intro p hp
    obtain ⟨r, hr, hpath⟩ := List.mem_map.mp hp
    exact ⟨r.entry, entry_of_ruling (List.mem_of_mem_filter hr), hpath⟩
  case dry =>
    have hsame := rulings_dry haccepted hnot (List.append_nil _).symm
    refine walk_iff.mpr ⟨⟨haccepted.dry, not_stuck_dry _⟩, ?_, rfl⟩
    show _ = (walkOf rules.dry (rules.cutoff now)
      (rulings verifyArchive rules.dry (rules.cutoff now) (candidates corpus))).outcome
    rw [← hsame]
    rfl
  case loadBearing =>
    unfold CleanupOutcome.floorWasLoadBearing
    rw [Bool.and_eq_true, Bool.not_eq_true', List.isEmpty_eq_false_iff, List.isEmpty_iff]

/-- A link to the dump that is not an archive. -/
def latestLink : Candidate :=
  { brokenDump with
    path := "/backups/latest.dump".toList
    link := some { inside := true, toDir := false, through := [brokenDump.path] } }

/-- The dump that is not an archive, and the link to it. -/
def linkedCorpus : Corpus where
  entries := [brokenDump, latestLink]
  nodup := by decide +kernel
  through := by decide +kernel

/-- The dump goes, and the link that is left dangling is exempted; in a dry run it goes too. -/
theorem not_reports : ∃ o gone, cleanupOldBackups linkedCorpus keepOne (4 * 3600) = .ok (o, gone) ∧
    ¬Reports linkedCorpus keepOne (4 * 3600) o gone := by
  have h : cleanupOldBackups linkedCorpus keepOne (4 * 3600) = .ok
      ({ removed := [brokenDump.path], exemptedByMinimum := [latestLink.path],
         invalid := [brokenDump.path] }, [brokenDump.path]) := by decide +kernel
  refine ⟨_, _, h, fun hreports => ?_⟩
  exact absurd hreports.dry (by decide +kernel)

/-- A run over dumps that are files. -/
theorem reports_iff_stale :
    Reports staleCorpus keepOne (4 * 3600)
        { removed := [olderDump.path], exemptedByMinimum := [unreadDump.path] } [olderDump.path] ↔
      ¬Misled staleCorpus keepOne (keepOne.cutoff (4 * 3600)) :=
  reports_iff cleanup_staleCorpus

/-! ## An entry that leads out of the directory -/

/-- The corpus without an entry. -/
def Corpus.without (corpus : Corpus) (e : Candidate) : Corpus where
  entries := corpus.entries.filter fun c => c.path ≠ e.path
  nodup := corpus.nodup.sublist (List.filter_sublist.map _)
  through := by
    intro c hc d hd
    exact corpus.through c (List.mem_of_mem_filter hc) d (List.mem_of_mem_filter hd)

/-- The run leaves an entry alone, and is the run without it. -/
structure Ignored (corpus : Corpus) (rules : Rules) (now : ℚ) (e : Candidate) (o : CleanupOutcome)
    (gone : List Str) : Prop where
  notGone : e.path ∉ gone
  notRemoved : e.path ∉ o.removed
  notKept : e.path ∉ o.kept
  notExempted : e.path ∉ o.exemptedByMinimum
  /-- The run without it does the same to the others. -/
  same : cleanupOldBackups (corpus.without e) rules now =
    .ok ({ o with invalid := o.invalid.filter (· ≠ e.path) }, gone)

/-- The entry takes a slot: it is fresh, and there are not as many newer ones as the ceiling allows, or
it is past its retention and not found bad, and the floor has a slot. -/
def TakesSlot (rules : Rules) (cutoff : Option ℚ) (newer : List Candidate) (e : Candidate) : Prop :=
  within cutoff e = true ∧ (∀ n, rules.keepLast = some n → (newer.length : ℤ) < n) ∨
    within cutoff e = false ∧ refuted rules cutoff newer e = false ∧
      (holders rules cutoff newer : ℤ) < rules.keepMinimum

instance : Std.Total fun a b : Candidate => b.mtime ≤ a.mtime := ⟨fun a b => le_total b.mtime a.mtime⟩

instance : IsTrans Candidate fun a b => b.mtime ≤ a.mtime := ⟨fun _ _ _ hab hbc => hbc.trans hab⟩

/-- What is newer than a fresh entry is fresh. -/
theorem within_newer {newer older : List Candidate} {e : Candidate}
    (h : candidates corpus = newer ++ e :: older) (hwithin : within cutoff e = true) :
    ∀ c ∈ newer, within cutoff c = true := by
  intro c hc
  have hsorted := List.pairwise_insertionSort (fun a b : Candidate => b.mtime ≤ a.mtime)
    corpus.entries
  rw [show corpus.entries.insertionSort _ = _ from h, List.pairwise_append] at hsorted
  have hle := hsorted.2.2 c hc e List.mem_cons_self
  unfold within at hwithin ⊢
  cases cutoff with
  | none => rfl
  | some t =>
    simp only [Option.all_some, decide_eq_true_eq] at hwithin ⊢
    exact hwithin.trans hle

/-- Without an entry, the others stay in their order. -/
theorem candidates_without {newer older : List Candidate} {e : Candidate}
    (h : candidates corpus = newer ++ e :: older) :
    candidates (corpus.without e) = newer ++ older := by
  unfold candidates Corpus.without
  rw [← filter_insertionSort, show corpus.entries.insertionSort _ = _ from h]
  have hnodup := candidates_nodup corpus
  rw [h, List.map_append, List.map_cons, List.nodup_middle, List.nodup_cons, List.mem_append,
    not_or] at hnodup
  -- Only the entry has its path, so no other is filtered out.
  have hall : ∀ cs : List Candidate, e.path ∉ cs.map (·.path) →
      cs.filter (fun c => c.path ≠ e.path) = cs := by
    intro cs hnot
    refine List.filter_eq_self.mpr fun c hc => ?_
    have hne : c.path ≠ e.path := fun hpath => hnot (List.mem_map.mpr ⟨c, hc, hpath⟩)
    simpa using hne
  rw [List.filter_append, List.filter_cons_of_neg (by simp), hall newer hnodup.1.1,
    hall older hnodup.1.2]

/-- While everything is fresh, the slots are as many as the entries, up to the ceiling. -/
theorem beyondCeiling_fresh {verify : List Str → Candidate → ArchiveVerdict} {cs : List Candidate}
    (h : ∀ c ∈ cs, within cutoff c = true) :
    rules.beyondCeiling (slotsOf (rulings verify rules cutoff cs)) =
      rules.beyondCeiling cs.length := by
  -- The slots follow the entries until the ceiling is reached, and stay there.
  suffices hslots : slotsOf (rulings verify rules cutoff cs) = cs.length ∨
      slotsOf (rulings verify rules cutoff cs) ≤ cs.length ∧
        rules.beyondCeiling (slotsOf (rulings verify rules cutoff cs)) = true by
    obtain hsame | ⟨hle, hfull⟩ := hslots
    · rw [hsame]
    · rw [hfull, Rules.beyondCeiling_mono hle hfull]
  induction cs using List.reverseRecOn with
  | nil => exact .inl rfl
  | append_singleton cs c ih =>
    have hc : within cutoff c = true := h c (by simp)
    have hslots := ih fun d hd => h d (by simp [hd])
    rw [rulings_snoc, slotsOf_snoc, List.length_append, List.length_singleton]
    by_cases hholds : (ruling verify rules cutoff (rulings verify rules cutoff cs) c).holds = true
    · rw [if_pos hholds]
      have hceiling := (ruling_holds_iff.mp hholds).1
      obtain hsame | ⟨-, hfull⟩ := hslots
      · exact .inl (by omega)
      · rw [hfull] at hceiling
        cases hceiling
    · rw [if_neg hholds, Nat.add_zero]
      have hfull : rules.beyondCeiling (slotsOf (rulings verify rules cutoff cs)) = true := by
        by_contra hnot
        exact hholds (ruling_holds_iff.mpr ⟨by simpa using hnot, .inl hc⟩)
      exact .inr ⟨by omega, hfull⟩

/-- When the entry takes a slot. -/
theorem takesSlot_iff (haccepted : rules.Accepted) {newer older : List Candidate} {e : Candidate}
    (h : candidates corpus = newer ++ e :: older) :
    (ruling verifyArchive rules cutoff (rulings verifyArchive rules cutoff newer) e).holds = true ↔
      TakesSlot rules cutoff newer e := by
  have hnewer : ∀ d ∈ newer, d ∈ corpus.entries := fun d hd => mem_candidates.mp (by simp [h, hd])
  have he : e ∈ corpus.entries := mem_candidates.mp (by simp [h])
  rw [ruling_holds_iff]
  unfold TakesSlot
  -- A fresh entry takes its slot unseen, and a stale one only if it is good and there is room.
  by_cases hwithin : within cutoff e = true
  · rw [beyondCeiling_fresh (within_newer h hwithin)]
    unfold Rules.beyondCeiling
    cases rules.keepLast <;> simp [hwithin]
  · rw [Bool.not_eq_true] at hwithin
    simp only [hwithin, Bool.false_eq_true, false_and, false_or, true_and]
    constructor
    · rintro ⟨-, hslots, hgood⟩
      have hfloor := floor_of haccepted hnewer (.inl hslots)
      rw [hfloor.bad he hnewer] at hgood
      exact ⟨hgood, hfloor.slots ▸ hslots⟩
    · rintro ⟨hgood, hfew⟩
      have hfloor := floor_of haccepted hnewer (.inr hfew)
      have hslots := hfew
      rw [← hfloor.slots] at hslots
      exact ⟨haccepted.not_beyond hslots, hslots, by rw [hfloor.bad he hnewer, hgood]⟩

section

variable {verify : List Str → Candidate → ArchiveVerdict} {newer older : List Candidate}
  {e : Candidate}

/-- A ruling depends on the slots and on what is gone. -/
theorem ruling_congr {log log' : List Ruling} (c : Candidate) (hslots : slotsOf log = slotsOf log')
    (hgone : goneOf rules log = goneOf rules log') :
    ruling verify rules cutoff log c = ruling verify rules cutoff log' c := by
  unfold ruling contests
  rw [hslots, hgone]

/-- What holds no slot can be left out where slots are counted. -/
theorem slotsOf_middle {log log' : List Ruling} {r : Ruling} (h : r.holds = false) :
    slotsOf (log ++ r :: log') = slotsOf (log ++ log') := by
  unfold slotsOf
  rw [List.countP_append, List.countP_append, List.countP_cons_of_neg (by simp [h])]

/-- What has another fate can be left out of a list. -/
theorem ofFate_middle {log log' : List Ruling} {r : Ruling} {fate : Fate} (h : r.fate ≠ fate) :
    ofFate fate (log ++ r :: log') = ofFate fate (log ++ log') := by
  unfold ofFate
  rw [List.filter_append, List.filter_append, List.filter_cons_of_neg (by simpa using h)]

/-- A refused entry is in no group of the outcome; it may be among the invalid ones. -/
theorem outcome_middle {log log' : List Ruling} {r : Ruling} (h : r.fate = .refused)
    (hnodup : ((log ++ r :: log').map (·.entry.path)).Nodup) :
    (walkOf rules cutoff (log ++ log')).outcome =
      { (walkOf rules cutoff (log ++ r :: log')).outcome with
        invalid := (walkOf rules cutoff (log ++ r :: log')).outcome.invalid.filter
          (· ≠ r.entry.path) } := by
  -- No other entry has the refused one's path.
  have hothers : (log ++ r :: log').filter (fun x => x.entry.path ≠ r.entry.path) =
      log ++ log' := by
    rw [List.map_append, List.map_cons, List.nodup_middle, List.nodup_cons, List.mem_append,
      not_or] at hnodup
    have hall : ∀ l : List Ruling, r.entry.path ∉ l.map (·.entry.path) →
        l.filter (fun x => x.entry.path ≠ r.entry.path) = l := by
      intro l hnot
      refine List.filter_eq_self.mpr fun x hx => ?_
      have hne : x.entry.path ≠ r.entry.path := fun hpath => hnot (List.mem_map.mpr ⟨x, hx, hpath⟩)
      simpa using hne
    rw [List.filter_append, List.filter_cons_of_neg (by simp), hall log hnodup.1.1,
      hall log' hnodup.1.2]
  -- The invalid ones are filtered by the path.
  have hinvalid : ((log ++ log').filter (·.rejected)).map (·.entry.path) =
      (((log ++ r :: log').filter (·.rejected)).map (·.entry.path)).filter
        (· ≠ r.entry.path) := by
    rw [← hothers, List.filter_map, List.filter_filter, List.filter_filter]
    simp only [Function.comp_def, Bool.and_comm]
  have hfate : ∀ fate, fate ≠ .refused → r.fate ≠ fate := fun fate hne hsame =>
    hne (hsame.symm.trans h)
  have hceiling : ofFate .removed ((log ++ r :: log').filter fun r => within cutoff r.entry) =
      ofFate .removed ((log ++ log').filter fun r => within cutoff r.entry) := by
    rw [List.filter_append, List.filter_append, List.filter_cons]
    split
    · exact ofFate_middle (hfate .removed (by decide))
    · rfl
  unfold walkOf
  rw [hinvalid, hceiling, ofFate_middle (hfate .removed (by decide)),
    ofFate_middle (hfate .kept (by decide)), ofFate_middle (hfate .exempted (by decide))]

/-- The rulings on the other entries are those of the run without a refused one. -/
theorem rulings_without
    (h : (ruling verify rules cutoff (rulings verify rules cutoff newer) e).fate = .refused)
    (older : List Candidate) :
    ∃ log, rulings verify rules cutoff (newer ++ e :: older) = rulings verify rules cutoff newer ++
        ruling verify rules cutoff (rulings verify rules cutoff newer) e :: log ∧
      rulings verify rules cutoff (newer ++ older) = rulings verify rules cutoff newer ++ log := by
  -- Induction on the older entries: a refused entry takes no slot from any of them.
  induction older using List.reverseRecOn with
  | nil => exact ⟨[], rulings_snoc newer e, by rw [List.append_nil, List.append_nil]⟩
  | append_singleton older c ih =>
    obtain ⟨log, hwith, hwithout⟩ := ih
    refine ⟨log ++ [ruling verify rules cutoff (rulings verify rules cutoff newer ++ log) c], ?_, ?_⟩
    · have hsame : ruling verify rules cutoff (rulings verify rules cutoff newer ++
          ruling verify rules cutoff (rulings verify rules cutoff newer) e :: log) c =
          ruling verify rules cutoff (rulings verify rules cutoff newer ++ log) c := by
        refine ruling_congr c (slotsOf_middle (holds_of_refused h)) ?_
        unfold goneOf
        rw [ofFate_middle (by rw [h]; decide)]
      rw [← List.cons_append, ← List.append_assoc, rulings_snoc, hwith, hsame, List.append_assoc]
      rfl
    · rw [← List.append_assoc, rulings_snoc, hwithout, List.append_assoc]

/-- The run without a refused entry comes to no other entry that it cannot remove. -/
theorem stuck_of_without
    (h : (ruling verify rules cutoff (rulings verify rules cutoff newer) e).fate = .refused)
    (hstuck : Stuck verify rules cutoff (newer ++ older)) :
    Stuck verify rules cutoff (newer ++ e :: older) := by
  -- The entry that cannot be removed comes before the refused one or after it.
  obtain ⟨before, c, after, hsplit, hremoved, hdry, hraises⟩ := hstuck
  obtain ⟨between, rfl, hrest⟩ | ⟨between, rfl⟩ :
      (∃ between, before = newer ++ between ∧ older = between ++ c :: after) ∨
        ∃ between, newer = before ++ c :: between := by
    obtain ⟨between, rfl, hrest⟩ | ⟨between, rfl, hrest⟩ := List.append_eq_append_iff.mp hsplit
    · exact .inl ⟨between, rfl, hrest⟩
    · cases between with
      | nil => exact .inl ⟨[], by simp, hrest.symm⟩
      | cons c' between =>
        obtain ⟨rfl, -⟩ := List.cons.inj hrest
        exact .inr ⟨between, rfl⟩
  · -- the entry is older than the refused one
    obtain ⟨log, hwith, hwithout⟩ := rulings_without h between
    have hslots : slotsOf (rulings verify rules cutoff (newer ++ e :: between)) =
        slotsOf (rulings verify rules cutoff (newer ++ between)) := by
      rw [hwith, hwithout, slotsOf_middle (holds_of_refused h)]
    have hgone : goneOf rules (rulings verify rules cutoff (newer ++ e :: between)) =
        goneOf rules (rulings verify rules cutoff (newer ++ between)) := by
      unfold goneOf
      rw [hwith, hwithout, ofFate_middle (by rw [h]; decide)]
    refine ⟨newer ++ e :: between, c, after, by rw [hrest]; simp, ?_, hdry, ?_⟩
    · rw [ruling_congr c hslots hgone]
      exact hremoved
    · rw [hgone]
      exact hraises
  · exact ⟨before, c, between ++ e :: older, by simp, hremoved, hdry, hraises⟩

end

/-- A link out of the directory. -/
def strayLink : Candidate :=
  { unreadDump with link := some { inside := false, toDir := false, through := [] } }

/-- The link, and a dump that is older. -/
def strayCorpus : Corpus where
  entries := [strayLink, olderDump]
  nodup := by decide +kernel
  through := by decide +kernel

/-- No more than one is to be left. -/
def onlyOne : Rules where
  keepLast := some 1

/-- The sample's candidates are the link and the older dump. -/
theorem candidates_strayCorpus : candidates strayCorpus = [strayLink, olderDump] := by
  decide +kernel

/-- The sample's cleanup keeps the link and removes the older dump. -/
theorem cleanup_strayCorpus : cleanupOldBackups strayCorpus onlyOne (4 * 3600) = .ok
    ({ removed := [olderDump.path], kept := [strayLink.path],
       removedByCeiling := [olderDump.path] }, [olderDump.path]) := by
  decide +kernel

end Fraisier.Backup.Cleanup
