import Fraisier.Backup.Cleanup

/-!
# What the floor keeps

While the floor has a slot, an entry takes one if it is fresh or is not found bad; `floor_of` counts
the slots of a run by that. `newest_on_disk` is what it protects: a dump that is not bad with fewer
than `keep_minimum` of these before it. `validity_refines` compares the run with one that does not
look at validity; the relation between the two runs is that the first has taken no more slots.
-/

namespace Fraisier.Backup.Cleanup

open Fraisier.Lib

/-! ## The slots of the floor -/

section

variable (rules : Rules) (cutoff : Option ℚ)

/-- Past its retention, in the directory, and not an archive. -/
def doomed (d : Candidate) : Bool := !within cutoff d && d.inside && isBad d.verdict

/-- The entry is found bad, after the newer ones: it is not an archive, and what it leads to is not
gone with one of them. -/
def refuted (newer : List Candidate) (c : Candidate) : Bool :=
  isBad c.verdict && (rules.dryRun || newer.all fun d => !(doomed cutoff d && d.path ∈ c.through))

/-- The entry is fresh, or not found bad. -/
def slotted (newer : List Candidate) (c : Candidate) : Bool :=
  within cutoff c || !refuted rules cutoff newer c

/-- How many entries, newest first, are fresh or not found bad. -/
def holders (cs : List Candidate) : ℕ :=
  cs.zipIdx.countP fun ci => slotted rules cutoff (cs.take ci.2) ci.1

/-- One more candidate holds a slot when it is given one. -/
theorem holders_snoc (cs : List Candidate) (c : Candidate) :
    holders rules cutoff (cs ++ [c]) =
      holders rules cutoff cs + if slotted rules cutoff cs c then 1 else 0 := by
  unfold holders
  rw [List.zipIdx_append, List.countP_append, Nat.zero_add]
  congr 1
  · refine List.countP_congr fun ci hci => ?_
    have hlt : ci.2 < cs.length := by
      have := List.snd_lt_of_mem_zipIdx hci
      omega
    rw [List.take_append_of_le_length hlt.le]
  · simp

/-- The run when the slots are those of the fresh entries and of those not found bad. -/
structure Floor (cs : List Candidate) : Prop where
  slots : slotsOf (rulings verifyArchive rules cutoff cs) = holders rules cutoff cs
  gone : ∀ p, p ∈ goneOf rules (rulings verifyArchive rules cutoff cs) ↔
    rules.dryRun = false ∧ ∃ newer d older, cs = newer ++ d :: older ∧ d.path = p ∧
      doomed cutoff d = true ∧ refuted rules cutoff newer d = true

end

variable {corpus : Corpus} {rules : Rules} {cutoff : Option ℚ} {now : ℚ}

/-- A ceiling that is accepted is not full while the floor has a slot. -/
theorem Rules.Accepted.not_beyond (h : rules.Accepted) {slots : ℕ}
    (hslots : (slots : ℤ) < rules.keepMinimum) : rules.beyondCeiling slots = false := by
  unfold Rules.beyondCeiling
  cases hlast : rules.keepLast with
  | none => rfl
  | some n =>
    have := (h n hlast).2
    simp only [Option.any_some, decide_eq_false_iff_not]
    omega

/-- A dump is found bad when its own verdict is and it is there to be read. -/
theorem isBad_verifyArchive (gone : List Str) (c : Candidate) :
    isBad (verifyArchive gone c) = (isBad c.verdict && c.present gone) := by
  unfold verifyArchive
  cases c.present gone <;> simp [isBad]

/-- An entry is found bad by what the newer ones are. -/
theorem Floor.bad {cs : List Candidate} {c : Candidate} (h : Floor rules cutoff cs)
    (hc : c ∈ corpus.entries) (hcs : ∀ d ∈ cs, d ∈ corpus.entries) :
    isBad (verifyArchive (goneOf rules (rulings verifyArchive rules cutoff cs)) c) =
      refuted rules cutoff cs c := by
  rw [isBad_verifyArchive, refuted]
  congr 1
  rw [Bool.eq_iff_iff]
  simp only [Candidate.present, List.all_eq_true, decide_eq_true_eq, Bool.or_eq_true,
    Bool.not_eq_true', Bool.and_eq_false_imp, decide_eq_false_iff_not]
  constructor
  · intro hpresent
    by_contra hnot
    simp only [not_or, Bool.not_eq_true, not_forall, not_not] at hnot
    obtain ⟨hdry, d, hd, hdoomed, hthrough⟩ := hnot
    -- the newest entry of this kind that `c` leads through is found bad, and goes
    obtain ⟨d, newer, older, hsplit, hfirst, hd, hdoomed⟩ : ∃ d newer older,
        cs = newer ++ d :: older ∧
        (∀ x ∈ newer, doomed cutoff x = true → x.path ∉ c.through) ∧ d.path ∈ c.through ∧
        doomed cutoff d = true := by
      obtain ⟨d, hfind⟩ := Option.isSome_iff_exists.mp
        (List.find?_isSome (p := fun x => doomed cutoff x && x.path ∈ c.through).mpr
          ⟨d, hd, by simp [hdoomed, hthrough]⟩)
      obtain ⟨hp, newer, older, hsplit, hfirst⟩ := List.find?_eq_some_iff_append.mp hfind
      simp only [Bool.and_eq_true, decide_eq_true_eq] at hp
      refine ⟨d, newer, older, hsplit, fun x hx hdoomed hthrough => ?_, hp.2, hp.1⟩
      have := hfirst x hx
      simp [hdoomed, hthrough] at this
    have hrefuted : refuted rules cutoff newer d = true := by
      have hbad : isBad d.verdict = true := by
        simp only [doomed, Bool.and_eq_true] at hdoomed
        exact hdoomed.2
      simp only [refuted, hbad, Bool.true_and, hdry, Bool.false_or, List.all_eq_true,
        Bool.not_eq_true', Bool.and_eq_false_imp, decide_eq_false_iff_not]
      intro x hx hxdoomed hxthrough
      have hdmem : d ∈ cs := by simp [hsplit]
      exact hfirst x hx hxdoomed (corpus.through c hc d (hcs d hdmem) hd _ hxthrough)
    exact hpresent d.path hd ((h.gone _).mpr
      ⟨hdry, newer, d, older, hsplit, rfl, hdoomed, hrefuted⟩)
  · intro hnewer p hp hgone
    obtain ⟨hdry, newer, d, older, hsplit, rfl, hdoomed, -⟩ := (h.gone p).mp hgone
    obtain hdry' | hnewer := hnewer
    · rw [hdry] at hdry'
      cases hdry'
    · exact hnewer d (by simp [hsplit]) hdoomed hp

section

variable {verify : List Str → Candidate → ArchiveVerdict} {log : List Ruling} {c : Candidate}

/-- When an entry takes a slot. -/
theorem ruling_holds_iff : (ruling verify rules cutoff log c).holds = true ↔
    rules.beyondCeiling (slotsOf log) = false ∧ (within cutoff c = true ∨
      (slotsOf log : ℤ) < rules.keepMinimum ∧ isBad (verify (goneOf rules log) c) = false) := by
  unfold Ruling.holds ruling contests
  dsimp only
  cases within cutoff c <;> cases rules.beyondCeiling (slotsOf log) <;>
    cases isBad (verify (goneOf rules log) c) <;> cases c.inside <;>
    by_cases h : (slotsOf log : ℤ) < rules.keepMinimum <;> simp [h]

/-- What takes no slot is removed, if it is in the directory. -/
theorem ruling_removed_iff : (ruling verify rules cutoff log c).fate = .removed ↔
    c.inside = true ∧ (ruling verify rules cutoff log c).holds = false := by
  unfold Ruling.holds
  have hrefused : (ruling verify rules cutoff log c).fate = .removed ∨
      (ruling verify rules cutoff log c).fate = .refused →
        ((ruling verify rules cutoff log c).fate = .removed ↔ c.inside = true) := by
    unfold ruling
    dsimp only
    split
    · simp
    split
    · simp
    split <;> simp_all
  cases hfate : (ruling verify rules cutoff log c).fate <;> simp_all

/-- While the floor has a slot, what is fresh or not bad takes one. -/
theorem ruling_holds (h : rules.Accepted) (hslots : (slotsOf log : ℤ) < rules.keepMinimum) :
    (ruling verify rules cutoff log c).holds =
      (within cutoff c || !isBad (verify (goneOf rules log) c)) := by
  rw [Bool.eq_iff_iff, ruling_holds_iff]
  simp [h.not_beyond hslots, hslots]

/-- While slots are left, what is removed lies beyond the retention and is bad. -/
theorem ruling_removed (h : rules.Accepted) (hslots : (slotsOf log : ℤ) < rules.keepMinimum) :
    (ruling verify rules cutoff log c).fate = .removed ↔
      within cutoff c = false ∧ c.inside = true ∧ isBad (verify (goneOf rules log) c) = true := by
  rw [ruling_removed_iff, ruling_holds h hslots, Bool.or_eq_false_iff, Bool.not_eq_false']
  exact and_left_comm

end

/-- One more ruling is gone when it is removed for real. -/
theorem mem_goneOf_snoc {log : List Ruling} {r : Ruling} {p : Str} :
    p ∈ goneOf rules (log ++ [r]) ↔
      p ∈ goneOf rules log ∨ rules.dryRun = false ∧ r.fate = .removed ∧ r.entry.path = p := by
  rw [goneOf_snoc, List.mem_append]
  cases rules.dryRun <;> by_cases h : r.fate = .removed <;> simp [h, eq_comm]

/-- As long as the floor has a slot, or there are fewer entries that are fresh or not bad. -/
theorem floor_of (haccepted : rules.Accepted) {cs : List Candidate}
    (hcs : ∀ d ∈ cs, d ∈ corpus.entries)
    (h : (slotsOf (rulings verifyArchive rules cutoff cs) : ℤ) < rules.keepMinimum ∨
      (holders rules cutoff cs : ℤ) < rules.keepMinimum) :
    Floor rules cutoff cs := by
  -- Induction on the candidates, the newest first.
  induction cs using List.reverseRecOn with
  | nil =>
    refine ⟨rfl, fun p => ?_⟩
    simp [goneOf, ofFate]
  | append_singleton cs c ih =>
    have hcs' : ∀ d ∈ cs, d ∈ corpus.entries := fun d hd => hcs d (by simp [hd])
    rw [rulings_snoc, slotsOf_snoc, holders_snoc] at h
    have hfloor := ih hcs' (by push_cast at h; split at h <;> split at h <;> omega)
    -- A floor that still has a slot had one before.
    have hslots : (slotsOf (rulings verifyArchive rules cutoff cs) : ℤ) < rules.keepMinimum := by
      have := hfloor.slots
      push_cast at h
      split at h <;> split at h <;> omega
    have hbad := hfloor.bad (hcs c (by simp)) hcs'
    constructor
    · rw [rulings_snoc, slotsOf_snoc, holders_snoc, hfloor.slots, ruling_holds haccepted hslots,
        hbad, slotted]
    · intro p
      rw [rulings_snoc, mem_goneOf_snoc, ruling_entry, ruling_removed haccepted hslots, hbad,
        hfloor.gone, exists_split_snoc]
      have hlast : (within cutoff c = false ∧ c.inside = true ∧ refuted rules cutoff cs c = true) ↔
          doomed cutoff c = true ∧ refuted rules cutoff cs c = true := by
        simp only [doomed, Bool.and_eq_true, Bool.not_eq_true']
        constructor
        · rintro ⟨hpast, hinside, hrefuted⟩
          exact ⟨⟨⟨hpast, hinside⟩, (Bool.and_eq_true_iff.mp hrefuted).1⟩, hrefuted⟩
        · rintro ⟨⟨⟨hpast, hinside⟩, -⟩, hrefuted⟩
          exact ⟨hpast, hinside, hrefuted⟩
      rw [hlast, ← and_or_left, and_comm (b := c.path = p)]

/-! ## The newest dumps -/

/-- The `keep_minimum` newest dumps that verify as valid are on the disk. -/
def KeepsNewestValid (corpus : Corpus) (rules : Rules) (gone : List Str) : Prop :=
  ∀ newer d older, candidates corpus = newer ++ d :: older → d.verdict = .valid →
    (newer.countP (·.verdict = .valid) : ℤ) < rules.keepMinimum → d.path ∉ gone

/-- An entry that is not bad is on the disk after the run, if fewer than `keep_minimum` newer entries
are fresh or not found bad. -/
theorem newest_on_disk {o : CleanupOutcome} {gone : List Str}
    (h : cleanupOldBackups corpus rules now = .ok (o, gone)) {newer older : List Candidate}
    {d : Candidate} (hd : candidates corpus = newer ++ d :: older) (hgood : d.verdict ≠ .invalid)
    (hfew : (holders rules (rules.cutoff now) newer : ℤ) < rules.keepMinimum) :
    d.path ∉ gone := by
  obtain ⟨haccepted, -, rfl⟩ := of_walk h
  have hmem : ∀ c ∈ newer, c ∈ corpus.entries := by
    intro c hc
    exact mem_candidates.mp (by simp [hd, hc])
  have hfloor := floor_of haccepted hmem (.inr hfew)
  -- What is removed is bad, since the floor of slots is not reached.
  intro hgone
  have hremoved : d.path ∈ ofFate .removed
      (rulings verifyArchive rules (rules.cutoff now) (candidates corpus)) := by
    unfold goneOf at hgone
    split at hgone
    · cases hgone
    · exact hgone
  rw [ofFate_iff hd] at hremoved
  have hslots := hfloor.slots
  obtain ⟨-, -, hbad⟩ := (ruling_removed haccepted (by omega)).mp hremoved
  rw [isBad_verifyArchive, Bool.and_eq_true] at hbad
  exact hgood (of_decide_eq_true hbad.1)

/-- A dump of two hours ago that nothing can be said about. -/
def unreadDump : Candidate where
  path := "/backups/b.dump".toList
  mtime := 2 * 3600
  verdict := .unverifiable

/-- A valid dump of three hours ago. -/
def olderDump : Candidate where
  path := "/backups/a.dump".toList
  mtime := 3600
  verdict := .valid

/-- The two dumps. -/
def staleCorpus : Corpus where
  entries := [unreadDump, olderDump]
  nodup := by decide
  through := by decide +kernel

/-- One dump is to be kept, of those that are older than an hour. -/
def keepOne : Rules where
  retentionHours := some 1
  keepMinimum := 1

/-- The sample's candidates are the dump that cannot be read and the older one. -/
theorem candidates_staleCorpus : candidates staleCorpus = [unreadDump, olderDump] := by
  decide +kernel

/-- The sample's cleanup removes the only dump that can be read. -/
theorem cleanup_staleCorpus : cleanupOldBackups staleCorpus keepOne (4 * 3600) = .ok
    ({ removed := [olderDump.path], exemptedByMinimum := [unreadDump.path] },
      [olderDump.path]) := by
  decide +kernel

/-- The dump that nothing can be said about takes the slot, and the valid one is removed. -/
theorem not_keepsNewestValid : ∃ o gone,
    cleanupOldBackups staleCorpus keepOne (4 * 3600) = .ok (o, gone) ∧
      ¬KeepsNewestValid staleCorpus keepOne gone := by
  refine ⟨_, _, cleanup_staleCorpus, fun h => ?_⟩
  exact h [unreadDump] olderDump [] candidates_staleCorpus rfl (by decide) (by simp)

/-- The dump that took the slot is on the disk. -/
theorem newest_on_disk_stale : unreadDump.path ∉ [olderDump.path] :=
  newest_on_disk cleanup_staleCorpus
    (show candidates staleCorpus = [] ++ unreadDump :: [olderDump] from candidates_staleCorpus)
    (by decide) (by decide +kernel)

/-! ## A run that looks at validity, and one that does not -/

/-- More slots stay beyond the ceiling. -/
theorem Rules.beyondCeiling_mono {slots slots' : ℕ} (h : slots ≤ slots')
    (hbeyond : rules.beyondCeiling slots = true) : rules.beyondCeiling slots' = true := by
  unfold Rules.beyondCeiling at *
  cases hlast : rules.keepLast with
  | none => simp [hlast] at hbeyond
  | some n =>
    simp only [hlast, Option.any_some, decide_eq_true_eq] at hbeyond ⊢
    omega

/-- What takes a slot in a run that has taken no fewer, and would not without the verification. -/
theorem ruling_holds_blind {verify : List Str → Candidate → ArchiveVerdict} {log blind : List Ruling}
    {c : Candidate} (h : slotsOf log ≤ slotsOf blind)
    (hblind : (ruling neverBad rules cutoff blind c).holds = true) :
    (ruling verify rules cutoff log c).holds = true ∨
      within cutoff c = false ∧ isBad (verify (goneOf rules log) c) = true := by
  rw [ruling_holds_iff] at hblind ⊢
  obtain ⟨hceiling, hwhy⟩ := hblind
  have hceiling' : rules.beyondCeiling (slotsOf log) = false := by
    rw [Bool.eq_false_iff] at hceiling ⊢
    exact fun hbeyond => hceiling (Rules.beyondCeiling_mono h hbeyond)
  -- It is fresh, or takes one of the floor's slots.
  obtain hwithin | ⟨hfloor, -⟩ := hwhy
  · exact .inl ⟨hceiling', .inl hwithin⟩
  by_cases hwithin : within cutoff c = true
  · exact .inl ⟨hceiling', .inl hwithin⟩
  by_cases hbad : isBad (verify (goneOf rules log) c) = true
  · exact .inr ⟨by simpa using hwithin, hbad⟩
  · exact .inl ⟨hceiling', .inr ⟨by omega, by simpa using hbad⟩⟩

/-- A run that looks at validity has taken no more slots than one that does not. -/
theorem slotsOf_le_blind (verify : List Str → Candidate → ArchiveVerdict) (cs : List Candidate) :
    slotsOf (rulings verify rules cutoff cs) ≤ slotsOf (rulings neverBad rules cutoff cs) := by
  induction cs using List.reverseRecOn with
  | nil => exact le_rfl
  | append_singleton cs c ih =>
    rw [rulings_snoc, rulings_snoc, slotsOf_snoc, slotsOf_snoc]
    by_cases hholds : (ruling verify rules cutoff (rulings verify rules cutoff cs) c).holds = true
    · by_cases hblind : (ruling neverBad rules cutoff (rulings neverBad rules cutoff cs) c).holds = true
      · rw [if_pos hholds, if_pos hblind]
        omega
      · rw [if_pos hholds, if_neg hblind]
        -- with as many slots taken, the run that does not look would keep it too
        suffices hne : slotsOf (rulings verify rules cutoff cs) ≠
            slotsOf (rulings neverBad rules cutoff cs) by omega
        intro hsame
        rw [ruling_holds_iff, hsame] at hholds
        rw [ruling_holds_iff] at hblind
        obtain ⟨hceiling, hwithin | ⟨hfloor, -⟩⟩ := hholds
        · exact hblind ⟨hceiling, .inl hwithin⟩
        · exact hblind ⟨hceiling, .inr ⟨hfloor, rfl⟩⟩
    · rw [if_neg hholds]
      split <;> omega

/-- The slots are those of what is kept or exempted. -/
theorem slotsOf_eq (log : List Ruling) :
    slotsOf log = (ofFate .kept log).length + (ofFate .exempted log).length := by
  induction log using List.reverseRecOn with
  | nil => rfl
  | append_singleton log r ih =>
    rw [slotsOf_snoc, ofFate_snoc, ofFate_snoc, List.length_append, List.length_append, ih]
    unfold Ruling.holds
    cases r.fate <;> simp <;> omega

/-- The ceiling is never passed. -/
theorem slotsOf_le_ceiling (haccepted : rules.Accepted) {n : ℤ} (hlast : rules.keepLast = some n)
    (verify : List Str → Candidate → ArchiveVerdict) (cs : List Candidate) :
    (slotsOf (rulings verify rules cutoff cs) : ℤ) ≤ n := by
  have hpos := (haccepted n hlast).1
  -- Induction on the candidates: one more takes a slot only below the ceiling.
  induction cs using List.reverseRecOn with
  | nil =>
    show ((0 : ℕ) : ℤ) ≤ n
    omega
  | append_singleton cs c ih =>
    rw [rulings_snoc, slotsOf_snoc]
    split
    · next hholds =>
      have hceiling := (ruling_holds_iff.mp hholds).1
      unfold Rules.beyondCeiling at hceiling
      rw [hlast, Option.any_some, decide_eq_false_iff_not] at hceiling
      push_cast
      omega
    · omega

/-- Two checks that find the same dumps bad rule alike. -/
theorem rulings_congr {verify verify' : List Str → Candidate → ArchiveVerdict} {cs : List Candidate}
    (h : ∀ gone, ∀ c ∈ cs, isBad (verify gone c) = isBad (verify' gone c)) :
    rulings verify rules cutoff cs = rulings verify' rules cutoff cs := by
  induction cs using List.reverseRecOn with
  | nil => rfl
  | append_singleton cs c ih =>
    rw [rulings_snoc, rulings_snoc, ih fun gone d hd => h gone d (by simp [hd])]
    unfold ruling
    rw [h _ c (by simp)]

/-- Against a run that does not look at validity: no valid dump goes that it would keep, what goes
that it would keep is not an archive and is past its retention, and there is no difference where
nothing is bad. The ceiling holds in any case. -/
theorem validity_refines {o b : CleanupOutcome} {gone bgone : List Str}
    (h : cleanupOldBackups corpus rules now = .ok (o, gone))
    (hblind : blindCleanup corpus rules now = .ok (b, bgone)) :
    (∀ c ∈ corpus.entries, c.verdict = .valid → c.path ∈ o.removed → c.path ∈ b.removed) ∧
      (∀ c ∈ corpus.entries, c.path ∈ o.removed → c.path ∉ b.removed →
        c.verdict = .invalid ∧ within (rules.cutoff now) c = false) ∧
      ((∀ c ∈ corpus.entries, c.verdict ≠ .invalid) → o = b ∧ gone = bgone) ∧
      (∀ n, rules.keepLast = some n → (o.kept.length + o.exemptedByMinimum.length : ℤ) ≤ n) := by
  obtain ⟨haccepted, rfl, rfl⟩ := of_walk h
  obtain ⟨-, rfl, rfl⟩ := of_walk hblind
  -- What goes here and stays there is not an archive, and lies beyond the retention.
  have hmore : ∀ c ∈ corpus.entries,
      c.path ∈ ofFate .removed
        (rulings verifyArchive rules (rules.cutoff now) (candidates corpus)) →
      c.path ∉ ofFate .removed (rulings neverBad rules (rules.cutoff now) (candidates corpus)) →
      c.verdict = .invalid ∧ within (rules.cutoff now) c = false := by
    intro c hc hremoved hblind
    obtain ⟨newer, older, hsplit⟩ := List.append_of_mem (mem_candidates.mpr hc)
    rw [ofFate_iff hsplit, ruling_removed_iff] at hremoved hblind
    have hholds : (ruling neverBad rules (rules.cutoff now)
        (rulings neverBad rules (rules.cutoff now) newer) c).holds = true := by
      by_contra hnot
      exact hblind ⟨hremoved.1, by simpa using hnot⟩
    obtain hkept | ⟨hpast, hbad⟩ := ruling_holds_blind (slotsOf_le_blind verifyArchive newer) hholds
    · rw [hremoved.2] at hkept
      cases hkept
    · rw [isBad_verifyArchive, Bool.and_eq_true] at hbad
      exact ⟨of_decide_eq_true hbad.1, hpast⟩
  refine ⟨?_, hmore, ?_, ?_⟩
  · intro c hc hvalid hremoved
    by_contra hnot
    have hinvalid := (hmore c hc hremoved hnot).1
    rw [hvalid] at hinvalid
    cases hinvalid
  -- Where every dump is good, both rule alike.
  · intro hgood
    have hsame : rulings verifyArchive rules (rules.cutoff now) (candidates corpus) =
        rulings neverBad rules (rules.cutoff now) (candidates corpus) := by
      refine rulings_congr fun gone c hc => ?_
      have hverdict : isBad c.verdict = false := decide_eq_false (hgood c (mem_candidates.mp hc))
      rw [isBad_verifyArchive, hverdict]
      rfl
    rw [hsame]
    exact ⟨rfl, rfl⟩
  -- The slots are not more than the ceiling.
  · intro n hlast
    have hslots : (slotsOf (rulings verifyArchive rules (rules.cutoff now) (candidates corpus)) : ℤ) ≤
        n := slotsOf_le_ceiling haccepted hlast verifyArchive _
    rw [slotsOf_eq] at hslots
    push_cast at hslots
    exact hslots

/-- A dump of two hours ago that is not an archive. -/
def brokenDump : Candidate := { unreadDump with verdict := .invalid }

/-- It, and the valid one of three hours ago. -/
def brokenCorpus : Corpus where
  entries := [brokenDump, olderDump]
  nodup := staleCorpus.nodup
  through := by decide +kernel

/-- The one dump goes where the other one would: it is not an archive, and past its retention. -/
theorem validity_refines_broken :
    brokenDump.verdict = .invalid ∧ within (keepOne.cutoff (4 * 3600)) brokenDump = false := by
  have h : cleanupOldBackups brokenCorpus keepOne (4 * 3600) = .ok
      ({ removed := [brokenDump.path], exemptedByMinimum := [olderDump.path],
         invalid := [brokenDump.path] }, [brokenDump.path]) := by decide +kernel
  have hblind : blindCleanup brokenCorpus keepOne (4 * 3600) = .ok
      ({ removed := [olderDump.path], exemptedByMinimum := [brokenDump.path] },
        [olderDump.path]) := by decide +kernel
  exact (validity_refines h hblind).2.1 brokenDump List.mem_cons_self List.mem_cons_self
    (by decide +kernel)

end Fraisier.Backup.Cleanup
