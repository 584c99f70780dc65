import Fraisier.Backup.Reported

/-!
# The policy of the retention

What the rules of `cleanup_old_backups` are for, in one equation: of dumps that are good, or that
nothing can be said about, the newest stay, as many as `Rules.survivors` (`cleanup_policy`). And what
one run leaves, a second one with the same rules leaves too, whatever the dumps are
(`cleanup_settles`): an entry that goes takes no slot, so that the others are ruled on as if it had not
been there. A link to an entry that went is no part of this, since `_candidates` raises where it asks
for its time.
-/

namespace Fraisier.Backup.Cleanup

open Fraisier.Lib Sorting

variable {corpus : Corpus} {rules : Rules} {cutoff : Option ℚ} {now : ℚ} {gone : List Str}

/-! ## The policy -/

/-- How many of the newest entries stay: those within the retention, or the floor if there are fewer,
and no more than the ceiling. -/
def Rules.survivors (rules : Rules) (cutoff : Option ℚ) (cs : List Candidate) : ℕ :=
  let least := max (cs.countP (within cutoff)) rules.keepMinimum.toNat
  rules.keepLast.elim least fun n => min least n.toNat

/-- What the rules say of entries in their order: the newest stay, and the others go. -/
def Rules.policy (rules : Rules) (cutoff : Option ℚ) (cs : List Candidate) : CleanupOutcome :=
  let newest := cs.take (rules.survivors cutoff cs)
  let oldest := cs.drop (rules.survivors cutoff cs)
  { kept := (newest.filter (within cutoff)).map (·.path)
    exemptedByMinimum := (newest.filter (!within cutoff ·)).map (·.path)
    removed := oldest.map (·.path)
    removedByCeiling := (oldest.filter (within cutoff)).map (·.path) }

/-- The entry is a dump of this directory that is not found bad. -/
structure Sound (c : Candidate) : Prop where
  inside : c.inside = true
  good : c.verdict ≠ .invalid

/-- The ruling on an entry that stays. -/
def stays (cutoff : Option ℚ) (c : Candidate) : Ruling where
  entry := c
  fate := if within cutoff c then .kept else .exempted
  rejected := false

/-- The ruling on an entry that goes. -/
def goes (c : Candidate) : Ruling where
  entry := c
  fate := .removed
  rejected := false

/-- A sound dump is never found bad. -/
theorem isBad_of_sound {c : Candidate} (h : Sound c) (gone : List Str) :
    isBad (verifyArchive gone c) = false := by
  rw [isBad_verifyArchive, isBad, decide_eq_false h.good, Bool.false_and]

/-- A fresh entry is one of those that are within the retention. -/
theorem length_lt_of_within {newer older : List Candidate} {c : Candidate}
    (h : candidates corpus = newer ++ c :: older) (hwithin : within cutoff c = true) :
    newer.length < (candidates corpus).countP (within cutoff) := by
  have hall : newer.countP (within cutoff) = newer.length :=
    List.countP_eq_length.mpr (within_newer h hwithin)
  rw [h, List.countP_append, hall, List.countP_cons_of_pos hwithin]
  omega

/-- A stale entry comes after all of those that are within the retention. -/
theorem countP_le_of_not_within {newer older : List Candidate} {c : Candidate}
    (h : candidates corpus = newer ++ c :: older) (hstale : within cutoff c = false) :
    (candidates corpus).countP (within cutoff) ≤ newer.length := by
  have hnone : (c :: older).countP (within cutoff) = 0 := by
    refine List.countP_eq_zero.mpr fun d hd hwithin => ?_
    obtain rfl | hd := List.mem_cons.mp hd
    · exact Bool.false_ne_true (hstale.symm.trans hwithin)
    · obtain ⟨between, older', rfl⟩ := List.append_of_mem hd
      have hsplit : candidates corpus = (newer ++ c :: between) ++ d :: older' := by simp [h]
      have hfresh := within_newer hsplit hwithin c (by simp)
      exact Bool.false_ne_true (hstale.symm.trans hfresh)
  rw [h, List.countP_append, hnone, Nat.add_zero]
  exact List.countP_le_length

/-- What stays holds the slots. -/
theorem slotsOf_policy (cs ds : List Candidate) :
    slotsOf (cs.map (stays cutoff) ++ ds.map goes) = cs.length := by
  have hstays : (cs.map (stays cutoff)).countP (·.holds) = cs.length := by
    rw [← List.length_map (f := stays cutoff), List.countP_eq_length]
    intro r hr
    obtain ⟨c, -, rfl⟩ := List.mem_map.mp hr
    cases h : within cutoff c <;> simp [Ruling.holds, stays, h]
  have hgoes : (ds.map goes).countP (·.holds) = 0 := by
    rw [List.countP_eq_zero]
    intro r hr
    obtain ⟨c, -, rfl⟩ := List.mem_map.mp hr
    simp [Ruling.holds, goes]
  rw [slotsOf, List.countP_append, hstays, hgoes, Nat.add_zero]

/-- The ceiling is open for the entries that stay. -/
theorem not_beyond_survivors {cs : List Candidate} {i : ℕ} (h : i < rules.survivors cutoff cs) :
    rules.beyondCeiling i = false := by
  unfold Rules.beyondCeiling
  cases hlast : rules.keepLast with
  | none => rfl
  | some n =>
    simp only [Rules.survivors, hlast, Option.elim_some] at h
    simp only [Option.any_some, decide_eq_false_iff_not]
    omega

/-- Where fewer stay than are fresh or than the floor has slots for, the ceiling is full. -/
theorem beyond_survivors {cs : List Candidate}
    (h : rules.survivors cutoff cs < max (cs.countP (within cutoff)) rules.keepMinimum.toNat) :
    rules.beyondCeiling (rules.survivors cutoff cs) = true := by
  unfold Rules.beyondCeiling Rules.survivors at *
  cases hlast : rules.keepLast with
  | none =>
    rw [hlast] at h
    exact absurd h (Nat.lt_irrefl _)
  | some n =>
    simp only [hlast, Option.elim_some] at h
    have hfull : n ≤ (n.toNat : ℤ) := Int.self_le_toNat n
    simp only [Option.elim_some, Option.any_some]
    refine decide_eq_true (hfull.trans ?_)
    omega

/-- The ruling on an entry of a sound corpus: as many of the newest stay as the policy says. -/
theorem ruling_policy {newer older : List Candidate} {c : Candidate} {log : List Ruling}
    (h : candidates corpus = newer ++ c :: older) (hsound : Sound c)
    (hslots : slotsOf log = min newer.length (rules.survivors cutoff (candidates corpus))) :
    ruling verifyArchive rules cutoff log c =
      if newer.length < rules.survivors cutoff (candidates corpus) then stays cutoff c
      else goes c := by
  have hbad := isBad_of_sound hsound (goneOf rules log)
  -- The slots are the newer entries, until the policy's number is reached.
  by_cases hlt : newer.length < rules.survivors cutoff (candidates corpus)
  · rw [if_pos hlt]
    have hslots' : slotsOf log = newer.length := by omega
    have hopen := not_beyond_survivors hlt
    cases hwithin : within cutoff c with
    | true => simp [ruling, contests, stays, hwithin, hslots', hopen]
    | false =>
      have hfloor : (newer.length : ℤ) < rules.keepMinimum := by
        have hle := countP_le_of_not_within h hwithin
        have hleast : rules.survivors cutoff (candidates corpus) ≤
            max ((candidates corpus).countP (within cutoff)) rules.keepMinimum.toNat := by
          unfold Rules.survivors
          cases rules.keepLast with
          | none => exact Nat.le_refl _
          | some n => exact Nat.min_le_left _ _
        omega
      simp [ruling, contests, stays, hwithin, hslots', hopen, hfloor, hbad]
  · rw [if_neg hlt]
    have hslots' : slotsOf log = rules.survivors cutoff (candidates corpus) := by omega
    cases hwithin : within cutoff c with
    | true =>
      have hfull : rules.beyondCeiling (slotsOf log) = true := by
        have hfresh := length_lt_of_within h hwithin
        rw [hslots']
        exact beyond_survivors (by omega)
      simp [ruling, contests, goes, hwithin, hfull, hsound.inside]
    | false =>
      have hnone : contests rules cutoff log c = false := by
        by_cases hfloor : (slotsOf log : ℤ) < rules.keepMinimum
        · have hfull : rules.beyondCeiling (slotsOf log) = true := by
            rw [hslots'] at hfloor ⊢
            exact beyond_survivors (by omega)
          simp [contests, hfull]
        · simp [contests, hfloor]
      simp [ruling, goes, hwithin, hnone, hsound.inside]

/-- The rulings on a sound corpus. -/
theorem rulings_policy {cs older : List Candidate} {n : ℕ}
    (hn : rules.survivors cutoff (candidates corpus) = n) (hcs : candidates corpus = cs ++ older)
    (hsound : ∀ c ∈ corpus.entries, Sound c) :
    rulings verifyArchive rules cutoff cs =
      (cs.take n).map (stays cutoff) ++ (cs.drop n).map goes := by
  -- Induction from the newest candidate on: one more is judged after those before it.
  induction cs using List.reverseRecOn generalizing older with
  | nil => simp
  | append_singleton cs c ih =>
    have hsplit : candidates corpus = cs ++ c :: older := by rw [hcs, List.append_assoc]; rfl
    have hmem : c ∈ corpus.entries := mem_candidates.mp (by simp [hsplit])
    have hslots : slotsOf (rulings verifyArchive rules cutoff cs) =
        min cs.length (rules.survivors cutoff (candidates corpus)) := by
      rw [ih hsplit, slotsOf_policy, List.length_take, hn, Nat.min_comm]
    rw [rulings_snoc, ruling_policy hsplit (hsound c hmem) hslots, ih hsplit, hn]
    -- It stays exactly while fewer than the slots are taken.
    by_cases hlt : cs.length < n
    · have hlength : (cs ++ [c]).length ≤ n := by
        rw [List.length_append, List.length_singleton]
        exact hlt
      rw [if_pos hlt, List.take_of_length_le hlength, List.take_of_length_le hlt.le,
        List.drop_of_length_le hlength, List.drop_of_length_le hlt.le]
      simp
    · have hle : n ≤ cs.length := Nat.le_of_not_lt hlt
      rw [if_neg hlt, List.take_append_of_le_length hle, List.drop_append_of_le_length hle]
      simp

/-- What goes is what is removed. -/
theorem ofFate_policy (fate : Fate) (cs ds : List Candidate) :
    ofFate fate (cs.map (stays cutoff) ++ ds.map goes) =
      (cs.filter fun c => (stays cutoff c).fate = fate).map (·.path) ++
        if fate = .removed then ds.map (·.path) else [] := by
  unfold ofFate
  rw [List.filter_append, List.map_append, List.filter_map, List.filter_map, List.map_map,
    List.map_map]
  congr 1
  by_cases hfate : fate = .removed
  · simp [goes, hfate, Function.comp_def]
  · have hnone : ∀ c ∈ ds, ¬((fun r => decide (r.fate = fate)) ∘ goes) c = true := by
      intro c _ h
      exact hfate (of_decide_eq_true h).symm
    rw [if_neg hfate, List.filter_eq_nil_iff.mpr hnone, List.map_nil]

/-- What stays is kept when it is within the retention. -/
theorem fate_stays_kept (c : Candidate) :
    decide ((stays cutoff c).fate = .kept) = within cutoff c := by
  unfold stays
  cases within cutoff c <;> rfl

/-- What stays beyond the retention is exempted. -/
theorem fate_stays_exempted (c : Candidate) :
    decide ((stays cutoff c).fate = .exempted) = !within cutoff c := by
  unfold stays
  cases within cutoff c <;> rfl

/-- What stays is not removed. -/
theorem fate_stays_ne_removed (c : Candidate) : (stays cutoff c).fate ≠ .removed := by
  unfold stays
  cases within cutoff c <;> simp

/-- What is reported where some entries stay and the others go. -/
theorem outcome_policy (rules : Rules) (newest oldest : List Candidate) :
    (walkOf rules cutoff (newest.map (stays cutoff) ++ oldest.map goes)).outcome =
      { kept := (newest.filter (within cutoff)).map (·.path)
        exemptedByMinimum := (newest.filter (!within cutoff ·)).map (·.path)
        removed := oldest.map (·.path)
        removedByCeiling := (oldest.filter (within cutoff)).map (·.path) } := by
  -- Only one that stays can be beyond the ceiling, and none of either kind is rejected.
  have hceiling : (newest.map (stays cutoff) ++ oldest.map goes).filter
      (fun r => within cutoff r.entry) =
        (newest.filter (within cutoff)).map (stays cutoff) ++
          (oldest.filter (within cutoff)).map goes := by
    rw [List.filter_append, List.filter_map, List.filter_map]
    rfl
  have hrejected : (newest.map (stays cutoff) ++ oldest.map goes).filter (·.rejected) = [] := by
    refine List.filter_eq_nil_iff.mpr fun r hr => ?_
    obtain hr | hr := List.mem_append.mp hr
    · obtain ⟨c, -, rfl⟩ := List.mem_map.mp hr
      exact Bool.false_ne_true
    · obtain ⟨c, -, rfl⟩ := List.mem_map.mp hr
      exact Bool.false_ne_true
  unfold walkOf
  rw [hceiling, hrejected]
  simp only [ofFate_policy, fate_stays_ne_removed, fate_stays_kept, fate_stays_exempted]
  simp

/-- A run over dumps that are good, or that nothing can be said about, follows the policy. -/
theorem cleanup_policy {o : CleanupOutcome} (h : cleanupOldBackups corpus rules now = .ok (o, gone))
    (hsound : ∀ c ∈ corpus.entries, Sound c) :
    o = rules.policy (rules.cutoff now) (candidates corpus) := by
  obtain ⟨-, rfl, -⟩ := of_walk h
  rw [rulings_policy rfl (List.append_nil _).symm hsound]
  exact outcome_policy rules _ _

/-- The sample's cleanup removes the older dump and exempts the other. -/
theorem cleanup_policy_stale :
    ({ removed := [olderDump.path], exemptedByMinimum := [unreadDump.path] } : CleanupOutcome) =
      keepOne.policy (keepOne.cutoff (4 * 3600)) (candidates staleCorpus) :=
  cleanup_policy cleanup_staleCorpus (by
    intro c hc
    obtain rfl | rfl : c = unreadDump ∨ c = olderDump := by simpa [staleCorpus] using hc
    · exact ⟨rfl, by decide⟩
    · exact ⟨rfl, by decide⟩)

/-! ## A second run -/

/-- The corpus without the entries that are gone. -/
def Corpus.leaving (corpus : Corpus) (gone : List Str) : Corpus where
  entries := corpus.entries.filter fun c => c.path ∉ gone
  nodup := corpus.nodup.sublist (List.filter_sublist.map _)
  through c hc d hd :=
    corpus.through c (List.mem_of_mem_filter hc) d (List.mem_of_mem_filter hd)

/-- What stays leads through nothing that is gone. -/
def NoneDangles (corpus : Corpus) (gone : List Str) : Prop :=
  ∀ c ∈ corpus.entries, c.path ∉ gone → ∀ p ∈ c.through, p ∉ gone

/-- The candidates that are left are those not gone. -/
theorem candidates_leaving (corpus : Corpus) (gone : List Str) :
    candidates (corpus.leaving gone) = (candidates corpus).filter fun c => c.path ∉ gone :=
  (filter_insertionSort _ _).symm

/-- The rulings on the entries that are not removed. -/
def staying (log : List Ruling) : List Ruling := log.filter fun r => r.fate ≠ .removed

/-- Leaving out what was removed keeps the other lists. -/
theorem ofFate_staying {fate : Fate} (h : fate ≠ .removed) (log : List Ruling) :
    ofFate fate (staying log) = ofFate fate log := by
  unfold ofFate staying
  rw [List.filter_filter]
  congr 1
  refine List.filter_congr fun r _ => ?_
  by_cases hfate : r.fate = fate <;> simp [hfate, h]

/-- The fates of two logs are listed one after the other. -/
@[simp] theorem ofFate_append (fate : Fate) (log log' : List Ruling) :
    ofFate fate (log ++ log') = ofFate fate log ++ ofFate fate log' := by
  simp [ofFate]

/-- What stays lists nothing as removed. -/
theorem ofFate_removed_staying (log : List Ruling) : ofFate .removed (staying log) = [] := by
  unfold ofFate staying
  rw [List.filter_filter]
  simp

/-- What stays has nothing gone. -/
theorem goneOf_staying (log : List Ruling) : goneOf rules (staying log) = [] := by
  rw [goneOf, ofFate_removed_staying]
  exact ite_self _

/-- What is removed takes no slot. -/
theorem slotsOf_staying (log : List Ruling) : slotsOf (staying log) = slotsOf log := by
  unfold slotsOf staying
  rw [List.countP_filter]
  refine List.countP_congr fun r _ => ?_
  cases hfate : r.fate <;> simp [Ruling.holds, hfate]

/-- A dump read through nothing that is gone has its own verdict. -/
theorem verifyArchive_of_apart {c : Candidate} (h : ∀ p ∈ c.through, p ∉ gone) :
    verifyArchive gone c = c.verdict := by
  have hpresent : c.present gone = true := by simpa [Candidate.present] using h
  rw [verifyArchive, if_pos hpresent]

/-- The entries that stay are ruled on as they were. -/
theorem rulings_staying {cs older : List Candidate} (hcs : candidates corpus = cs ++ older)
    (hgone : gone = goneOf rules (rulings verifyArchive rules cutoff (candidates corpus)))
    (hdry : rules.dryRun = false) (hlinks : NoneDangles corpus gone) :
    rulings verifyArchive rules cutoff (cs.filter fun c => c.path ∉ gone) =
      staying (rulings verifyArchive rules cutoff cs) := by
  have hremoved : gone = ofFate .removed (rulings verifyArchive rules cutoff (candidates corpus)) := by
    rw [hgone, goneOf, hdry, if_neg Bool.false_ne_true]
  induction cs using List.reverseRecOn generalizing older with
  | nil => rfl
  | append_singleton cs c ih =>
    have hsplit : candidates corpus = cs ++ c :: older := by rw [hcs, List.append_assoc]; rfl
    have hrest := ih hsplit
    have hfate : c.path ∈ gone ↔
        (ruling verifyArchive rules cutoff (rulings verifyArchive rules cutoff cs) c).fate = .removed := by
      rw [hremoved]
      exact ofFate_iff hsplit
    rw [rulings_snoc, List.filter_append]
    by_cases hin : c.path ∈ gone
    · rw [List.filter_cons_of_neg (by simpa using hin), List.filter_nil, List.append_nil, hrest]
      simp [staying, hfate.mp hin]
    · have hmem : c ∈ corpus.entries := mem_candidates.mp (by simp [hsplit])
      have hverdict : ∀ log, (∀ p ∈ goneOf rules log, p ∈ gone) →
          verifyArchive (goneOf rules log) c = c.verdict := fun log hsub =>
        verifyArchive_of_apart fun p hp hlog => hlinks c hmem hin p hp (hsub p hlog)
      have hnewer : ∀ p ∈ goneOf rules (rulings verifyArchive rules cutoff cs), p ∈ gone := by
        obtain ⟨log, hlog⟩ := exists_rulings_append verifyArchive rules cutoff cs (c :: older)
        intro p hp
        rw [goneOf, hdry, if_neg Bool.false_ne_true] at hp
        rw [hremoved, hsplit, hlog, ofFate_append]
        exact List.mem_append_left _ hp
      have hnothing : ∀ p ∈ goneOf rules (staying (rulings verifyArchive rules cutoff cs)),
          p ∈ gone := by
        rw [goneOf_staying]
        exact List.forall_mem_nil _
      -- the slots are the same, and so is what is found of the entry
      have hsame : ruling verifyArchive rules cutoff
          (staying (rulings verifyArchive rules cutoff cs)) c =
            ruling verifyArchive rules cutoff (rulings verifyArchive rules cutoff cs) c := by
        unfold ruling contests
        rw [slotsOf_staying, hverdict _ hnothing, hverdict _ hnewer]
      have hstays : (ruling verifyArchive rules cutoff
          (rulings verifyArchive rules cutoff cs) c).fate ≠ .removed := fun h => hin (hfate.mpr h)
      rw [List.filter_cons_of_pos (by simpa using hin), List.filter_nil, rulings_snoc, hrest, hsame]
      simp [staying, hstays]

/-- What is left of an outcome, when nothing is removed any more. -/
def CleanupOutcome.settled (o : CleanupOutcome) (gone : List Str) : CleanupOutcome :=
  { o with removed := [], removedByCeiling := [], invalid := o.invalid.filter (· ∉ gone) }

/-- Without what was removed, the outcome is settled. -/
theorem outcome_staying {log : List Ruling}
    (hgone : ∀ r ∈ log, r.entry.path ∈ gone ↔ r.fate = .removed) :
    (walkOf rules cutoff (staying log)).outcome =
      (walkOf rules cutoff log).outcome.settled gone := by
  -- What was rejected and stayed is what was rejected and not removed.
  have hinvalid : ((staying log).filter (·.rejected)).map (·.entry.path) =
      ((log.filter (·.rejected)).map (·.entry.path)).filter (· ∉ gone) := by
    unfold staying
    rw [List.filter_map, List.filter_filter, List.filter_filter]
    congr 1
    refine List.filter_congr fun r hr => ?_
    have := hgone r hr
    by_cases hfate : r.fate = .removed <;> simp [this, hfate]
  have hceiling : ofFate .removed ((staying log).filter fun r => within cutoff r.entry) = [] := by
    rw [staying, List.filter_comm]
    exact ofFate_removed_staying _
  unfold walkOf CleanupOutcome.settled
  rw [hinvalid, hceiling, ofFate_removed_staying, ofFate_staying (by decide),
    ofFate_staying (by decide)]

/-- What a run leaves, a second run with the same rules leaves and reports as the first did. -/
theorem cleanup_settles {o : CleanupOutcome}
    (h : cleanupOldBackups corpus rules now = .ok (o, gone)) (hdry : rules.dryRun = false)
    (hlinks : NoneDangles corpus gone) :
    cleanupOldBackups (corpus.leaving gone) rules now = .ok (o.settled gone, []) := by
  obtain ⟨haccepted, ho, hgone⟩ := of_walk h
  -- What the first run removed is no candidate any more.
  have hfates : ∀ r ∈ rulings verifyArchive rules (rules.cutoff now) (candidates corpus),
      r.entry.path ∈ gone ↔ r.fate = .removed := by
    intro r hr
    obtain ⟨newer, older, hsplit, hruling⟩ := mem_rulings _ _ _ hr
    rw [hgone, goneOf, hdry, if_neg Bool.false_ne_true, ofFate_iff hsplit, ← hruling]
  have hrulings := rulings_staying (List.append_nil _).symm hgone hdry hlinks
  rw [← candidates_leaving] at hrulings
  -- The second run accepts the rules, removes nothing and reports the same.
  refine walk_iff.mpr ⟨⟨haccepted, ?_⟩, ?_, ?_⟩
  · rintro ⟨newer, c, older, hsplit, hremoved, -⟩
    obtain ⟨log, hlog⟩ := exists_rulings_middle verifyArchive rules (rules.cutoff now) newer older c
    rw [← hsplit, hrulings] at hlog
    have hmem : ruling verifyArchive rules (rules.cutoff now)
        (rulings verifyArchive rules (rules.cutoff now) newer) c ∈
          staying (rulings verifyArchive rules (rules.cutoff now) (candidates corpus)) := by
      rw [hlog]
      exact List.mem_append_right _ List.mem_cons_self
    exact absurd hremoved (by simpa using (List.mem_filter.mp hmem).2)
  · rw [hrulings, outcome_staying hfates, ho]
  · rw [hrulings, goneOf_staying]

/-- The sample's second cleanup removes nothing. -/
theorem cleanup_settles_stale :
    cleanupOldBackups (staleCorpus.leaving [olderDump.path]) keepOne (4 * 3600) =
      .ok ({ exemptedByMinimum := [unreadDump.path] }, []) :=
  cleanup_settles cleanup_staleCorpus rfl (by unfold NoneDangles; decide +kernel)

end Fraisier.Backup.Cleanup
