import Mathlib
import Fraisier.Lib.JsonIndent
import Fraisier.Dbops.Preflight

/-!
# When a preflight hides nothing

A preflight may say that all has passed only when confiture exited with 0 and listed no error. Two
things come between: an error on a migration that is also listed as non-transactional is left out
of the checks, and the exit is not looked at again once it is 0 or 7. A value of another type than
the passes expect raises something that is no `DatabaseError` (`hides_nothing_iff`).
-/

namespace Fraisier.Dbops

open Fraisier.Lib Json Unicode Fallible

variable {limit : ℕ} {limits : Limits} {run : CompletedProcess} {issues : List Json}
  {ms : List (Text × Json)}

/-! ## What the issues say -/

/-- The issues list the migration as one that cannot run in a transaction. -/
def IsSkipped (issues : List Json) (k : Key) : Prop :=
  ∃ ms, .obj ms ∈ issues ∧ skips ms = true ∧ (getD ms "migration" .null).key = .ok k

/-- No issue has error severity. -/
def NoErrors (issues : List Json) : Prop := ∀ ms, .obj ms ∈ issues → isError ms = false

/-- A failure is not hidden: there is a `DatabaseError`, or a result that says all has passed only
for an exit of 0 and no errors. -/
def HidesNothing (limits : Limits) (run : CompletedProcess) (issues : List Json) : Prop :=
  (∃ e, runConfiturePreflight limits run = .error (.databaseError e)) ∨
    ∃ result, runConfiturePreflight limits run = .ok result ∧
      (result.allPassed = true → run.returncode = 0 ∧ NoErrors issues)

/-- The error is on a migration that is skipped. -/
def Excused (issues : List Json) (issue : List (Text × Json)) : Prop :=
  ∃ k, (getD issue "migration" .null).key = .ok k ∧ IsSkipped issues k

/-- Some error names no migration. -/
def Unmapped (issues : List Json) (skipped : Key → Prop) : Prop :=
  ∃ ms, .obj ms ∈ issues ∧ isError ms = true ∧ (getD ms "migration" .null).truthy = false ∧
    ∃ k, (getD ms "migration" .null).key = .ok k ∧ ¬skipped k

/-! ## What the passes can read -/

/-- A text, or something falsy. -/
def Worded (v : Json) : Prop := v.truthy = true → ∃ s, v = .str s

/-- The `details` are an object, or something falsy. -/
def Detailed (issue : List (Text × Json)) : Prop :=
  (getD issue "details" .null).truthy = true → ∃ ds, getD issue "details" .null = .obj ds

/-- The error in the `details`. -/
def errorDetail (issue : List (Text × Json)) : Json :=
  match getD issue "details" .null with
  | .obj ds => getD ds "error" .null
  | _ => .null

/-- What an error says. -/
def errorSaid (issue : List (Text × Json)) : Json :=
  (errorDetail issue).orElse (getD issue "message" (.str []))

/-- The issue can be described in a message. -/
def Describable (limit : ℕ) (issue : Json) : Prop :=
  ∃ ms, issue = .obj ms ∧ Detailed ms ∧
    (Worded (getD ms "severity" (.str [])) ∧ Worded (getD ms "code" (.str [])) ∧
      Worded (getD ms "message" (.str []))) ∧
    ((getD ms "migration" .null).truthy = true → (getD ms "migration" .null).depth ≤ limit) ∧
      ((errorDetail ms).truthy = true → (errorDetail ms).depth ≤ limit)

/-- The first pass can read the issues, when it has recorded the versions `seen`: each is an object,
and one that is skipped has a version that can be a key, with a message that is a text when it is
the first of its version. -/
def SkipsReadable : (seen : Key → Prop) → List Json → Prop
  | _, [] => True
  | seen, issue :: issues => ∃ ms, issue = .obj ms ∧
      (skips ms = false → SkipsReadable seen issues) ∧
      (skips ms = true → ∃ k, (getD ms "migration" .null).key = .ok k ∧
        (¬seen k → Worded (getD ms "message" (.str []))) ∧
          SkipsReadable (fun j => seen j ∨ j = k) issues)

/-- The second pass can read the issues up to one that ends it, when the errors of each version so
far are held in a text or a value nested as deep as `held` says: an error has a version that can be
a key and `details` that are an object, the first of a version has a message that is a text, and a
further one is joined to what is held. -/
def ErrorsReadable (limit : ℕ) (skipped : Key → Prop) : (held : Key → Option ℕ) → List Json → Prop
  | _, [] => True
  | held, issue :: issues => ∃ ms, issue = .obj ms ∧
      (isError ms = false → ErrorsReadable limit skipped held issues) ∧
      (isError ms = true → ∃ k, (getD ms "migration" .null).key = .ok k ∧
        (skipped k → ErrorsReadable limit skipped held issues) ∧
        (¬skipped k → (getD ms "migration" .null).truthy = true → Detailed ms ∧
          (held k = none → Worded (getD ms "message" (.str [])) ∧
            ErrorsReadable limit skipped (Function.update held k (some (errorSaid ms).depth))
              issues) ∧
          (∀ d, held k = some d → d ≤ limit ∧ (errorSaid ms).depth ≤ limit ∧
            ErrorsReadable limit skipped (Function.update held k (some 0)) issues)))

/-- Nothing that confiture reported is lost. For an exit that is read, the passes can read the
issues, an error that names no migration comes with issues that can be described, and an error that
is excused comes with one that is not; where there is none that is not, the exit is 0. -/
structure Surfaces (limits : Limits) (run : CompletedProcess) (data : List (Text × Json))
    (issues : List Json) : Prop where
  summary : (getD data "summary" .null).truthy = true → ∃ ds, getD data "summary" .null = .obj ds
  skips : SkipsReadable (fun _ => False) issues
  errors : ErrorsReadable limits.repr (IsSkipped issues) (fun _ => none) issues
  unmapped : Unmapped issues (IsSkipped issues) → ∀ issue ∈ issues, Describable limits.repr issue
  excused : (∀ ms, .obj ms ∈ issues → isError ms = true → Excused issues ms) →
    run.returncode = 0 ∧ NoErrors issues

/-! ## Descriptions -/

/-- The detail of an error is read when the error is detailed. -/
theorem detailsError_ok_iff {v : Json} :
    detailsError ms = .ok v ↔ Detailed ms ∧ errorDetail ms = v := by
  unfold detailsError Detailed errorDetail Json.orElse
  simp only [bind_ok_iff, members_ok_iff, pure, Except.pure, Except.ok.injEq]
  cases h : (getD ms "details" .null).truthy with
  | true =>
    simp only [if_true, true_imp_iff]
    constructor
    · rintro ⟨ds, hds, rfl⟩
      simp [hds]
    · rintro ⟨⟨ds, hds⟩, rfl⟩
      exact ⟨ds, hds, by simp only [hds]⟩
  | false =>
    -- a falsy value holds no error
    have hnone : (match getD ms "details" .null with
        | .obj ds => getD ds "error" .null
        | _ => .null) = .null := by
      cases hv : getD ms "details" .null with
      | obj ds =>
        rw [hv] at h
        obtain rfl : ds = [] := by simpa [truthy] using h
        rfl
      | _ => rfl
    rw [hnone]
    simp [getD]

/-- An issue has a word when it is worded. -/
theorem exists_issueWord_iff {v : Json} : (∃ o, issueWord v = .ok o) ↔ Worded v := by
  unfold issueWord Worded
  cases h : v.truthy with
  | false => simp
  | true => cases v <;> simp

/-- A value that counts is shown when it is not nested too deep. -/
theorem exists_shownIf_iff {v : Json} :
    (∃ o, shownIf limit v = .ok o) ↔ (v.truthy = true → v.depth ≤ limit) := by
  unfold shownIf
  cases h : v.truthy with
  | false => simp
  | true => simp [map_ok_iff, shown_ok_iff]

/-- An issue has a line when it can be described. -/
theorem exists_issueLine_iff {issue : Json} :
    (∃ line, issueLine limit issue = .ok line) ↔ Describable limit issue := by
  unfold issueLine Describable
  simp only [bind_ok_iff, members_ok_iff, detailsError_ok_iff, ← exists_issueWord_iff,
    ← exists_shownIf_iff, pure, Except.pure, Except.ok.injEq]
  constructor
  · rintro ⟨line, ms, rfl, -, ⟨hd, rfl⟩, s, hs, c, hc, m, hm, v, hv, e, he, -⟩
    exact ⟨ms, rfl, hd, ⟨⟨s, hs⟩, ⟨c, hc⟩, m, hm⟩, ⟨v, hv⟩, e, he⟩
  · rintro ⟨ms, rfl, hd, ⟨⟨s, hs⟩, ⟨c, hc⟩, m, hm⟩, ⟨v, hv⟩, e, he⟩
    exact ⟨_, ms, rfl, _, ⟨hd, rfl⟩, s, hs, c, hc, m, hm, v, hv, e, he, rfl⟩

/-- A list of issues is iterated over as it stands. -/
theorem iter_orElse_arr : ((Json.arr issues).orElse (.arr [])).iter = .ok issues := by
  cases issues <;> rfl

/-- The diagnostics can be written when the issues can be described. -/
theorem exists_formatPreflightFailure_iff {data : List (Text × Json)}
    (hdata : loadsOutput limits.loads run.stdout = .ok (.obj data))
    (hissues : getD data "issues" .null = .arr issues) :
    (∃ e, formatPreflightFailure limits run = .ok e) ↔
      ∀ issue ∈ issues, Describable limits.repr issue := by
  have hread : loadsOutput limits.loads run.stdout ≠ .error .recursionError := by simp [hdata]
  have hextract : (∃ lines, extractPreflightIssues limits run.stdout = .ok lines) ↔
      ∀ issue ∈ issues, Describable limits.repr issue := by
    unfold extractPreflightIssues
    simp only [hdata, hissues, iter_orElse_arr, bind_ok_iff, pure, Except.pure, Except.ok.injEq,
      exists_eq_left', ← exists_issueLine_iff]
    rw [← exists_mapM_ok_iff]
    exact ⟨fun ⟨_, lines, h, _⟩ => ⟨lines, h⟩, fun ⟨lines, h⟩ => ⟨_, lines, h, rfl⟩⟩
  -- The error's own fields can always be read, so only the issues count.
  rw [← hextract]
  obtain ⟨code, hcode⟩ := envelopeError_ok hread "code"
  obtain ⟨message, hmessage⟩ := envelopeError_ok hread "message"
  obtain ⟨actionable, hactionable⟩ := envelopeError_ok hread "actionable"
  unfold formatPreflightFailure
  simp only [bind_ok_iff, hcode, hmessage, hactionable, pure, Except.pure, Except.ok.injEq,
    exists_eq_left']
  exact ⟨fun ⟨_, detail, h, _⟩ => ⟨detail, h⟩, fun ⟨detail, h⟩ => ⟨_, detail, h, rfl⟩⟩

/-- A name is looked for in an issue that is worded. -/
theorem exists_nameFromIssueMessage_iff {v : Json} :
    (∃ name, nameFromIssueMessage v = .ok name) ↔ Worded v := by
  unfold nameFromIssueMessage Worded Json.orElse
  cases h : v.truthy with
  | false => simp
  | true => cases v <;> simp

/-! ## The first pass -/

/-- The migration of the issue recorded as skipped, under the version and the name. -/
def Skips.recorded (s : Skips) (issue : List (Text × Json)) (k : Key) (name : Text) : Skips where
  checks := s.checks ++
    [{ version := getD issue "migration" .null, name, passed := true, skipped := true,
       skippedReason := some (getD issue "message" .null) }]
  versions := s.versions ++ [k]

/-- What the first pass does at one issue. -/
theorem skipIssue_ok_iff {s s' : Skips} {issue : Json} :
    skipIssue s issue = .ok s' ↔ ∃ ms, issue = .obj ms ∧
      (skips ms = false ∧ s' = s ∨
        skips ms = true ∧ ∃ k, (getD ms "migration" .null).key = .ok k ∧
          (k ∈ s.versions ∧ s' = s ∨
            k ∉ s.versions ∧ ∃ name, nameFromIssueMessage (getD ms "message" (.str [])) = .ok name ∧
              s' = s.recorded ms k name)) := by
  unfold skipIssue
  rw [bind_ok_iff]
  refine exists_congr fun ms => and_congr members_ok_iff ?_
  -- An issue that skips nothing is passed over, and a version counts once.
  cases hs : skips ms with
  | false => simp [pure, Except.pure, eq_comm]
  | true =>
    simp only [if_true, Bool.true_eq_false, false_and, false_or, true_and, bind_ok_iff]
    refine exists_congr fun k => and_congr_right fun _ => ?_
    by_cases hk : k ∈ s.versions
    · simp [hk, pure, Except.pure, eq_comm]
    · simp only [hk, if_false, false_and, false_or, not_false_eq_true, true_and, bind_ok_iff,
        pure, Except.pure, Except.ok.injEq]
      exact exists_congr fun name => and_congr_right fun _ => eq_comm

/-- The first pass goes through when it can read the issues. -/
theorem exists_skips_iff (issues : List Json) (s : Skips) (seen : Key → Prop)
    (hseen : ∀ k, seen k ↔ k ∈ s.versions) :
    (∃ s', issues.foldlM skipIssue s = .ok s') ↔ SkipsReadable seen issues := by
  -- Induction on the issues, with what was seen so far.
  induction issues generalizing s seen with
  | nil => simp [SkipsReadable, pure, Except.pure]
  | cons issue issues ih =>
    simp only [List.foldlM_cons, bind_ok_iff, SkipsReadable]
    constructor
    · rintro ⟨s'', s', hstep, hrun⟩
      obtain ⟨ms, rfl, ⟨hs, rfl⟩ | ⟨hs, k, hkey, h⟩⟩ := skipIssue_ok_iff.mp hstep
      · exact ⟨ms, rfl, fun _ => (ih s' seen hseen).mp ⟨s'', hrun⟩, by simp [hs]⟩
      · refine ⟨ms, rfl, by simp [hs], fun _ => ⟨k, hkey, ?_⟩⟩
        obtain ⟨hk, rfl⟩ | ⟨hk, name, hname, rfl⟩ := h
        · refine ⟨fun hnot => absurd ((hseen k).mpr hk) hnot, (ih s' _ fun j => ?_).mp ⟨s'', hrun⟩⟩
          rw [hseen]
          exact ⟨fun h => h.elim id (· ▸ hk), .inl⟩
        · refine ⟨fun _ => exists_nameFromIssueMessage_iff.mp ⟨name, hname⟩,
            (ih _ _ fun j => ?_).mp ⟨s'', hrun⟩⟩
          simp [hseen, Skips.recorded]
    · rintro ⟨ms, rfl, hplain, hskip⟩
      cases hs : skips ms with
      | false =>
        obtain ⟨s', hrun⟩ := (ih s seen hseen).mpr (hplain hs)
        exact ⟨s', s, skipIssue_ok_iff.mpr ⟨ms, rfl, .inl ⟨hs, rfl⟩⟩, hrun⟩
      | true =>
        obtain ⟨k, hkey, hword, hrest⟩ := hskip hs
        by_cases hk : k ∈ s.versions
        · obtain ⟨s', hrun⟩ := (ih s _ fun j => by
            rw [hseen]; exact ⟨fun h => h.elim id (· ▸ hk), .inl⟩).mpr hrest
          exact ⟨s', s, skipIssue_ok_iff.mpr ⟨ms, rfl, .inr ⟨hs, k, hkey, .inl ⟨hk, rfl⟩⟩⟩, hrun⟩
        · obtain ⟨name, hname⟩ := exists_nameFromIssueMessage_iff.mpr
            (hword fun h => hk ((hseen k).mp h))
          obtain ⟨s', hrun⟩ := (ih (s.recorded ms k name) _ fun j => by
            simp [hseen, Skips.recorded]).mpr hrest
          exact ⟨s', _, skipIssue_ok_iff.mpr
            ⟨ms, rfl, .inr ⟨hs, k, hkey, .inr ⟨hk, name, hname, rfl⟩⟩⟩, hrun⟩

/-- The first pass records what the issues list as skipped, in checks that are skipped. -/
theorem skips_versions (issues : List Json) {s s' : Skips}
    (hrun : issues.foldlM skipIssue s = .ok s') (hs : ∀ check ∈ s.checks, check.skipped = true) :
    (∀ k, k ∈ s'.versions ↔ k ∈ s.versions ∨ IsSkipped issues k) ∧
      ∀ check ∈ s'.checks, check.skipped = true := by
  induction issues generalizing s with
  | nil =>
    obtain rfl : s = s' := by simpa [pure, Except.pure] using hrun
    exact ⟨by simp [IsSkipped], hs⟩
  | cons issue issues ih =>
    rw [List.foldlM_cons, bind_ok_iff] at hrun
    obtain ⟨s'', hstep, hrun⟩ := hrun
    obtain ⟨ms, rfl, hms⟩ := skipIssue_ok_iff.mp hstep
    have hcons : ∀ k, IsSkipped (.obj ms :: issues) k ↔
        (skips ms = true ∧ (getD ms "migration" .null).key = .ok k) ∨ IsSkipped issues k := by
      intro k
      simp only [IsSkipped, List.mem_cons, Json.obj.injEq]
      constructor
      · rintro ⟨ms', rfl | hmem, hskip, hkey⟩
        · exact .inl ⟨hskip, hkey⟩
        · exact .inr ⟨ms', hmem, hskip, hkey⟩
      · rintro (⟨hskip, hkey⟩ | ⟨ms', hmem, hskip, hkey⟩)
        · exact ⟨ms, .inl rfl, hskip, hkey⟩
        · exact ⟨ms', .inr hmem, hskip, hkey⟩
    obtain ⟨hplain, rfl⟩ | ⟨hskip, k, hkey, ⟨hk, rfl⟩ | ⟨hk, name, -, rfl⟩⟩ := hms
    · obtain ⟨hversions, hchecks⟩ := ih hrun hs
      exact ⟨fun j => by simp [hversions, hcons, hplain], hchecks⟩
    · obtain ⟨hversions, hchecks⟩ := ih hrun hs
      refine ⟨fun j => ?_, hchecks⟩
      rw [hversions, hcons]
      -- the version has been recorded before
      have hsame : skips ms = true ∧ (getD ms "migration" .null).key = .ok j →
          j ∈ s''.versions := by
        rintro ⟨-, hj⟩
        rwa [← Except.ok.inj (hkey.symm.trans hj)]
      tauto
    · have hrecorded : ∀ check ∈ (s.recorded ms k name).checks, check.skipped = true := by
        intro check hcheck
        simp only [Skips.recorded, List.mem_append, List.mem_singleton] at hcheck
        obtain hold | rfl := hcheck
        · exact hs check hold
        · rfl
      obtain ⟨hversions, hchecks⟩ := ih hrun hrecorded
      refine ⟨fun j => ?_, hchecks⟩
      simp only [hversions, hcons, hskip, hkey, Skips.recorded, List.mem_append, List.mem_singleton,
        Except.ok.injEq, true_and, or_assoc, eq_comm (a := j)]

/-! ## The second pass -/

/-- How deep the value is nested in which the errors of a version are held. -/
def heldIn (failed : Failed) (k : Key) : Option ℕ :=
  (failed.lookup k).map fun check => (check.error.getD (.value .null)).depth

/-- Every failed check is one that failed. -/
def AllFail (failed : Failed) : Prop :=
  ∀ entry ∈ failed, entry.2.passed = false ∧ entry.2.skipped = false

/-- A check that is replaced is found under its key. -/
theorem lookup_replaced (failed : Failed) (k j : Key) (check : MigrationCheck) :
    List.lookup j (failed.map fun entry => if entry.1 = k then (k, check) else entry) =
      if j = k then (failed.lookup j).map fun _ => check else failed.lookup j := by
  -- Induction on the checks, each with a key of its own.
  induction failed with
  | nil => simp
  | cons entry failed ih =>
    obtain ⟨i, old⟩ := entry
    rw [List.map_cons]
    by_cases hi : i = k
    · subst hi
      by_cases hj : j = i
      · simp [hj]
      · simp [hj, List.lookup_cons, beq_false_of_ne hj, ih]
    · by_cases hj : j = i
      · simp [hi, hj]
      · simp [hi, List.lookup_cons, beq_false_of_ne hj, ih]

/-- A check that is added is found under its key. -/
theorem lookup_added (failed : Failed) (k j : Key) (check : MigrationCheck)
    (hk : failed.lookup k = none) :
    List.lookup j (failed ++ [(k, check)]) = if j = k then some check else failed.lookup j := by
  rw [List.lookup_append]
  by_cases hj : j = k
  · simp [hj, hk]
  · simp [hj, List.lookup_cons, beq_false_of_ne hj]

/-- An error can be added when its check can be named, or when it can be joined to what is held. -/
theorem exists_addFailure_iff {failed : Failed} {k : Key} {issue : List (Text × Json)}
    {error : Json} :
    (∃ failed', addFailure limit failed k issue error = .ok failed') ↔
      (heldIn failed k = none → Worded (getD issue "message" (.str []))) ∧
        ∀ d, heldIn failed k = some d → d ≤ limit ∧ error.depth ≤ limit := by
  unfold addFailure heldIn
  cases h : failed.lookup k with
  | none =>
    simp only [bind_ok_iff, pure, Except.pure, Except.ok.injEq, ← exists_nameFromIssueMessage_iff]
    simp
  | some check =>
    simp only [bind_ok_iff, shown_ok_iff, pure, Except.pure]
    by_cases hd : (check.error.getD (.value .null)).depth ≤ limit
    · simp [hd]
    · simp [hd]

/-- What an added error leaves. -/
theorem addFailure_ok {failed failed' : Failed} {k : Key} {issue : List (Text × Json)}
    {error : Json} (h : addFailure limit failed k issue error = .ok failed')
    (hfail : AllFail failed) :
    heldIn failed' = Function.update (heldIn failed) k
        (some (if heldIn failed k = none then error.depth else 0)) ∧
      AllFail failed' ∧ failed' ≠ [] := by
  unfold addFailure at h
  -- A key without a check gets one, and a check gets one more error.
  cases hk : failed.lookup k with
  | none =>
    simp only [hk, bind_ok_iff, pure, Except.pure, Except.ok.injEq] at h
    obtain ⟨name, -, rfl⟩ := h
    refine ⟨funext fun j => ?_, ?_, by simp⟩
    · simp only [heldIn, lookup_added _ _ _ _ hk, Function.update_apply, hk, Option.map_none,
        if_true]
      split <;> rfl
    · intro entry hentry
      obtain hold | rfl := List.mem_append.mp hentry |>.imp_right List.mem_singleton.mp
      · exact hfail entry hold
      · exact ⟨rfl, rfl⟩
  | some check =>
    simp only [hk, bind_ok_iff] at h
    obtain ⟨_, -, h⟩ := h
    split at h
    · obtain rfl := Except.ok.inj h
      have hmem : (k, check) ∈ failed := by
        obtain ⟨before, after, rfl, -⟩ := List.lookup_eq_some_iff.mp hk
        simp
      refine ⟨funext fun j => ?_, ?_, ?_⟩
      · simp only [heldIn, lookup_replaced, Function.update_apply, hk, Option.map_some]
        split
        · next hj => simp [hj, hk, CheckError.depth]
        · rfl
      · intro entry hentry
        obtain ⟨old, hold, rfl⟩ := List.mem_map.mp hentry
        split
        · exact hfail (k, check) hmem
        · exact hfail old hold
      · intro hnil
        rw [List.map_eq_nil_iff] at hnil
        simp [hnil] at hmem
    · cases h

/-- What the second pass does at an issue. -/
theorem failIssues_cons_iff {versions : List Key} {failed : Failed} {issue : Json}
    {r : Option Failed} :
    failIssues limit versions failed (issue :: issues) = .ok r ↔ ∃ ms, issue = .obj ms ∧
      (isError ms = false ∧ failIssues limit versions failed issues = .ok r ∨
        isError ms = true ∧ ∃ k, (getD ms "migration" .null).key = .ok k ∧
          (k ∈ versions ∧ failIssues limit versions failed issues = .ok r ∨
            k ∉ versions ∧
              ((getD ms "migration" .null).truthy = false ∧ r = none ∨
                (getD ms "migration" .null).truthy = true ∧ Detailed ms ∧
                  ∃ failed', addFailure limit failed k ms (errorSaid ms) = .ok failed' ∧
                    failIssues limit versions failed' issues = .ok r))) := by
  rw [failIssues, bind_ok_iff]
  refine exists_congr fun ms => and_congr members_ok_iff ?_
  -- Only an error of a version that was not skipped can fail.
  cases he : isError ms with
  | false => simp
  | true =>
    simp only [if_true, Bool.true_eq_false, false_and, false_or, true_and, bind_ok_iff]
    refine exists_congr fun k => and_congr_right fun _ => ?_
    by_cases hk : k ∈ versions
    · simp [hk]
    · cases ht : (getD ms "migration" .null).truthy with
      | false => simp [hk, eq_comm]
      | true =>
        simp [hk, errorOf, bind_ok_iff, detailsError_ok_iff, pure, Except.pure, errorSaid]

/-- The second pass goes through when it can read the issues. -/
theorem exists_failIssues_iff {versions : List Key} {skipped : Key → Prop}
    (hskipped : ∀ k, skipped k ↔ k ∈ versions) (issues : List Json) {failed : Failed}
    (hfail : AllFail failed) :
    (∃ r, failIssues limit versions failed issues = .ok r) ↔
      ErrorsReadable limit skipped (heldIn failed) issues := by
  -- Induction on the issues, with the checks so far.
  induction issues generalizing failed with
  | nil => simp [failIssues, ErrorsReadable]
  | cons issue issues ih =>
    simp only [failIssues_cons_iff, ErrorsReadable]
    constructor
    -- An issue is passed over, or adds to a check.
    · rintro ⟨r, ms, rfl, ⟨he, hrun⟩ | ⟨he, k, hkey, hk⟩⟩
      · exact ⟨ms, rfl, fun _ => (ih hfail).mp ⟨r, hrun⟩, by simp [he]⟩
      · refine ⟨ms, rfl, by simp [he], fun _ => ⟨k, hkey, fun hsk => ?_, fun hsk ht => ?_⟩⟩
        · obtain ⟨-, hrun⟩ | ⟨hnot, -⟩ := hk
          · exact (ih hfail).mp ⟨r, hrun⟩
          · exact absurd ((hskipped k).mp hsk) hnot
        · obtain ⟨hmem, -⟩ | ⟨-, ⟨hf, -⟩ | ⟨-, hd, failed', hadd, hrun⟩⟩ := hk
          · exact absurd ((hskipped k).mpr hmem) hsk
          · simp [ht] at hf
          · obtain ⟨hword, hjoin⟩ := exists_addFailure_iff.mp ⟨failed', hadd⟩
            obtain ⟨hheld, hfail', -⟩ := addFailure_ok hadd hfail
            have hrest := (ih hfail').mp ⟨r, hrun⟩
            rw [hheld] at hrest
            refine ⟨hd, fun hnone => ⟨hword hnone, by simpa [hnone] using hrest⟩, fun d hsome => ?_⟩
            exact ⟨(hjoin d hsome).1, (hjoin d hsome).2, by simpa [hsome] using hrest⟩
    · rintro ⟨ms, rfl, hplain, herror⟩
      cases he : isError ms with
      | false =>
        obtain ⟨r, hrun⟩ := (ih hfail).mpr (hplain he)
        exact ⟨r, ms, rfl, .inl ⟨he, hrun⟩⟩
      | true =>
        obtain ⟨k, hkey, hskip, hcount⟩ := herror he
        by_cases hk : k ∈ versions
        · obtain ⟨r, hrun⟩ := (ih hfail).mpr (hskip ((hskipped k).mpr hk))
          exact ⟨r, ms, rfl, .inr ⟨he, k, hkey, .inl ⟨hk, hrun⟩⟩⟩
        · cases ht : (getD ms "migration" .null).truthy with
          | false => exact ⟨none, ms, rfl, .inr ⟨he, k, hkey, .inr ⟨hk, .inl ⟨ht, rfl⟩⟩⟩⟩
          | true =>
            obtain ⟨hd, hfirst, hfurther⟩ := hcount (fun h => hk ((hskipped k).mp h)) ht
            obtain ⟨failed', hadd⟩ := exists_addFailure_iff.mpr
              ⟨fun hnone => (hfirst hnone).1, fun d hsome =>
                ⟨(hfurther d hsome).1, (hfurther d hsome).2.1⟩⟩
            obtain ⟨hheld, hfail', -⟩ := addFailure_ok hadd hfail
            have hrest : ErrorsReadable limit skipped (heldIn failed') issues := by
              rw [hheld]
              cases h : heldIn failed k with
              | none => simpa using (hfirst h).2
              | some d => simpa using (hfurther d h).2.2
            obtain ⟨r, hrun⟩ := (ih hfail').mpr hrest
            exact ⟨r, ms, rfl, .inr ⟨he, k, hkey, .inr ⟨hk, .inr ⟨ht, hd, failed', hadd, hrun⟩⟩⟩⟩

/-- What the second pass gives: nothing for an error that names no migration, and no failed check
only when no error was to be checked. -/
theorem failIssues_ok {versions : List Key} (issues : List Json) {failed : Failed}
    {r : Option Failed} (hrun : failIssues limit versions failed issues = .ok r)
    (hfail : AllFail failed) :
    (r = none ↔ Unmapped issues (· ∈ versions)) ∧ ∀ failed', r = some failed' → AllFail failed' ∧
      (failed' = [] ↔ failed = [] ∧ ∀ ms, .obj ms ∈ issues → isError ms = true →
        ∃ k, (getD ms "migration" .null).key = .ok k ∧ k ∈ versions) := by
  induction issues generalizing failed with
  | nil =>
    obtain rfl : some failed = r := Except.ok.inj hrun
    simpa [Unmapped] using hfail
  | cons issue issues ih =>
    obtain ⟨ms, rfl, hms⟩ := failIssues_cons_iff.mp hrun
    have hunmapped : Unmapped (.obj ms :: issues) (· ∈ versions) ↔
        (isError ms = true ∧ (getD ms "migration" .null).truthy = false ∧
          ∃ k, (getD ms "migration" .null).key = .ok k ∧ k ∉ versions) ∨
            Unmapped issues (· ∈ versions) := by
      simp only [Unmapped, List.mem_cons, Json.obj.injEq]
      constructor
      · rintro ⟨ms', rfl | hmem, h⟩
        · exact .inl h
        · exact .inr ⟨ms', hmem, h⟩
      · rintro (h | ⟨ms', hmem, h⟩)
        · exact ⟨ms, .inl rfl, h⟩
        · exact ⟨ms', .inr hmem, h⟩
    simp only [hunmapped, List.mem_cons, Json.obj.injEq, forall_eq_or_imp]
    obtain ⟨he, hrest⟩ | ⟨he, k, hkey, ⟨hk, hrest⟩ | ⟨hk, hcheck⟩⟩ := hms
    · obtain ⟨hnone, hsome⟩ := ih hrest hfail
      simpa [he] using ⟨hnone, hsome⟩
    · obtain ⟨hnone, hsome⟩ := ih hrest hfail
      simpa [he, hkey, hk] using ⟨hnone, hsome⟩
    · obtain ⟨ht, rfl⟩ | ⟨ht, -, failed', hadd, hrest⟩ := hcheck
      · simp [he, ht, hkey, hk]
      · obtain ⟨-, hfail', hne⟩ := addFailure_ok hadd hfail
        obtain ⟨hnone, hsome⟩ := ih hrest hfail'
        refine ⟨by simpa [he, ht] using hnone, fun failed'' h => ⟨(hsome failed'' h).1, ?_⟩⟩
        -- a check has been added, so there is one at the end
        have hne' : failed'' ≠ [] := fun hnil => hne ((hsome failed'' h).2.mp hnil).1
        simp [hne', he, hkey, hk]

/-! ## The verdict -/

/-- All has passed when no check has failed. -/
theorem allPassed_iff {s : Skips} {failed : Failed} {migrationsChecked : Json}
    (hs : ∀ check ∈ s.checks, check.skipped = true) (hfail : AllFail failed) :
    (MigrationPreflightResult.mk (s.checks ++ failed.map Prod.snd) migrationsChecked).allPassed =
      true ↔ failed = [] := by
  have hskips : s.checks.filter (!·.skipped) = [] := by simpa using hs
  have hfailed : (failed.map Prod.snd).filter (!·.skipped) = failed.map Prod.snd := by
    simp only [List.filter_eq_self, List.mem_map]
    rintro _ ⟨entry, hentry, rfl⟩
    simp [(hfail entry hentry).2]
  unfold MigrationPreflightResult.allPassed
  rw [List.filter_append, hskips, hfailed, List.nil_append]
  cases failed with
  | nil => simp
  | cons entry failed => simp [(hfail entry List.mem_cons_self).1]

/-- A database error is raised, never returned. -/
theorem raiseDatabaseError_ne_ok {α : Type} (e : Except UseError PreflightError) (a : α) :
    raiseDatabaseError e ≠ .ok a := by
  cases e <;> simp [raiseDatabaseError]

/-- A `DatabaseError` is raised when its message can be written. -/
theorem exists_raiseDatabaseError_iff {α : Type} {e : Except UseError PreflightError} :
    (∃ m, (raiseDatabaseError e : Except PreflightRaised α) = .error (.databaseError m)) ↔
      ∃ m, e = .ok m := by
  cases e <;> simp [raiseDatabaseError]

/-- What the two passes give together. -/
theorem parseAgainstIssues_ok_iff {data : List (Text × Json)} {r : Option MigrationPreflightResult}
    (hissues : getD data "issues" .null = .arr issues) :
    parseAgainstIssues limit data = .ok r ↔ ∃ summary s failed,
      ((getD data "summary" .null).orElse (.obj [])).members = .ok summary ∧
        issues.foldlM skipIssue {} = .ok s ∧ failIssues limit s.versions [] issues = .ok failed ∧
          r = failed.map fun failed =>
            { migrations := s.checks ++ failed.map Prod.snd
              migrationsChecked := getD summary "migrations_checked" (.int 0) } := by
  unfold parseAgainstIssues
  simp only [hissues, iter_orElse_arr, bind_ok_iff, pure, Except.pure, Except.ok.injEq]
  constructor
  · rintro ⟨summary, hsummary, _, rfl, s, hs, failed, hfailed, rfl⟩
    exact ⟨summary, s, failed, hsummary, hs, hfailed, rfl⟩
  · rintro ⟨summary, s, failed, hsummary, hs, hfailed, rfl⟩
    exact ⟨summary, hsummary, issues, rfl, s, hs, failed, hfailed, rfl⟩

/-- The summary is an object, or something falsy. -/
theorem exists_summary_iff {v : Json} :
    (∃ summary, (v.orElse (.obj [])).members = .ok summary) ↔
      (v.truthy = true → ∃ ds, v = .obj ds) := by
  simp only [members_ok_iff, Json.orElse]
  cases h : v.truthy <;> simp

/-- The issues are read through when both passes can read them. -/
theorem exists_parseAgainstIssues_iff {data : List (Text × Json)}
    (hissues : getD data "issues" .null = .arr issues) :
    (∃ r, parseAgainstIssues limit data = .ok r) ↔
      ((getD data "summary" .null).truthy = true → ∃ ds, getD data "summary" .null = .obj ds) ∧
        SkipsReadable (fun _ => False) issues ∧
          ErrorsReadable limit (IsSkipped issues) (fun _ => none) issues := by
  have hskips_iff := exists_skips_iff issues {} (fun _ => False) (by simp)
  have herrors_iff : ∀ s, issues.foldlM skipIssue {} = .ok s →
      ((∃ r, failIssues limit s.versions [] issues = .ok r) ↔
        ErrorsReadable limit (IsSkipped issues) (fun _ => none) issues) := fun s hs =>
    exists_failIssues_iff (fun k => by simp [(skips_versions issues hs (by simp)).1]) issues
      (by simp [AllFail])
  simp only [parseAgainstIssues_ok_iff hissues, ← exists_summary_iff, ← hskips_iff]
  -- The second pass reads what the first has left.
  constructor
  · rintro ⟨r, summary, s, failed, hsum, hs, hfailed, -⟩
    exact ⟨⟨summary, hsum⟩, ⟨s, hs⟩, (herrors_iff s hs).mp ⟨failed, hfailed⟩⟩
  · rintro ⟨⟨summary, hsum⟩, ⟨s, hs⟩, herrors⟩
    obtain ⟨failed, hfailed⟩ := (herrors_iff s hs).mpr herrors
    exact ⟨_, summary, s, failed, hsum, hs, hfailed, rfl⟩

/-- What is read of the issues: nothing for an error that names no migration, and otherwise a result
that says all has passed just when each error is excused. -/
theorem parseAgainstIssues_ok {data : List (Text × Json)} {r : Option MigrationPreflightResult}
    (hissues : getD data "issues" .null = .arr issues)
    (hparse : parseAgainstIssues limit data = .ok r) :
    (r = none ↔ Unmapped issues (IsSkipped issues)) ∧
      ∀ result, r = some result → (result.allPassed = true ↔
        ∀ ms, .obj ms ∈ issues → isError ms = true → Excused issues ms) := by
  obtain ⟨summary, s, failed, -, hskips, hfails, rfl⟩ :=
    (parseAgainstIssues_ok_iff hissues).mp hparse
  -- After the first pass the versions are those that are skipped.
  obtain ⟨hversions, hchecks⟩ := skips_versions issues hskips (by simp)
  have hskipped : (· ∈ s.versions) = IsSkipped issues := funext fun k => by simp [hversions]
  obtain ⟨hnone, hsome⟩ := failIssues_ok issues hfails (by simp [AllFail])
  rw [hskipped] at hnone
  refine ⟨by simpa using hnone, ?_⟩
  -- The second pass fails on an error that names no migration.
  cases failed with
  | none => simp
  | some failed =>
    obtain ⟨hfail, hnil⟩ := hsome failed rfl
    rintro _ ⟨⟩
    rw [allPassed_iff hchecks hfail, hnil]
    simp only [true_and, Excused, ← hskipped]

/-- An error that names no migration is not excused. -/
theorem Unmapped.not_excused (h : Unmapped issues (IsSkipped issues)) :
    ¬∀ ms, .obj ms ∈ issues → isError ms = true → Excused issues ms := by
  obtain ⟨ms, hms, he, -, k, hkey, hk⟩ := h
  intro hexcused
  obtain ⟨j, hj, hskip⟩ := hexcused ms hms he
  obtain rfl := Except.ok.inj (hkey.symm.trans hj)
  exact hk hskip

/-- A preflight hides nothing exactly when the issues can be described, for an exit that is an error
at once, and when what confiture reported surfaces, for one that is read. -/
theorem hides_nothing_iff (limits : Limits) (run : CompletedProcess) (data : List (Text × Json))
    (issues : List Json) (hdata : loadsOutput limits.loads run.stdout = .ok (.obj data))
    (hsummary : (data.lookup (text "summary")).isSome = true)
    (hissues : data.lookup (text "issues") = some (.arr issues)) :
    HidesNothing limits run issues ↔
      if run.returncode = 0 ∨ run.returncode = 7 then Surfaces limits run data issues
      else ∀ issue ∈ issues, Describable limits.repr issue := by
  have hget : getD data "issues" .null = .arr issues := by simp [getD, hissues]
  have hdescribe : (∃ e, formatPreflightFailure limits run = .ok e) ↔
      ∀ issue ∈ issues, Describable limits.repr issue :=
    exists_formatPreflightFailure_iff hdata hget
  unfold HidesNothing runConfiturePreflight
  split
  -- The exit is one whose issues are read.
  · simp only [hdata, hsummary, hissues, Option.isSome_some, Bool.and_self, if_true]
    constructor
    · intro h
      cases hparse : parseAgainstIssues limits.repr data with
      | error e => simp [hparse] at h
      | ok r =>
        obtain ⟨hsum, hskips, herrors⟩ := (exists_parseAgainstIssues_iff hget).mp ⟨r, hparse⟩
        obtain ⟨hnone, hpassed⟩ := parseAgainstIssues_ok hget hparse
        cases r with
        | none =>
          simp only [hparse, raiseDatabaseError_ne_ok, false_and, exists_false, or_false,
            exists_raiseDatabaseError_iff] at h
          exact ⟨hsum, hskips, herrors, fun _ => hdescribe.mp h,
            fun hexcused => absurd hexcused (hnone.mp rfl).not_excused⟩
        | some result =>
          simp only [hparse, Except.ok.injEq, exists_eq_left', reduceCtorEq, exists_false,
            false_or, hpassed result rfl] at h
          exact ⟨hsum, hskips, herrors, fun hunmapped => by simp [← hnone] at hunmapped, h⟩
    · intro h
      obtain ⟨r, hparse⟩ := (exists_parseAgainstIssues_iff hget).mpr ⟨h.summary, h.skips, h.errors⟩
      obtain ⟨hnone, hpassed⟩ := parseAgainstIssues_ok hget hparse
      rw [hparse]
      cases r with
      | none => exact .inl (exists_raiseDatabaseError_iff.mpr
          (hdescribe.mpr (h.unmapped (hnone.mp rfl))))
      | some result => exact .inr ⟨result, rfl, fun hp => h.excused ((hpassed result rfl).mp hp)⟩
  -- The exit is an error at once, whose issues are described.
  · simp only [raiseDatabaseError_ne_ok, false_and, exists_false, or_false,
      exists_raiseDatabaseError_iff]
    exact hdescribe

/-! ## An error on a skipped migration -/

/-- A run that leaves the exit code and prints the value. -/
def printing (returncode : ℤ) (v : Json) : CompletedProcess where
  returncode
  stdout := (dumps v).map fun c => Char.ofNat c.val

/-- A plain code point is the character of its number. -/
theorem chr_ofNat {c : CodePoint} (h : c.val < 0x7F) : chr (Char.ofNat c.val) = c := by
  have hvalid : c.val.isValidChar := .inl (by omega)
  refine Fin.ext ?_
  simp [chr, Char.ofNat, hvalid, Char.ofNatAux, Char.toNat]

/-- What is printed is read back. -/
theorem loadsOutput_printing {maxDepth : ℕ} {v : Json} (hv : Plain v) (hdepth : v.depth ≤ maxDepth)
    (returncode : ℤ) : loadsOutput maxDepth (printing returncode v).stdout = .ok v := by
  have hchr : ((dumps v).map fun c => Char.ofNat c.val).map chr = dumps v := by
    rw [List.map_map]
    exact (List.map_congr_left fun c hc => chr_ofNat (printable_dumps v hv c hc).2).trans
      (List.map_id _)
  have hstops : Stops [] := nofun
  have hloads := loadsStr_dumps hv hdepth hstops rfl
  rw [List.append_nil] at hloads
  rw [loadsOutput, printing, hchr, hloads]

/-- An issue of the given severity and code, on the migration `3`. -/
def issueOn (severity code : String) : Json :=
  .obj [(text "severity", .str (text severity)), (text "code", .str (text code)),
    (text "migration", .str (text "3"))]

/-- The output that lists the issues. -/
def outputOf (issues : List Json) : Json :=
  .obj [(text "summary", .obj []), (text "issues", .arr issues)]

/-- An output of plain issues is plain. -/
theorem plain_outputOf {issues : List Json} (h : ∀ issue ∈ issues, Plain issue) :
    Plain (outputOf issues) :=
  ⟨(by decide : [text "summary", text "issues"].Nodup), apart_text _,
    ⟨List.nodup_nil, trivial⟩, apart_text _, plainItems h, trivial⟩

/-- The sample issue is plain. -/
theorem plain_issueOn (severity code : String) : Plain (issueOn severity code) :=
  ⟨(by decide : [text "severity", text "code", text "migration"].Nodup), apart_text _, apart_text _,
    apart_text _, apart_text _, apart_text _, apart_text _, trivial⟩

/-- The replay of a migration failed, and it is also listed as one that cannot run in a transaction:
the preflight says that all has passed. -/
theorem skipped_failure_passes : ¬∀ (limits : Limits) (run : CompletedProcess)
    (data : List (Text × Json)) (issues : List Json),
    loadsOutput limits.loads run.stdout = .ok (.obj data) →
      (data.lookup (text "summary")).isSome = true →
        data.lookup (text "issues") = some (.arr issues) → HidesNothing limits run issues := by
  intro h
  -- The output is one that is read, with both issues in it.
  have hplain : ∀ issue ∈ [issueOn "warning" nonTxnCode, issueOn "error" "PFLIGHT_REPLAY_FAILED"],
      Plain issue := by
    simp [plain_issueOn]
  have hread := loadsOutput_printing (plain_outputOf hplain)
    (show _ ≤ 1000 by decide +kernel) 7
  have hpassed : (runConfiturePreflight ⟨1000, 1000⟩ (printing 7 (outputOf
      [issueOn "warning" nonTxnCode, issueOn "error" "PFLIGHT_REPLAY_FAILED"]))).toOption.map
        (·.allPassed) = some true := by decide +kernel
  obtain ⟨e, he⟩ | ⟨result, hresult, hclean⟩ := h ⟨1000, 1000⟩ _ _ _ hread rfl rfl
  · simp [he, Except.toOption] at hpassed
  · rw [hresult] at hpassed
    exact absurd (hclean (by simpa [Except.toOption] using hpassed)).1 (by decide)

/-- Without the warning the failure is not hidden. -/
theorem hides_nothing_iff_replay_failed : HidesNothing ⟨1000, 1000⟩
    (printing 7 (outputOf [issueOn "error" "PFLIGHT_REPLAY_FAILED"]))
    [issueOn "error" "PFLIGHT_REPLAY_FAILED"] := by
  have hplain : ∀ issue ∈ [issueOn "error" "PFLIGHT_REPLAY_FAILED"], Plain issue := by
    simp [plain_issueOn]
  have hread := loadsOutput_printing (plain_outputOf hplain)
    (show _ ≤ 1000 by decide +kernel) 7
  refine (hides_nothing_iff ⟨1000, 1000⟩ _ _ _ hread rfl rfl).mpr ?_
  rw [if_pos (by decide)]
  -- The issue has a key, and no warning skips it.
  have hskips : skips [(text "severity", .str (text "error")),
      (text "code", .str (text "PFLIGHT_REPLAY_FAILED")), (text "migration", .str (text "3"))] =
      false := by decide
  have hnone : ∀ k, ¬IsSkipped [issueOn "error" "PFLIGHT_REPLAY_FAILED"] k := by
    simp [IsSkipped, issueOn, hskips]
  constructor
  · simp [getD, truthy]
  · exact ⟨_, rfl, fun _ => trivial, by simp [hskips]⟩
  · refine ⟨_, rfl, fun h => absurd h (by decide), fun _ => ⟨.str (text "3"), rfl,
      fun hskip => absurd hskip (hnone _), fun _ _ => ⟨?_, fun _ => ⟨?_, trivial⟩, by simp⟩⟩⟩
    · exact fun h => absurd h (by decide)
    · exact fun h => absurd h (by decide)
  · rintro ⟨ms, hms, -, ht, -⟩
    simp only [issueOn, List.mem_singleton, Json.obj.injEq] at hms
    subst hms
    exact absurd ht (by decide)
  · intro h
    obtain ⟨k, -, hk⟩ := h _ (List.mem_singleton.mpr rfl) (by decide)
    exact absurd hk (hnone k)

end Fraisier.Dbops
