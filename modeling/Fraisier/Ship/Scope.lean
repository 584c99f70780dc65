import Fraisier.Lib.Fnmatch

/-!
# The triggers of the ship checks

`ship/pipeline.py` runs a check that has `triggers` only if a changed file matches one of them. The
changed files are what `git diff --name-only` prints against the merge base and against the working
tree, line by line, and they are asked for once, before the auto-fixers run. `skips_safely_iff` says
when no check is skipped that a changed path should trigger: whenever such a path is there, some line
that was printed then triggers the check. `mem_listed` says which paths are lines of their own.
-/

namespace Fraisier.Ship

open Fraisier.Lib Str

/-! ## What git prints -/

/-- A changed file of a diff, as git pairs them: a rename has its two paths on one entry. -/
inductive DiffEntry
  /-- Added, modified, deleted, or changed in its type. -/
  | changed (path : Str)
  | renamed (old new : Str)
  deriving DecidableEq, Repr

/-- The paths that the entry changes. -/
def DiffEntry.paths : DiffEntry → List Str
  | .changed path => [path]
  | .renamed old new => [old, new]

/-- The path that `--name-only` prints. -/
def DiffEntry.name : DiffEntry → Str
  | .changed path => path
  | .renamed _ new => new

/-- The tracked files of a repository that are changed: from the merge base to `HEAD`, and from
`HEAD` to the working tree. -/
structure Repo where
  committed : List DiffEntry
  worktree : List DiffEntry
  deriving DecidableEq, Repr

/-- The paths that the release will have changed. -/
def Repo.changed (r : Repo) : List Str := (r.committed ++ r.worktree).flatMap DiffEntry.paths

/-- A byte in octal. -/
def octal (b : ℕ) : Str :=
  ['\\', Nat.digitChar (b / 64), Nat.digitChar (b / 8 % 8), Nat.digitChar (b % 8)]

/-- The letters of the escapes of the control characters from `0x07` to `0x0d`. -/
def controlLetters : Str := "abtnvfr".toList

/-- How a character of a path is escaped, if it is: bytes above ASCII are with `core.quotePath`. -/
def gitEscape (quotePath : Bool) (c : Char) : Option Str :=
  if c = '"' ∨ c = '\\' then some ['\\', c]
  else if c.toNat < 0x20 ∨ c.toNat = 0x7f then
    match if 7 ≤ c.toNat then controlLetters[c.toNat - 7]? else none with
    | some letter => some ['\\', letter]
    | none => some (octal c.toNat)
  else if 0x80 ≤ c.toNat ∧ quotePath then
    some ((String.utf8EncodeChar c).flatMap fun b => octal b.toNat)
  else none

/-- The path needs no quotes. -/
def Plain (quotePath : Bool) (path : Str) : Bool := path.all fun c => gitEscape quotePath c = none

/-- A path as git prints it. -/
def gitPath (quotePath : Bool) (path : Str) : Str :=
  if Plain quotePath path then path
  else ['"'] ++ path.flatMap (fun c => (gitEscape quotePath c).getD [c]) ++ ['"']

example : gitPath true "db/é.sql".toList = "\"db/\\303\\251.sql\"".toList ∧
    gitPath false "db/é.sql".toList = "db/é.sql".toList ∧
    gitPath true "a\tb".toList = "\"a\\tb\"".toList := by decide

/-- `git diff --name-only`. -/
def nameOnly (quotePath : Bool) (entries : List DiffEntry) : Str :=
  entries.flatMap fun e => gitPath quotePath e.name ++ ['\n']

/-- The lines that `_git_files` makes of the output. -/
def gitFiles (stdout : Str) : List Str := (stdout.strip.splitOn '\n').filter (· ≠ [])

/-! ## The scope -/

/-- `TriggerScope`. -/
structure TriggerScope where
  /-- The changed files, or none when they could not be determined. -/
  files : Option (List Str)
  base : Option Str
  detail : Str
  deriving DecidableEq, Repr

/-- How git answers, besides with the files that are changed. -/
structure GitAnswers where
  /-- `core.quotePath`. -/
  quotePath : Bool := true
  /-- The output of `git symbolic-ref`, when it exits with 0. -/
  originHead : Option Str
  /-- `git diff --name-only HEAD` exits with 0. -/
  diffsHead : Bool := true
  /-- The output of `git merge-base`, when it exits with 0. -/
  mergeBase : Option Str
  /-- The diff against the merge base exits with 0. -/
  diffsBase : Bool := true
  deriving DecidableEq, Repr

/-- `_resolve_trigger_base`: the ref, and why. -/
def resolveTriggerBase (prBase : Option Str) (git : GitAnswers) : Option Str × Str :=
  match prBase with
  | some (c :: base) =>
    (some ("origin/".toList ++ c :: base), "ship.pr_base=".toList ++ c :: base)
  | _ => match git.originHead.map strip with
    | some (c :: head) => (some (c :: head), "origin/HEAD".toList)
    | _ => (none, ("no ship.pr_base configured and origin/HEAD does not resolve " ++
        "(try `git remote set-head origin -a`)").toList)

/-- `_compute_trigger_scope`. -/
def computeTriggerScope (prBase : Option Str) (git : GitAnswers) (repo : Repo) : TriggerScope :=
  let (base, why) := resolveTriggerBase prBase git
  if !git.diffsHead then ⟨none, none, "git diff failed (not a git tree?)".toList⟩
  else match base with
    | none => ⟨none, none, why⟩
    | some ref =>
      if (git.mergeBase.map strip).all (· = []) then
        ⟨none, ref, "no merge base with ".toList ++ ref ++ " (unfetched or unrelated?)".toList⟩
      else if !git.diffsBase then
        ⟨none, ref, "git diff against ".toList ++ ref ++ " failed".toList⟩
      else
        ⟨some (gitFiles (nameOnly git.quotePath repo.committed) ++
          gitFiles (nameOnly git.quotePath repo.worktree)), ref, why⟩

/-- `TriggerScope.matches` of a set of files. -/
def anyMatches (files patterns : List Str) : Bool :=
  files.any fun f => patterns.any fun pattern => fnmatch f pattern

/-! ## The phases -/

/-- A check of the pipeline, without what it runs. -/
structure ShipCheck where
  name : Str
  phase : String
  triggers : Option (List Str)
  deriving DecidableEq, Repr

/-- `ShipPipeline`: its checks, the base it was given and the scope that it keeps. -/
structure ShipPipeline where
  checks : List ShipCheck
  prBase : Option Str
  scope : Option TriggerScope := none
  deriving DecidableEq, Repr

/-- `trigger_scope()`, with what the repository is when it is called. -/
def ShipPipeline.triggerScope (p : ShipPipeline) (git : GitAnswers) (repo : Repo) :
    TriggerScope × ShipPipeline :=
  match p.scope with
  | some scope => (scope, p)
  | none =>
    let scope := computeTriggerScope p.prBase git repo
    (scope, { p with scope := some scope })

/-- `_should_run`, and the partition of `_run_phases`. -/
def ShipCheck.runs (c : ShipCheck) (scope : TriggerScope) : Bool :=
  match c.triggers, scope.files with
  | none, _ | _, none => true
  | some patterns, some files => anyMatches files patterns

/-- What is skipped, and the reason that is printed. -/
def ShipCheck.skip (c : ShipCheck) (scope : TriggerScope) : ShipCheck × Str :=
  (c, "no file matched ".toList ++ List.intercalate ", ".toList (c.triggers.getD []) ++
    " (vs ".toList ++ scope.base.getD "None".toList ++ ", ".toList ++
    Nat.toDigits 10 (scope.files.getD []).dedup.length ++ " file(s) changed)".toList)

/-- `_run_phases`: the checks that are run, and those that are skipped. -/
def ShipPipeline.runPhases (p : ShipPipeline) (phases : List String) (git : GitAnswers)
    (repo : Repo) : (List ShipCheck × List (ShipCheck × Str)) × ShipPipeline :=
  let (scope, p) := p.triggerScope git repo
  let checks := p.checks.filter fun c => c.phase ∈ phases
  ((checks.filter fun c => c.runs scope,
    (checks.filter fun c => !c.runs scope).map fun c => c.skip scope), p)

/-- `run_fix_phase`. -/
def ShipPipeline.runFixPhase (p : ShipPipeline) := p.runPhases ["fix"]

/-- `run_verify_phase`. -/
def ShipPipeline.runVerifyPhase (p : ShipPipeline) := p.runPhases ["validate", "test"]

/-! ## What is skipped -/

/-- A file triggers the check. -/
def ShipCheck.Triggered (c : ShipCheck) (file : Str) : Prop :=
  ∃ patterns, c.triggers = some patterns ∧ ∃ pattern ∈ patterns, fnmatch file pattern = true

/-- No check was skipped that a changed path triggers. -/
def SkipsSafely (skipped : List (ShipCheck × Str)) (repo : Repo) : Prop :=
  ∀ e ∈ skipped, ∀ path ∈ repo.changed, ¬e.1.Triggered path

/-- The lines of the two outputs, without the blanks at their ends. -/
def GitAnswers.lines (git : GitAnswers) (repo : Repo) : List Str :=
  gitFiles (nameOnly git.quotePath repo.committed) ++ gitFiles (nameOnly git.quotePath repo.worktree)

/-- Every call of git that the scope needs is answered. -/
def GitAnswers.determines (git : GitAnswers) (prBase : Option Str) : Bool :=
  git.diffsHead && (resolveTriggerBase prBase git).1.isSome &&
    !(git.mergeBase.map strip).all (· = []) && git.diffsBase

/-- Whenever a changed path triggers a check of the phase, some line that was printed does. -/
def Shown (checks : List ShipCheck) (phases : List String) (lines : List Str) (repo : Repo) : Prop :=
  ∀ c ∈ checks, c.phase ∈ phases → ∀ path ∈ repo.changed, c.Triggered path →
    ∃ line ∈ lines, c.Triggered line

/-- A pattern matches a file. -/
theorem anyMatches_iff {files patterns : List Str} :
    anyMatches files patterns = true ↔
      ∃ f ∈ files, ∃ pattern ∈ patterns, fnmatch f pattern = true := by
  simp only [anyMatches, List.any_eq_true]

/-- The files are those git lists, where it can tell. -/
theorem computeTriggerScope_files (prBase : Option Str) (git : GitAnswers) (repo : Repo) :
    (computeTriggerScope prBase git repo).files =
      if git.determines prBase then some (git.lines repo) else none := by
  unfold computeTriggerScope GitAnswers.determines GitAnswers.lines
  cases git.diffsHead with
  | false => rfl
  | true =>
    cases hbase : (resolveTriggerBase prBase git).1 with
    | none => simp [hbase]
    | some ref =>
      cases (git.mergeBase.map strip).all (· = []) with
      | true => simp [hbase]
      | false => cases git.diffsBase <;> simp [hbase]

/-- A check runs, unless it has triggers, the files are known and none of them triggers it. -/
theorem ShipCheck.runs_eq_false_iff {c : ShipCheck} {scope : TriggerScope} :
    c.runs scope = false ↔
      c.triggers.isSome = true ∧ ∃ files, scope.files = some files ∧ ∀ f ∈ files, ¬c.Triggered f := by
  unfold ShipCheck.runs ShipCheck.Triggered
  cases c.triggers with
  | none => simp
  | some patterns =>
    cases scope.files with
    | none => simp
    | some files =>
      simp only [Option.isSome_some, true_and, Option.some.injEq, exists_eq_left',
        ← Bool.not_eq_true, anyMatches_iff]
      simp

/-- The skipped checks of a phase. -/
theorem ShipPipeline.mem_skipped {p : ShipPipeline} {phases : List String} {git : GitAnswers}
    {repo : Repo} {c : ShipCheck} :
    (∃ reason, (c, reason) ∈ (p.runPhases phases git repo).1.2) ↔
      c ∈ p.checks ∧ c.phase ∈ phases ∧ c.runs (p.triggerScope git repo).1 = false := by
  have hchecks : (p.triggerScope git repo).2.checks = p.checks := by
    unfold triggerScope
    split <;> rfl
  simp only [runPhases, hchecks, List.mem_map, List.mem_filter, ShipCheck.skip, Prod.mk.injEq,
    decide_eq_true_eq, Bool.not_eq_true']
  constructor
  · rintro ⟨reason, d, ⟨⟨hd, hphase⟩, hruns⟩, rfl, -⟩
    exact ⟨hd, hphase, hruns⟩
  · rintro ⟨hc, hphase, hruns⟩
    exact ⟨_, c, ⟨⟨hc, hphase⟩, hruns⟩, rfl, rfl⟩

/-- One phase, in any state of the repository. -/
theorem ShipPipeline.skipsSafely_iff (p : ShipPipeline) (phases : List String) (git : GitAnswers)
    (repo now : Repo) :
    SkipsSafely (p.runPhases phases git repo).1.2 now ↔
      ∀ lines, (p.triggerScope git repo).1.files = some lines → Shown p.checks phases lines now := by
  constructor
  · intro hsafe lines hlines c hc hphase path hpath htriggered
    -- A check that is triggered and runs nowhere was skipped.
    by_contra hnone
    push Not at hnone
    have hruns : c.runs (p.triggerScope git repo).1 = false := by
      obtain ⟨patterns, hpatterns, -⟩ := htriggered
      exact ShipCheck.runs_eq_false_iff.mpr ⟨by simp [hpatterns], lines, hlines, hnone⟩
    obtain ⟨reason, hskipped⟩ := mem_skipped.mpr ⟨hc, hphase, hruns⟩
    exact hsafe _ hskipped path hpath htriggered
  · rintro hshown ⟨c, reason⟩ hskipped path hpath htriggered
    obtain ⟨hc, hphase, hruns⟩ := mem_skipped.mp ⟨reason, hskipped⟩
    obtain ⟨-, lines, hlines, hnone⟩ := ShipCheck.runs_eq_false_iff.mp hruns
    obtain ⟨line, hline, hmatch⟩ := hshown lines hlines c hc hphase path hpath htriggered
    exact hnone line hline hmatch

/-! ### Paths that are lines of their own -/

/-- The path has no blank at its ends. -/
structure Bare (path : Str) : Prop where
  ne_nil : path ≠ []
  head : ∀ h : path ≠ [], isSpace (path.head h) = false
  last : ∀ h : path ≠ [], isSpace (path.getLast h) = false

/-- What `strip` leaves around a path without blanks at its ends. -/
theorem strip_around {path : Str} (h : Bare path) (before after : Str) :
    (before ++ path ++ after).strip =
      before.dropWhile isSpace ++ path ++ after.rdropWhile isSpace := by
  obtain ⟨c, rest, rfl⟩ := List.exists_cons_of_ne_nil h.ne_nil
  have hc : isSpace c = false := h.head h.ne_nil
  -- The path begins with no blank, so stripping stops there.
  have hfront : (before ++ (c :: rest) ++ after).dropWhile isSpace =
      before.dropWhile isSpace ++ (c :: rest) ++ after := by
    rw [List.append_assoc, List.dropWhile_append, List.append_assoc]
    split
    · rename_i hall
      rw [List.isEmpty_iff.mp hall, List.cons_append, List.dropWhile_cons_of_neg (by simp [hc])]
      rfl
    · rfl
  -- It ends with none either.
  have hback : ∀ s : Str, (s ++ (c :: rest) ++ after).rdropWhile isSpace =
      s ++ (c :: rest) ++ after.rdropWhile isSpace := by
    intro s
    have hlast : ((s ++ (c :: rest)).rdropWhile isSpace) = s ++ (c :: rest) := by
      refine List.rdropWhile_eq_self_iff.mpr fun hne => ?_
      rw [List.getLast_append_of_ne_nil _ h.ne_nil, h.last h.ne_nil]
      exact Bool.false_ne_true
    rw [List.rdropWhile, List.reverse_append, List.dropWhile_append]
    split
    · rename_i hall
      have hafter : after.rdropWhile isSpace = [] := by
        rw [List.rdropWhile, List.isEmpty_iff.mp hall, List.reverse_nil]
      rw [hafter, List.append_nil]
      exact hlast
    · rw [List.reverse_append, List.reverse_reverse]
      rfl
  rw [strip, stripBy, hfront, hback]

/-- A line of the output, in what is left of it by `strip`. -/
theorem mem_gitFiles {path before after : Str} (h : Bare path) (hline : '\n' ∉ path)
    (hbefore : ∀ hne : before ≠ [], before.getLast hne = '\n') :
    path ∈ gitFiles (before ++ path ++ '\n' :: after) := by
  rw [gitFiles, strip_around h]
  refine List.mem_filter.mpr ⟨?_, by simpa using h.ne_nil⟩
  -- what is left on either side is nothing, or is parted from the path by a newline
  have hafter : path ∈ (path ++ ('\n' :: after).rdropWhile isSpace).splitOn '\n' := by
    obtain ⟨rest, hrest⟩ := List.rdropWhile_prefix isSpace ('\n' :: after)
    cases hback : ('\n' :: after).rdropWhile isSpace with
    | nil =>
      rw [List.append_nil, List.splitOn_eq_singleton hline]
      exact List.mem_singleton_self _
    | cons c back =>
      rw [hback] at hrest
      obtain rfl : c = '\n' := (List.cons.inj hrest).1
      rw [List.splitOn_append_cons_self_of_not_mem hline]
      exact List.mem_cons_self
  cases hfront : (before.dropWhile isSpace).getLast? with
  | none =>
    rw [List.getLast?_eq_none_iff.mp hfront, List.nil_append]
    exact hafter
  | some c =>
    obtain ⟨front, hc⟩ := List.getLast?_eq_some_iff.mp hfront
    have hbefore' : c = '\n' := by
      obtain ⟨start, hstart⟩ := List.dropWhile_suffix isSpace (l := before)
      rw [hc, ← List.append_assoc] at hstart
      have hne : before ≠ [] := by
        rw [← hstart]
        simp
      have hlast := hbefore hne
      simpa only [← hstart, List.getLast_append_singleton] using hlast
    rw [hc, hbefore', List.append_assoc, List.append_assoc, List.singleton_append,
      List.splitOn_append_cons_self]
    exact List.mem_append_right _ hafter

/-- A plain path holds no newline. -/
theorem not_mem_of_plain {quotePath : Bool} {path : Str} (h : Plain quotePath path = true) :
    '\n' ∉ path := by
  intro hmem
  have hnone := List.all_eq_true.mp h '\n' hmem
  cases quotePath <;> exact absurd hnone (by decide)

/-- The output ends with a newline. -/
theorem nameOnly_getLast {quotePath : Bool} (entries : List DiffEntry)
    (h : nameOnly quotePath entries ≠ []) : (nameOnly quotePath entries).getLast h = '\n' := by
  induction entries with
  | nil => exact (h rfl).elim
  | cons e entries ih =>
    by_cases hentries : nameOnly quotePath entries = []
    · have hcons : nameOnly quotePath (e :: entries) = gitPath quotePath e.name ++ ['\n'] := by
        show _ ++ nameOnly quotePath entries = _
        rw [hentries, List.append_nil]
      simp only [hcons, List.getLast_append_singleton]
    · exact (List.getLast_append_of_ne_nil h hentries).trans (ih hentries)

/-- An added, modified or deleted file, and the new name of a renamed one, is a line of its own when
git does not quote it and it has no blank at its ends. -/
theorem GitAnswers.mem_lines {git : GitAnswers} {repo : Repo} {e : DiffEntry}
    (he : e ∈ repo.committed ∨ e ∈ repo.worktree) (hplain : Plain git.quotePath e.name = true)
    (hbare : Bare e.name) : e.name ∈ git.lines repo := by
  have hmem : ∀ entries, e ∈ entries → e.name ∈ gitFiles (nameOnly git.quotePath entries) := by
    intro entries he
    obtain ⟨before, after, rfl⟩ := List.append_of_mem he
    have hout : nameOnly git.quotePath (before ++ e :: after) =
        nameOnly git.quotePath before ++ e.name ++ '\n' :: nameOnly git.quotePath after := by
      simp only [nameOnly, gitPath, List.flatMap_append, List.flatMap_cons, if_pos hplain,
        List.append_assoc, List.singleton_append]
    rw [hout]
    exact mem_gitFiles hbare (not_mem_of_plain hplain) (nameOnly_getLast before)
  obtain he | he := he
  · exact List.mem_append_left _ (hmem _ he)
  · exact List.mem_append_right _ (hmem _ he)

/-- A phase whose changed paths are all lines of their own skips none that it should run. -/
theorem ShipPipeline.skipsSafely_of_plain {p : ShipPipeline} {phases : List String}
    {git : GitAnswers} {repo now : Repo} (hscope : p.scope = none)
    (h : ∀ path ∈ now.changed, ∃ e, (e ∈ repo.committed ∨ e ∈ repo.worktree) ∧ e.name = path ∧
      Plain git.quotePath path = true ∧ Bare path) :
    SkipsSafely (p.runPhases phases git repo).1.2 now := by
  refine (p.skipsSafely_iff phases git repo now).mpr fun lines hlines c _ _ path hpath ht => ?_
  have hnew : (p.triggerScope git repo).1 = computeTriggerScope p.prBase git repo := by
    rw [triggerScope, hscope]
  rw [hnew, computeTriggerScope_files] at hlines
  obtain ⟨e, he, rfl, hplain, hbare⟩ := h path hpath
  obtain ⟨-, hlines⟩ := Option.ite_none_right_eq_some.mp hlines
  exact ⟨e.name, Option.some.inj hlines ▸ GitAnswers.mem_lines he hplain hbare, ht⟩

/-- In a ship, whose fix phase and verify phase find the repository in two states, no check is
skipped that a changed path triggers, exactly when the files that changed cannot be determined, or
whenever a path that is changed at the start of a phase triggers a check of it, a line that git
printed at the start of the fix phase does. -/
theorem skips_safely_iff (checks : List ShipCheck) (prBase : Option Str) (git git' : GitAnswers)
    (repo repo' : Repo) :
    let fix := ({ checks := checks, prBase := prBase } : ShipPipeline).runFixPhase git repo
    let verify := fix.2.runVerifyPhase git' repo'
    SkipsSafely fix.1.2 repo ∧ SkipsSafely verify.1.2 repo' ↔
      (git.determines prBase = true →
        Shown checks ["fix"] (git.lines repo) repo ∧
          Shown checks ["validate", "test"] (git.lines repo) repo') := by
  intro fix verify
  have hfix : SkipsSafely fix.1.2 repo ↔
      ∀ lines, (computeTriggerScope prBase git repo).files = some lines →
        Shown checks ["fix"] lines repo :=
    ShipPipeline.skipsSafely_iff _ _ git repo repo
  -- the scope of the fix phase is kept
  have hverify : SkipsSafely verify.1.2 repo' ↔
      ∀ lines, (computeTriggerScope prBase git repo).files = some lines →
        Shown checks ["validate", "test"] lines repo' :=
    ShipPipeline.skipsSafely_iff fix.2 _ git' repo' repo'
  rw [hfix, hverify, computeTriggerScope_files]
  cases git.determines prBase with
  | false => simp
  | true => simp

/-! ## Checks that are skipped wrongly -/

/-- A project whose migrations are tested when a file of `db` changes. -/
def migrationTests : ShipPipeline where
  checks := [{ name := "migrations".toList, phase := "test", triggers := some ["db/*".toList] }]
  prBase := some "main".toList

/-- Git answers, with the merge base. -/
def answered : GitAnswers where
  originHead := none
  mergeBase := some "0a1b2c3d\n".toList

/-- The repository before the fixers and after them: a migration is renamed out of `db`; one has a
letter in its name that git quotes; and a fixer changes one that had no changes. -/
def unseenChanges : List (Repo × Repo) :=
  let renamed : Repo :=
    { committed := [.renamed "db/001.sql".toList "old/001.sql".toList], worktree := [] }
  let quoted : Repo := { committed := [.changed "db/café.sql".toList], worktree := [] }
  [(renamed, renamed), (quoted, quoted),
    ({ committed := [], worktree := [] },
      { committed := [], worktree := [.changed "db/001.sql".toList] })]

/-- The tests of the migrations are skipped. -/
theorem migrations_untested :
    unseenChanges.Forall fun repos =>
      ¬SkipsSafely ((migrationTests.runFixPhase answered repos.1).2.runVerifyPhase answered
        repos.2).1.2 repos.2 := by
  -- In each repository the check is skipped, and a file that was changed triggers it.
  have hskipped : ∀ repos : Repo × Repo,
      (((migrationTests.runFixPhase answered repos.1).2.runVerifyPhase answered repos.2).1.2.any
        fun e => e.1.triggers = some ["db/*".toList]) = true →
      (repos.2.changed.any fun path => fnmatch path "db/*".toList) = true →
      ¬SkipsSafely ((migrationTests.runFixPhase answered repos.1).2.runVerifyPhase answered
        repos.2).1.2 repos.2 := by
    intro repos hskipped hchanged hsafe
    obtain ⟨e, he, htriggers⟩ := List.any_eq_true.mp hskipped
    obtain ⟨path, hpath, hmatch⟩ := List.any_eq_true.mp hchanged
    exact hsafe e he path hpath
      ⟨_, of_decide_eq_true htriggers, _, List.mem_singleton_self _, hmatch⟩
  exact ⟨hskipped _ (by decide) (by decide), hskipped _ (by decide) (by decide),
    hskipped _ (by decide) (by decide)⟩

end Fraisier.Ship
