import Mathlib.Data.List.MinMax
import Fraisier.Lib.System
import Fraisier.Backup.Names

/-!
# What a dump is compared with

`run_backup` compares a dump with the newest file that the pattern of its name finds. This is what is
there, and not what was reported as successful: a dump that was rejected stays, and the pattern of one
database finds the dumps of another. `dumps_sane` says in which runs every dump that is reported as
successful is at least half the size of the last one of its series.
-/

namespace Fraisier.Backup

open Fraisier.Lib Str System

variable (resolve : Str → PurePath)

/-! ## The system -/

/-- A call, and what it came to. -/
structure Record where
  call : Call
  /-- Where its dump is, and under which name. -/
  dir : PurePath
  name : Str
  mtime : ℕ
  left : Left
  success : Bool

/-- The dumps that there are, and the calls so far. -/
structure State where
  disk : Disk := []
  log : List Record := []

/-- A step: a call, and what it meets. -/
abbrev Step := Env × Call

/-- What the call leaves under the name of its dump. -/
def Call.left (call : Call) (env : Env) : Left :=
  match call.validate with
  | .error _ => .kept
  | .ok () =>
    (env.pgCmd (call.cmd (call.outputDir ++ '/' :: call.filename env.now)) call.databaseUrl).left

/-- The call is reported as successful. -/
def succeeds : Except BackupError BackupResult → Bool
  | .ok result => result.success
  | .error _ => false

/-- What is recorded of a step. -/
def State.record (s : State) (i : Step) : Record where
  call := i.2
  dir := resolve i.2.outputDir
  name := i.2.filename i.1.now
  mtime := i.1.mtime
  left := i.2.left i.1
  success := succeeds (runBackup (resolve i.2.outputDir) i.1 i.2 s.disk).1

/-- The state after a call. -/
def State.next (s : State) (i : Step) : Option State :=
  some { disk := (runBackup (resolve i.2.outputDir) i.1 i.2 s.disk).2
         log := s.log ++ [s.record resolve i] }

/-- The system of the calls of `run_backup`. -/
def backups : System State Step := ⟨State.next resolve⟩

/-! ## What is sane -/

/-- The size of what was left. -/
def Record.size (r : Record) : ℕ :=
  match r.left with
  | .dump dump => dump.size
  | .kept | .nothing => 0

/-- The dumps of one database and mode, lean or not. -/
def Call.SameSeries (call call' : Call) : Prop :=
  call.dbName = call'.dbName ∧ call.mode = call'.mode ∧ call.lean = call'.lean

instance (call call' : Call) : Decidable (call.SameSeries call') :=
  inferInstanceAs (Decidable (_ ∧ _ ∧ _))

/-- The record is the last in the list that was reported as successful in the series of the call, with
these records after it. -/
def LastSuccess (log : List Record) (call : Call) (p : Record) (after : List Record) : Prop :=
  ∃ before, log = before ++ p :: after ∧ p.success = true ∧ p.call.SameSeries call ∧
    ∀ r ∈ after, r.success = true → ¬r.call.SameSeries call

/-- Every dump that was reported as successful is at least half the size of the last one before it. -/
def State.Sane (s : State) : Prop :=
  ∀ before r rest, s.log = before ++ r :: rest → r.success = true →
    ∀ p after, LastSuccess before r.call p after → p.size ≤ 2 * r.size

/-- The dump that was last reported as successful in the call's series is what the call's own will be
compared with. -/
structure Comparable (i : Step) (p : Record) (after : List Record) : Prop where
  /-- Both are in one directory, under different names. -/
  dir : p.dir = resolve i.2.outputDir
  name : p.name ≠ i.2.filename i.1.now
  /-- A float holds its size. -/
  size : p.size ≤ 2 ^ 53
  /-- No newline follows an algorithm. -/
  newline : '\n' ∉ p.call.algo ∧ '\n' ∉ i.2.algo
  /-- Since then no call has touched the dump, nor left another that the pattern finds. -/
  undisturbed : ∀ r ∈ after, r.dir = p.dir → r.name ≠ i.2.filename i.1.now →
    i.2.finds r.name = true → isLeanDump r.name = i.2.lean →
      r.left = .kept ∨ r.left = .nothing ∧ r.name ≠ p.name

/-- The steps in which time goes on, and the last success is what is compared with. -/
def State.Undisturbed (s : State) (i : Step) : Prop :=
  (∀ e ∈ s.disk, e.dir = resolve i.2.outputDir → e.mtime < i.1.mtime) ∧
    ∀ p after, LastSuccess s.log i.2 p after → Comparable resolve i p after

/-! ## What is on the disk -/

variable {resolve} {s t : State} {i : Step} {disk : Disk} {dir : PurePath} {name : Str} {mtime n m : ℕ}
  {e : Entry} {p q r : Record} {after : List Record}

/-- What was left under the name of a call is there, unless a later one has touched it. -/
def Record.entry (p : Record) (dump : Dump) : Entry := ⟨p.dir, p.name, dump, p.mtime⟩

/-- A later call has touched what is under the name. -/
def Untouched (p : Record) (after : List Record) : Prop :=
  ∀ r ∈ after, r.dir = p.dir → r.name = p.name → r.left = .kept

/-- A success on the disk, and what is as new as it. -/
structure Standing (disk : Disk) (p : Record) (after : List Record) : Prop where
  valid : p.call.validate = .ok ()
  name : ∃ now, p.name = p.call.filename now
  there : ∃ dump, p.left = .dump dump ∧ (Untouched p after → p.entry dump ∈ disk)
  newest : ∀ e ∈ disk, e.dir = p.dir → p.mtime ≤ e.mtime → p.left = .dump e.dump ∧ e.name = p.name ∨
    ∃ r ∈ after, r.dir = e.dir ∧ r.name = e.name ∧ r.left = .dump e.dump

/-- Every success is. -/
def State.Kept (s : State) : Prop :=
  ∀ before p after, s.log = before ++ p :: after → p.success = true → Standing s.disk p after

/-- What is removed is gone, and nothing else. -/
theorem mem_without : e ∈ disk.without dir name ↔ e ∈ disk ∧ ¬(e.dir = dir ∧ e.name = name) := by
  rw [Disk.without, List.mem_filter, decide_eq_true_eq]

/-- After a backup the disk holds what it held and what the backup left. -/
theorem mem_leave {left : Left} (h : e ∈ disk.leave dir name mtime left) :
    e ∈ disk ∧ (e.dir = dir → e.name = name → left = .kept) ∨
      ∃ dump, left = .dump dump ∧ e = ⟨dir, name, dump, mtime⟩ := by
  cases left with
  | kept => exact Or.inl ⟨h, fun _ _ => rfl⟩
  | nothing =>
    obtain ⟨he, hother⟩ := mem_without.mp h
    exact Or.inl ⟨he, fun hdir hname => absurd ⟨hdir, hname⟩ hother⟩
  | dump dump =>
    rcases List.mem_append.mp h with h | h
    · obtain ⟨he, hother⟩ := mem_without.mp h
      exact Or.inl ⟨he, fun hdir hname => absurd ⟨hdir, hname⟩ hother⟩
    · exact Or.inr ⟨dump, rfl, List.mem_singleton.mp h⟩

/-- What a backup leaves alone stays on the disk. -/
theorem leave_of_mem {left : Left} (he : e ∈ disk) (h : e.dir = dir → e.name = name → left = .kept) :
    e ∈ disk.leave dir name mtime left := by
  cases left with
  | kept => exact he
  | nothing => exact mem_without.mpr ⟨he, fun hother => nomatch h hother.1 hother.2⟩
  | dump dump =>
    refine List.mem_append_left _ (mem_without.mpr ⟨he, fun hother => ?_⟩)
    cases h hother.1 hother.2

/-- A backup leaves its dump on the disk. -/
theorem runBackup_disk (env : Env) (call : Call) :
    (runBackup dir env call disk).2 =
      disk.leave dir (call.filename env.now) env.mtime (call.left env) := by
  unfold runBackup Call.left
  cases call.validate with
  | error e => rfl
  | ok =>
    dsimp only
    cases env.pgCmd _ _ <;> rfl

/-- A dump that is accepted is not too small beside the one before. -/
theorem judge_success {env : Env} {call : Call} {path : Str} {dump : Dump} {previous : Option Entry}
    (h : (call.judge env path dump previous).success = true) :
    ∀ e, previous = some e → tooSmall dump.size e.dump.size = false := by
  rintro e rfl
  unfold Call.judge at h
  dsimp only at h
  split at h
  · cases h
  split at h
  · cases h
  split at h
  · cases h
  · rename_i hsize
    exact Bool.eq_false_iff.mpr hsize

/-- What a successful call has gone through. -/
theorem runBackup_succeeds {env : Env} {call : Call}
    (h : succeeds (runBackup dir env call disk).1 = true) : call.validate = .ok () ∧
      ∃ dump, call.left env = .dump dump ∧
        ∀ previous, call.previous dir (call.filename env.now) (runBackup dir env call disk).2 =
          some previous → tooSmall dump.size previous.dump.size = false := by
  rw [runBackup_disk]
  unfold runBackup at h
  unfold Call.left
  -- Each step of the call can fail, and a successful one has passed them all.
  cases hvalid : call.validate with
  | error e =>
    rw [hvalid] at h
    cases h
  | ok =>
    rw [hvalid] at h
    dsimp only at h ⊢
    cases hended : env.pgCmd (call.cmd (call.outputDir ++ '/' :: call.filename env.now))
        call.databaseUrl with
    | raised | failed =>
      rw [hended] at h
      cases h
    | wrote dump =>
      rw [hended] at h
      exact ⟨rfl, dump, rfl, judge_success h⟩

/-! ## Sizes -/

/-- A number up to 2^53 is a float. -/
theorem toFloat_of_le (h : n ≤ 2 ^ 53) : toFloat n = n := by
  rcases h.lt_or_eq with hlt | rfl
  · have hlog : n.log2 - 52 = 0 := by
      rcases Nat.eq_zero_or_pos n with rfl | hpos
      · rfl
      · have hlog2 := (Nat.log2_lt hpos.ne').mpr hlt
        omega
    simp only [toFloat, hlog, Nat.pow_zero, Nat.mod_one, Nat.div_one, Nat.mul_one, Nat.mul_zero]
    rw [if_pos (Or.inl Nat.one_pos)]
  · decide

/-- A dump that is not too small has half the size of the one before. -/
theorem le_of_not_tooSmall (h : tooSmall n m = false) (hm : m ≤ 2 ^ 53) : m ≤ 2 * n := by
  unfold tooSmall at h
  rw [toFloat_of_le hm, Bool.and_eq_false_iff, decide_eq_false_iff_not, decide_eq_false_iff_not] at h
  omega

/-! ## Runs -/

/-- A record of a list, with one more at its end. -/
theorem split_snoc {log before after : List Record} (h : log ++ [q] = before ++ p :: after) :
    log = before ∧ q = p ∧ after = [] ∨
      ∃ after', after = after' ++ [q] ∧ log = before ++ p :: after' := by
  rcases List.eq_nil_or_concat after with rfl | ⟨after', q', rfl⟩
  · obtain ⟨rfl, hq⟩ := List.append_inj' h rfl
    exact Or.inl ⟨rfl, (List.cons.inj hq).1, rfl⟩
  · rw [List.concat_eq_append, ← List.cons_append, ← List.append_assoc] at h
    obtain ⟨rfl, hq⟩ := List.append_inj' h rfl
    obtain rfl := (List.cons.inj hq).1
    exact Or.inr ⟨after', List.concat_eq_append, rfl⟩

/-- What a step adds. -/
theorem State.next_eq (hn : s.next resolve i = some t) :
    t = ⟨s.disk.leave (resolve i.2.outputDir) (i.2.filename i.1.now) i.1.mtime (i.2.left i.1),
      s.log ++ [s.record resolve i]⟩ := by
  rw [← runBackup_disk]
  exact (Option.some.inj hn).symm

/-- A dump that stands, stands after one more backup. -/
theorem Standing.snoc (h : Standing disk p after) (q : Record) :
    Standing (disk.leave q.dir q.name q.mtime q.left) p (after ++ [q]) := by
  obtain ⟨dump, hdump, hthere⟩ := h.there
  refine ⟨h.valid, h.name, ⟨dump, hdump, fun huntouched => ?_⟩, fun e he hdir hmtime => ?_⟩
  · have hmem := hthere fun r hr => huntouched r (List.mem_append_left _ hr)
    refine leave_of_mem hmem fun hdir hname => ?_
    exact huntouched q (List.mem_append_right _ List.mem_cons_self) hdir.symm hname.symm
  · rcases mem_leave he with ⟨he, -⟩ | ⟨dump', hleft, rfl⟩
    · refine (h.newest e he hdir hmtime).imp id ?_
      rintro ⟨r, hr, hr'⟩
      exact ⟨r, List.mem_append_left _ hr, hr'⟩
    · exact Or.inr ⟨q, List.mem_append_right _ List.mem_cons_self, rfl, rfl, hleft⟩

/-- A step keeps the dumps on the disk in step with the log. -/
theorem State.kept_next (h : s.Kept) (hc : s.Undisturbed resolve i) (hn : s.next resolve i = some t) :
    t.Kept := by
  obtain rfl := State.next_eq hn
  intro before p after hlog hsuccess
  rcases split_snoc hlog with ⟨-, rfl, rfl⟩ | ⟨after', rfl, hlog'⟩
  · -- a new success is newer than what was there
    obtain ⟨hvalid, dump, hleft, -⟩ := runBackup_succeeds hsuccess
    refine ⟨hvalid, ⟨i.1.now, rfl⟩, ⟨dump, hleft, fun _ => ?_⟩, fun e he hdir hmtime => ?_⟩
    · rw [hleft]
      exact List.mem_append_right _ List.mem_cons_self
    · rcases mem_leave he with ⟨he, -⟩ | ⟨dump', hleft', rfl⟩
      · have hold := hc.1 e he hdir
        exact absurd hmtime (Nat.not_le.mpr hold)
      · exact Or.inl ⟨hleft', rfl⟩
  · exact (h before p after' hlog' hsuccess).snoc (s.record resolve i)

/-- What a call is compared with is the last success of its series. -/
theorem previous_eq (hp : Standing s.disk p after) (hcomp : Comparable resolve i p after)
    (hvalid : i.2.validate = .ok ()) (hseries : p.call.SameSeries i.2) :
    ∃ previous, i.2.previous (resolve i.2.outputDir) (i.2.filename i.1.now)
      (s.disk.leave (resolve i.2.outputDir) (i.2.filename i.1.now) i.1.mtime (i.2.left i.1)) =
        some previous ∧ p.left = .dump previous.dump := by
  obtain ⟨now, hnow⟩ := hp.name
  obtain ⟨dump, hdump, hthere⟩ := hp.there
  have hlean : isLeanDump (i.2.filename i.1.now) = i.2.lean :=
    isLeanDump_filename (mem_algos hvalid hcomp.newline.2)
  have hlean' : isLeanDump p.name = i.2.lean := by
    rw [hnow, isLeanDump_filename (mem_algos hp.valid hcomp.newline.1), hseries.2.2]
  have hfinds : i.2.finds p.name = true := by
    rw [hnow]
    exact finds_filename (by rw [Call.start, Call.start, hseries.1, hseries.2.1])
  have huntouched : Untouched p after := by
    intro r hr hdir hname
    have hkept := hcomp.undisturbed r hr hdir (hname ▸ hcomp.name) (hname ▸ hfinds) (hname ▸ hlean')
    exact hkept.resolve_right fun h => h.2 hname
  have hmem : p.entry dump ∈ s.disk.leave (resolve i.2.outputDir) (i.2.filename i.1.now) i.1.mtime
      (i.2.left i.1) :=
    leave_of_mem (hthere huntouched) fun _ hname => absurd hname hcomp.name
  generalize hdisk : s.disk.leave (resolve i.2.outputDir) (i.2.filename i.1.now) i.1.mtime
    (i.2.left i.1) = disk at hmem ⊢
  -- the success is among those that the pattern finds
  have hcandidate : p.entry dump ∈ disk.filter fun e => e.dir = resolve i.2.outputDir &&
      i.2.finds e.name && e.name ≠ i.2.filename i.1.now &&
        isLeanDump e.name = isLeanDump (i.2.filename i.1.now) := by
    refine List.mem_filter.mpr ⟨hmem, ?_⟩
    simp only [Bool.and_eq_true, decide_eq_true_eq]
    exact ⟨⟨⟨hcomp.dir, hfinds⟩, hcomp.name⟩, hlean'.trans hlean.symm⟩
  have hsome : i.2.previous (resolve i.2.outputDir) (i.2.filename i.1.now) disk ≠ none :=
    fun hnone => List.ne_nil_of_mem hcandidate (List.argmax_eq_none.mp hnone)
  obtain ⟨previous, hprevious⟩ := Option.ne_none_iff_exists'.mp hsome
  refine ⟨previous, hprevious, ?_⟩
  have hfound := List.argmax_mem hprevious
  rw [List.mem_filter] at hfound
  simp only [Bool.and_eq_true, decide_eq_true_eq] at hfound
  obtain ⟨hprev, ⟨⟨hdir, hfinds'⟩, hname⟩, hlean''⟩ := hfound
  -- it is as new as the success, so it is the success, or was left after it
  have hold : previous ∈ s.disk := by
    rw [← hdisk] at hprev
    rcases mem_leave hprev with ⟨hprev, -⟩ | ⟨dump', -, rfl⟩
    · exact hprev
    · exact absurd rfl hname
  have hnewer : p.mtime ≤ previous.mtime := List.le_of_mem_argmax hcandidate hprevious
  rcases hp.newest previous hold (hdir.trans hcomp.dir.symm) hnewer with ⟨hleft, -⟩ | ⟨r, hr, hr'⟩
  · exact hleft
  · obtain ⟨hdir', hname', hleft⟩ := hr'
    have hkept := hcomp.undisturbed r hr (hdir'.trans (hdir.trans hcomp.dir.symm)) (hname' ▸ hname)
      (hname' ▸ hfinds') (hname' ▸ hlean''.trans hlean)
    rw [hleft] at hkept
    rcases hkept with hkept | ⟨hkept, -⟩ <;> cases hkept

/-- A step keeps the dumps sane. -/
theorem State.sane_next (h : s.Kept) (hsane : s.Sane) (hc : s.Undisturbed resolve i)
    (hn : s.next resolve i = some t) : t.Sane := by
  obtain rfl := State.next_eq hn
  intro before r rest hlog hsuccess p after hlast
  -- The record is the one of this step, or an earlier one.
  rcases split_snoc hlog with ⟨rfl, rfl, rfl⟩ | ⟨rest', rfl, hlog'⟩
  · obtain ⟨hvalid, dump, hleft, hsize⟩ := runBackup_succeeds hsuccess
    have hcomp := hc.2 p after hlast
    obtain ⟨before', hsplit, hsuccess', hseries, -⟩ := hlast
    obtain ⟨previous, hprevious, hprev⟩ :=
      previous_eq (h before' p after hsplit hsuccess') hcomp hvalid hseries
    rw [runBackup_disk] at hsize
    have hp : p.size = previous.dump.size := by rw [Record.size, hprev]
    have hr : (s.record resolve i).size = dump.size := by
      rw [Record.size, State.record, hleft]
    rw [hp, hr]
    exact le_of_not_tooSmall (hsize previous hprevious) (hp ▸ hcomp.size)
  · exact hsane before r rest' hlog' hsuccess p after hlast

/-- In a run in which time goes on and the last success of a series is what a call of it is compared
with, every dump that is reported as successful is at least half the size of the last one before it. -/
theorem dumps_sane {is : List Step} (hs : s.log = [])
    (h : (backups resolve).Runs (State.Undisturbed resolve) s is t) : t.Sane := by
  have hinv := h.invariant (I := fun s => s.Kept ∧ s.Sane)
    (fun s i t hi hc hn => ⟨State.kept_next hi.1 hc hn, State.sane_next hi.1 hi.2 hc hn⟩)
  refine (hinv ⟨?_, ?_⟩).2
  · intro before p after hlog
    rw [hs] at hlog
    simp at hlog
  · intro before r rest hlog
    rw [hs] at hlog
    simp at hlog

/-- Just after noon. -/
def noon (minute : Fin 60) : Minute where
  year := 2026
  month := 1
  day := 1
  hour := 12
  minute := minute.val
  year_mem := by decide
  month_le := by decide
  day_le := by decide
  hour_lt := by decide
  minute_lt := minute.isLt

/-- A dump of a database, of the size. -/
def dumpOf (minute : Fin 60) (dbName : String) (size : ℕ) : Step :=
  ({ now := noon minute, mtime := minute.val, pgCmd := fun _ _ => .wrote (.file size)
     toc := { verdict := .valid }, rows := { verdict := .valid } },
    { dbName := dbName.toList, outputDir := "/backup".toList, databaseUrl := [] })

example : (dumpOf 7 "app" 1).2.filename (noon 7) = "app_full_20260101_1207_zstd.dump".toList := by
  decide

set_option maxRecDepth 10000 in
/-- Two backups of two databases leave sane dumps. -/
theorem dumps_sane_twice : ∃ t,
    (backups .of).Runs (State.Undisturbed .of) {} [dumpOf 0 "app" 100, dumpOf 1 "app" 60] t ∧
      t.log.map (·.success) = [true, true] ∧ t.Sane := by
  have hrun : (backups .of).Runs (State.Undisturbed .of) {}
      [dumpOf 0 "app" 100, dumpOf 1 "app" 60] _ :=
    .cons ⟨nofun, fun p after h => by
      obtain ⟨before, hlog, -⟩ := h
      cases before <;> cases hlog⟩ rfl <|
    .cons ⟨by decide, fun p after h => by
      obtain ⟨before, hlog, -⟩ := h
      cases before with
      | nil =>
        obtain ⟨rfl, rfl⟩ := List.cons.inj hlog
        exact ⟨rfl, by decide, by decide, by decide, nofun⟩
      | cons r before => cases before <;> cases hlog⟩ rfl <| .nil _
  exact ⟨_, hrun, by decide, dumps_sane rfl hrun⟩

set_option maxRecDepth 10000 in
/-- A dump that was rejected, and one of another database, are what the next is compared with. -/
theorem undersized_succeeds :
    (∃ t, (backups .of).Runs Any {} [dumpOf 0 "app" 100, dumpOf 1 "app" 10, dumpOf 2 "app" 10] t ∧
      ¬t.Sane) ∧
    ∃ t, (backups .of).Runs Any {}
      [dumpOf 0 "app" 100, dumpOf 1 "app_full_x" 10, dumpOf 2 "app" 10] t ∧ ¬t.Sane := by
  constructor
  · refine ⟨_, runs_of_run rfl, fun h => ?_⟩
    have hle := h [_, _] _ [] rfl (by decide) _ [_] ⟨[], rfl, by decide, ⟨rfl, rfl, rfl⟩, by decide⟩
    exact absurd hle (by decide)
  · refine ⟨_, runs_of_run rfl, fun h => ?_⟩
    have hle := h [_, _] _ [] rfl (by decide) _ [_] ⟨[], rfl, by decide, ⟨rfl, rfl, rfl⟩, by decide⟩
    exact absurd hle (by decide)

end Fraisier.Backup
