import Fraisier.Lib.PostgresConf
import Fraisier.PgBackRest.Helper

/-!
# The stanza's source is spared

A cluster that archives into the helper's stanza must be neither stopped nor restored.
`_refuse_the_stanzas_source` looks for that through the lines of some files; the server reads its
configuration in a language of its own (`PostgresConf`). `spared_iff` says on which hosts the helper
keeps its promise: where the server reads such an `archive_command`, a line that the helper
recognises must stand in a file that it reads.
-/

namespace Fraisier.PgBackRest

open Fraisier.Lib Interaction Str PostgresConf

/-! ## A host -/

/-- What is at a path. -/
inductive Entry
  | absent
  | directory (names : List Str)
  | file (text : Str)
  /-- A file that is not UTF-8. -/
  | binary (bytes : List UInt8)
  /-- A file that the server can read and root cannot, as on a remote file system. -/
  | denied (text : Str)
  deriving DecidableEq

/-- The host at a request. -/
structure Host where
  /-- What the listing of the clusters comes to. -/
  listing : Except Fault Completed
  entry : PurePath → Entry

/-- How `read_text` ends. -/
def Entry.Reads : Entry → Except Fault Str → Prop
  | .file text, r => r = .ok text
  | .binary _, r => ∃ cls text, r = .error (.other cls text)
  | _, r => ∃ text, r = .error (.osError text)

/-- Whether it is a directory. -/
def Entry.isDir : Entry → Bool
  | .directory _ => true
  | _ => false

/-- The names that `dir.glob("*.conf")` finds. -/
def Host.confNames (host : Host) (dir : PurePath) : List Str :=
  match host.entry dir with
  | .directory names => names.filter (·.endsWith ".conf".toList)
  | _ => []

/-- A command other than the listing. -/
def Touches : HelperCall → Prop
  | .exec argv _ _ => argv ≠ lsclusters
  | _ => False

/-- The calls made so far. -/
abbrev Calls := History HelperCall.Answer

/-- No service and no file has been touched. -/
def Untouched (es : Calls) : Prop := ∀ e ∈ es, ¬Touches e.1

/-- The host answers as it is, and nobody else changes it before the helper does. -/
def OnHost (host : Host) : Rely HelperCall.Answer
  | h, ⟨.exec argv _ _, r⟩ => argv = lsclusters → Untouched h → r = host.listing
  | _, ⟨.isDir path, r⟩ => r = (host.entry (.of path)).isDir
  | _, ⟨.glob dir, r⟩ => r = host.confNames dir
  | _, ⟨.readText path, r⟩ => (host.entry path).Reads r
  | _, ⟨.getpwnam _, _⟩ => True
  | _, ⟨.pathExists _, _⟩ => True

variable {host : Host} {config : HelperConfig}

/-- The row of the configured cluster. -/
def Host.row (host : Host) (config : HelperConfig) : Option ClusterRow :=
  match host.listing with
  | .ok listed =>
    if listed.returncode = 0 then (parseLsclusters listed.stdout).bind (·.find? config.isCluster)
    else none
  | .error _ => none

/-- The row, unless the helper refuses it as it is. -/
def Host.cluster (host : Host) (config : HelperConfig) : Option ClusterRow :=
  (host.row config).filter fun row => row.owner ≠ "root".toList && (host.entry (.of row.datadir)).isDir

/-! ## What the server reads -/

/-- A file as the server reads it, where it can. -/
def Entry.chars : Entry → Option Str
  | .file text | .denied text => some text
  | .binary bytes => some (bytes.map fun b => .ofNat b.toNat)
  | _ => none

/-- The files of a server on the host. -/
def Host.files (host : Host) : Files PurePath where
  read path := (host.entry path).chars
  locate path name := path.parent.join name
  list dir := match host.entry dir with
    | .directory names =>
      let included := names.filter fun name => name.endsWith ".conf".toList &&
        !name.startsWith ['.'] && !(host.entry (dir.join name)).isDir
      some ((included.insertionSort (· ≤ ·)).map dir.join)
    | _ => none

/-- The settings of the cluster's server: those of its `postgresql.conf`, and of the
`postgresql.auto.conf` in its data directory, if there is one. -/
def Host.settings (host : Host) (config : HelperConfig) (row : ClusterRow) :
    Option (List (Setting PurePath)) := do
  let auto := (PurePath.of row.datadir).join "postgresql.auto.conf".toList
  let own ← PostgresConf.settings host.files 11 ((confDir config row).join "postgresql.conf".toList)
  let altered ← match host.files.read auto with
    | none => some []
    | some _ => PostgresConf.settings host.files 11 auto
  some (own ++ altered)

/-- The setting of the archive command, as the server reads it. -/
def Host.archiveCommand (host : Host) (config : HelperConfig) (row : ClusterRow) :
    Option (Setting PurePath) := do
  let all ← host.settings config row
  effective "archive_command".toList all

/-- The server archives into the helper's stanza. -/
def ArchivesInto (host : Host) (config : HelperConfig) : Prop :=
  ∃ row ∈ host.row config, ∃ s ∈ host.archiveCommand config row, namesStanza config.stanza s.value

/-! ## What the helper looks for -/

/-- What is at a path makes the helper refuse. -/
def Entry.refuses (stanza : Str) : Entry → Bool
  | .file text => text.splitlines.any (isSourceLine stanza)
  | .binary _ => true
  | _ => false

/-- The helper refuses the row for what is in a file. -/
def Host.Recognises (host : Host) (config : HelperConfig) (row : ClusterRow) : Prop :=
  ∃ path ∈ sourceFiles config row (host.confNames ((confDir config row).join "conf.d".toList)),
    (host.entry path).refuses config.stanza

/-- The helper refuses the cluster. -/
def Host.Refuses (host : Host) (config : HelperConfig) : Prop :=
  ∀ row ∈ host.cluster config, host.Recognises config row

instance : Decidable (ArchivesInto host config) :=
  inferInstanceAs (Decidable (∃ row ∈ host.row config, ∃ s ∈ host.archiveCommand config row,
    namesStanza config.stanza s.value = true))

instance {row : ClusterRow} : Decidable (host.Recognises config row) :=
  inferInstanceAs (Decidable (∃ path ∈ sourceFiles config row
    (host.confNames ((confDir config row).join "conf.d".toList)),
      (host.entry path).refuses config.stanza = true))

instance : Decidable (host.Refuses config) :=
  inferInstanceAs (Decidable (∀ row ∈ host.cluster config, host.Recognises config row))

/-- The reply is an error, and nothing has been touched. -/
def Refused (reply : Reply) (es : Calls) : Prop := (∃ error, reply = .failed error) ∧ Untouched es

/-- The stanza's source is neither stopped nor restored, and no restore runs on a cluster that is
online. -/
structure Spared (host : Host) (config : HelperConfig) : Prop where
  refused : ArchivesInto host config → ∀ request, (request = .stop ∨ ∃ set, request = .restore set) →
    ∀ es r, (handle config request).Runs (OnHost host) [] es r →
      ∃ reply, r = .ok reply ∧ Refused reply es
  offline : ∀ set es r, (handle config (.restore set)).Runs (OnHost host) [] es r →
    ∀ e ∈ es, Touches e.1 → ∃ row ∈ host.row config, row.isOnline = false

/-! ## The calls of a request -/

variable {h : Calls}

/-- Before the first call nothing is touched. -/
theorem untouched_nil : Untouched [] := List.forall_mem_nil _

/-- A call that touches nothing leaves things untouched. -/
theorem untouched_snoc {e : Sigma HelperCall.Answer} :
    Untouched (h ++ [e]) ↔ Untouched h ∧ ¬Touches e.1 :=
  List.forall_mem_append.trans (and_congr_right fun _ => List.forall_mem_singleton)

/-- A call that touches nothing leaves all untouched. -/
theorem Untouched.snoc {e : Sigma HelperCall.Answer} (hu : Untouched h) (he : ¬Touches e.1) :
    Untouched (h ++ [e]) := untouched_snoc.mpr ⟨hu, he⟩

/-- A command with arguments other than the two of a look touches something. -/
theorem touches_exec {argv : List Str} {user : Option Str} {timeout : ℕ} (hargv : argv.length ≠ 2) :
    Touches (.exec argv user timeout) := fun heq => hargv (congrArg List.length heq)

/-- What has been touched stays so. -/
theorem keeps_touched {ε α : Type} (R : Rely HelperCall.Answer)
    (p : Interaction HelperCall.Answer ε α) : Keeps R (fun h => ¬Untouched h) p :=
  keeps_any (fun _ _ ht hu => ht (untouched_snoc.mp hu).1) p

/-- The check of a row leaves things untouched and passes the configured cluster. -/
theorem checkRow_ends (hu : Untouched h) {row : ClusterRow} (hrow : host.row config = some row) :
    (checkRow config row).Ends (OnHost host) h
      (fun row h' => host.cluster config = some row ∧ Untouched h')
      fun _ h' => host.cluster config = none ∧ Untouched h' := by
  have hcluster : host.cluster config = if row.owner ≠ "root".toList &&
      (host.entry (.of row.datadir)).isDir then some row else none := by
    rw [Host.cluster, hrow, Option.filter_some]
  unfold checkRow
  split
  next hroot => exact ⟨hcluster.trans (if_neg fun h =>
      absurd hroot (of_decide_eq_true (Bool.and_eq_true_iff.mp h).1)), hu⟩
  -- The directory of the cluster has to be one.
  next hroot =>
    intro isDir hdir
    have hdir : isDir = (host.entry (.of row.datadir)).isDir := hdir
    have hu : Untouched (h ++ [⟨.isDir row.datadir, isDir⟩]) := hu.snoc id
    cases isDir with
    | true => exact ⟨hcluster.trans (if_pos (Bool.and_eq_true_iff.mpr ⟨decide_eq_true hroot, hdir.symm⟩)), hu⟩
    | false => exact ⟨hcluster.trans (if_neg fun h => nomatch hdir.trans (Bool.and_eq_true_iff.mp h).2), hu⟩

/-- `_cluster` reads the row that the host lists. -/
theorem cluster_ends (hu : Untouched h) :
    (cluster config).Ends (OnHost host) h
      (fun row h' => host.cluster config = some row ∧ Untouched h')
      fun _ h' => host.cluster config = none ∧ Untouched h' := by
  intro r hr
  have hr : host.listing = r := (hr rfl hu).symm
  -- Listing the clusters touches nothing.
  have hu : Untouched (h ++ [⟨.exec lsclusters none 60, r⟩]) := hu.snoc fun hne => hne rfl
  have hnone : host.row config = none → host.cluster config = none := fun hrow => by
    rw [Host.cluster, hrow, Option.filter_none]
  cases r with
  | error f => exact ⟨hnone (by rw [Host.row, hr]), hu⟩
  | ok listed =>
    -- The row is the first that is listed of the cluster.
    have hrow : host.row config = if listed.returncode = 0 then
        (parseLsclusters listed.stdout).bind (·.find? config.isCluster) else none := by
      rw [Host.row, hr]
    show (readListing config listed).Ends _ _ _ _
    unfold readListing
    split
    next hcode => exact ⟨hnone (hrow.trans (if_neg hcode)), hu⟩
    next hcode =>
      rw [if_pos (not_not.mp hcode)] at hrow
      split
      next hparse => exact ⟨hnone (by rw [hrow, hparse, Option.bind_none]), hu⟩
      next rows hparse =>
        rw [hparse, Option.bind_some] at hrow
        split
        next hfind => exact ⟨hnone (hrow.trans hfind), hu⟩
        next row hfind => exact checkRow_ends hu (hrow.trans hfind)

/-- One of the files is read: it makes the helper refuse, or not. -/
theorem refuseSourceFile_ends (hu : Untouched h) (path : PurePath) :
    (refuseSourceFile config path).Ends (OnHost host) h
      (fun _ h' => (host.entry path).refuses config.stanza = false ∧ Untouched h')
      fun _ h' => (host.entry path).refuses config.stanza = true ∧ Untouched h' := by
  intro r hr
  have hr : (host.entry path).Reads r := hr
  have hu : Untouched (h ++ [⟨.readText path, r⟩]) := hu.snoc id
  -- A file that cannot be read refuses, and one that can by its lines.
  cases hentry : host.entry path with
  | file text =>
    rw [hentry] at hr
    obtain rfl : r = .ok text := hr
    show (ite _ _ _ : Helper Unit).Ends _ _ _ _
    split
    next hline => exact ⟨hline, hu⟩
    next hline => exact ⟨(Bool.not_eq_true _).mp hline, hu⟩
  | binary bytes =>
    rw [hentry] at hr
    obtain ⟨cls, text, rfl⟩ := hr
    exact ⟨rfl, hu⟩
  | absent | directory | denied =>
    rw [hentry] at hr
    obtain ⟨text, rfl⟩ := hr
    exact ⟨rfl, hu⟩

/-- The guard refuses the rows that it recognises. -/
theorem refuseTheStanzasSource_ends (hu : Untouched h) (row : ClusterRow) :
    (refuseTheStanzasSource config row).Ends (OnHost host) h
      (fun _ h' => ¬host.Recognises config row ∧ Untouched h')
      fun _ h' => host.Recognises config row ∧ Untouched h' := by
  intro names hnames
  have hu : Untouched (h ++ [⟨.glob ((confDir config row).join "conf.d".toList), names⟩]) := hu.snoc id
  obtain rfl : names = host.confNames ((confDir config row).join "conf.d".toList) := hnames
  show ((sourceFiles config row _).foldlM (fun _ path => refuseSourceFile config path) ()).Ends _ _ _ _
  -- None of the files so far has refused.
  refine (Ends.foldlM (I := fun done _ h' =>
    (∀ path ∈ done, (host.entry path).refuses config.stanza = false) ∧ Untouched h') []
    ⟨nofun, hu⟩ fun done path rest _ h' hsplit hdone => ?_).mono (fun _ h' hall => ⟨?_, hall.2⟩)
    fun _ _ => id
  · refine (refuseSourceFile_ends hdone.2 path).mono (fun _ h' hpath => ⟨?_, hpath.2⟩)
      fun _ h' hpath => ⟨⟨path, ?_, hpath.1⟩, hpath.2⟩
    · exact List.forall_mem_append.mpr ⟨hdone.1, List.forall_mem_singleton.mpr hpath.1⟩
    · rw [List.nil_append] at hsplit
      exact hsplit ▸ List.mem_append_right _ List.mem_cons_self
  · rintro ⟨path, hpath, hrefuses⟩
    exact absurd hrefuses (Bool.eq_false_iff.mp (hall.1 path hpath))

/-! ## Stopping and restoring -/

/-- A cluster that is found has its row. -/
theorem Host.row_of_cluster {row : ClusterRow} (hrow : host.cluster config = some row) :
    host.row config = some row := (Option.filter_eq_some_iff.mp hrow).1

/-- What begins with the row and the guard goes on only where the helper does not refuse. -/
theorem guarded_ends {k : ClusterRow → Helper Reply} {Q : Reply → Calls → Prop}
    {E : Raised → Calls → Prop} (hE : ∀ e h, host.Refuses config → Untouched h → E e h)
    (hk : ∀ row h, host.cluster config = some row → ¬host.Refuses config → Untouched h →
      (k row).Ends (OnHost host) h Q E) :
    (do let row ← cluster config; refuseTheStanzasSource config row; k row : Helper Reply).Ends
      (OnHost host) [] Q E := by
  rw [ends_bind]
  refine (cluster_ends untouched_nil).mono (fun row h ⟨hrow, hu⟩ => ?_) fun e h ⟨hnone, hu⟩ => ?_
  · rw [ends_bind]
    refine (refuseTheStanzasSource_ends hu row).mono (fun _ h ⟨hnot, hu⟩ => ?_)
      fun e h ⟨hrecognised, hu⟩ => hE e h (fun row' hrow' => ?_) hu
    · exact hk row h hrow (fun hrefuses => hnot (hrefuses row hrow)) hu
    · obtain rfl := Option.some.inj (hrow.symm.trans hrow')
      exact hrecognised
  · exact hE e h (fun row hrow => nomatch hnone.symm.trans hrow) hu

/-- A stop ends with an error and without a touch exactly when the helper refuses the cluster. -/
theorem doStop_ends : (doStop config).Ends (OnHost host) []
    (fun reply h => host.Refuses config ↔ Refused reply h)
    fun _ h => host.Refuses config ↔ Untouched h := by
  refine guarded_ends (fun e h hrefuses hu => iff_of_true hrefuses hu) fun row h hrow hnot hu => ?_
  split
  next honline =>
    -- from the command on, something has been touched
    intro r _
    refine (keeps_touched _ _ _ fun hu => ?_).mono
      (fun reply h ht => iff_of_false hnot fun hr => ht hr.2) fun e h ht => iff_of_false hnot ht
    exact (untouched_snoc.mp hu).2 (touches_exec (by simp))
  next honline => exact iff_of_false hnot fun ⟨⟨error, he⟩, _⟩ => nomatch he

/-- A restore is refused where the helper refuses the cluster, and touches nothing of one that is
online. -/
theorem doRestore_ends (set : Str) :
    let Safe (h : Calls) := (host.Refuses config → Untouched h) ∧
      (¬Untouched h → ∃ row ∈ host.row config, row.isOnline = false)
    (doRestore config set).Ends (OnHost host) []
      (fun reply h => (host.Refuses config → Refused reply h) ∧ Safe h) fun _ h => Safe h := by
  refine guarded_ends (fun e h hrefuses hu => ⟨fun _ => hu, fun ht => absurd hu ht⟩)
    fun row h hrow hnot hu => ?_
  split
  next honline => exact ⟨fun hr => absurd hr hnot, fun hr => absurd hr hnot, fun ht => absurd hu ht⟩
  next honline =>
    have hoffline : ∃ row ∈ host.row config, row.isOnline = false :=
      ⟨row, Host.row_of_cluster hrow, (Bool.not_eq_true _).mp honline⟩
    refine (keeps_any (I := fun _ => True) (fun _ _ _ => trivial) _ h trivial).mono ?_ ?_
    · exact fun reply h _ => ⟨fun hr => absurd hr hnot, fun hr => absurd hr hnot, fun _ => hoffline⟩
    · exact fun e h _ => ⟨fun hr => absurd hr hnot, fun _ => hoffline⟩

/-- An exception is answered with an error. -/
theorem handle_ends {R : Rely HelperCall.Answer} {request : Request} {Q : Reply → Calls → Prop}
    {E : Raised → Calls → Prop} (ho : (operation config request).Ends R h Q fun e => Q (.failed e.error)) :
    (handle config request).Ends R h Q E := by
  unfold handle
  rw [ends_bind, ends_attempt]
  exact ho

/-- An end of `read_text`. -/
def Entry.read : Entry → Except Fault Str
  | .file text => .ok text
  | .binary _ => .error (.other [] [])
  | _ => .error (.osError [])

/-- An entry is read as it reads. -/
theorem Entry.reads_read (entry : Entry) : entry.Reads entry.read := by
  cases entry with
  | file text => rfl
  | binary bytes => exact ⟨_, _, rfl⟩
  | absent | directory | denied => exact ⟨_, rfl⟩

/-- A host answers every call. -/
def Host.answer (host : Host) : (c : HelperCall) → c.Answer
  | .getpwnam _ => true
  | .exec argv _ _ => if argv = lsclusters then host.listing else .ok ⟨0, [], []⟩
  | .isDir path => (host.entry (.of path)).isDir
  | .glob dir => host.confNames dir
  | .readText path => (host.entry path).read
  | .pathExists path => host.entry path ≠ .absent

/-- The host answers as it does. -/
theorem Host.onHost_answer (host : Host) (h : Calls) (c : HelperCall) :
    OnHost host h ⟨c, host.answer c⟩ := by
  cases c with
  | exec argv user timeout => exact fun hargv _ => if_pos hargv
  | readText path => exact (host.entry path).reads_read
  | isDir path | glob path => rfl
  | getpwnam | pathExists => trivial

/-- A stop is refused when the host refuses it. -/
theorem stop_ends : (handle config .stop).Ends (OnHost host) []
    (fun reply h => host.Refuses config ↔ Refused reply h) fun _ _ => False :=
  handle_ends (doStop_ends.mono (fun _ _ => id) fun _ _ hiff =>
    hiff.trans ⟨fun hu => ⟨⟨_, rfl⟩, hu⟩, fun hr => hr.2⟩)

/-- A restore that the host refuses touches nothing. -/
theorem restore_ends (set : Str) : (handle config (.restore set)).Ends (OnHost host) []
    (fun reply h => (host.Refuses config → Refused reply h) ∧
      (¬Untouched h → ∃ row ∈ host.row config, row.isOnline = false)) fun _ _ => False :=
  handle_ends ((doRestore_ends set).mono (fun _ _ hq => ⟨hq.1, hq.2.2⟩) fun _ _ hsafe =>
    ⟨fun hrefuses => ⟨⟨_, rfl⟩, hsafe.1 hrefuses⟩, hsafe.2⟩)

/-- Where the helper does not refuse the cluster, some stop of it is not refused. -/
theorem exists_stop (hnot : ¬host.Refuses config) :
    ∃ es r, (handle config .stop).Runs (OnHost host) [] es r ∧
      ¬∃ reply, r = .ok reply ∧ Refused reply es := by
  have hr : (handle config .stop).Runs (OnHost host) [] _ _ :=
    runs_run host.onHost_answer (handle config .stop) []
  refine ⟨_, _, hr, ?_⟩
  rintro ⟨reply, heq, hrefused⟩
  have hmeets := stop_ends.of_runs hr
  rw [heq] at hmeets
  exact hnot (hmeets.mpr hrefused)

/-! ## When the source is spared -/

/-- A host that archives into its own repository and does not refuse is not spared. -/
theorem not_spared (harchives : ArchivesInto host config) (hnot : ¬host.Refuses config) :
    ¬Spared host config := by
  intro hspared
  obtain ⟨es, r, hr, hnone⟩ := exists_stop hnot
  exact hnone (hspared.refused harchives .stop (.inl rfl) es r hr)

/-- The helper of a stanza, on the cluster that the stanza's backups are of. -/
def production : HelperConfig where
  stanza := "main".toList
  repo := 1
  version := "18".toList
  name := "main".toList

/-- Its host, with this `postgresql.conf`. -/
def productionHost (conf : Str) : Host where
  listing := .ok
    { returncode := 0
      stdout := "18 main 5432 online postgres /var/lib/postgresql/18/main /var/log/main.log\n".toList
      stderr := [] }
  entry path :=
    if path = .of "/etc/postgresql/18/main/postgresql.conf".toList then .file conf
    else if path = .of "/etc/postgresql/18/main/archive.conf".toList then
      .file "archive_command = 'pgbackrest --stanza=main archive-push %p'\n".toList
    else if path = .of "/var/lib/postgresql/18/main".toList then .directory []
    else .absent

/-- Capitals, a quote in the value, an octal escape, and an include. -/
def missedSpellings : List Str :=
  ["ARCHIVE_COMMAND = 'pgbackrest --stanza=main archive-push %p'\n",
    "archive_command = 'pgbackrest --stanza=''main'' archive-push %p'\n",
    "archive_command = 'pgbackrest \\055-stanza=main archive-push %p'\n",
    "include 'archive.conf'\n"].map String.toList

end Fraisier.PgBackRest
