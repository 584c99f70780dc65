import Fraisier.Deploy.Orphans

/-!
# The records as a store

What `read_status` of `status.py` finds after any number of `write_status`, some of which fail: the
record that was written last for the fraise (`reads_last_written`). A record is written whole or not
at all, one fraise's record leaves those of the others, and a write that fails leaves all of them.
-/

namespace Fraisier.Deploy.Orphans

open Fraisier.Lib Unicode Json

/-! ## Reading and writing -/

section

variable (depths : Depths)

/-- `read_status`. -/
def readStatus (name : Text) (dir : Directory) : Except Exn (Option DeploymentStatusFile) := do
  let name ← validateFraiseName (.str name)
  match dir.lookup (fileName name) with
  | none => return none
  | some content => return some (← readRecord depths content)

/-- A record that a deploy writes, and what the writing meets. -/
structure Write where
  name : Text
  status : DeploymentStatusFile
  fraiseName : status.fraiseName = .str name
  proper : Proper status
  world : World

/-- The directory after a write, which may raise. -/
def Write.onDisk (dir : Directory) (i : Write) : Directory :=
  match writeStatus i.status depths i.world dir with
  | .ok dir => dir
  | .error _ => dir

/-- The file can be written, and the record is not nested too deep. -/
def Write.Lands (i : Write) : Prop :=
  i.world.refuses (fileName i.name) = false ∧ (Json.obj (asdict i.status)).depth ≤ depths.dumps

instance (i : Write) : Decidable (i.Lands depths) := inferInstanceAs (Decidable (_ ∧ _))

/-- The last record of each fraise. -/
abbrev Statuses := List (Text × DeploymentStatusFile)

/-- The records after a write. -/
def Write.onStatuses (statuses : Statuses) (i : Write) : Statuses :=
  if i.Lands depths then put i.name i.status statuses else statuses

/-- What is read is the last record of the fraise. -/
def Reads (dir : Directory) (statuses : Statuses) : Prop :=
  ∀ name, isSafeName name = true → readStatus depths name dir = .ok (statuses.lookup name)

end

section Store

variable {depths : Depths} {dir : Directory} {statuses : Statuses} {name : Text}

/-- The name of a write is safe. -/
theorem Write.safe (i : Write) : isSafeName i.name = true := by
  obtain ⟨name, hname, hsafe⟩ := i.proper.name
  obtain rfl : name = i.name := Json.str.inj (hname.symm.trans i.fraiseName)
  exact hsafe

/-- Where no file is, no status is read. -/
theorem readStatus_none (hsafe : isSafeName name = true) (h : dir.lookup (fileName name) = none) :
    readStatus depths name dir = .ok none := by
  simp only [readStatus, validateFraiseName, if_pos hsafe, bind, Except.bind, h]
  rfl

/-- Where a file is, its status is read. -/
theorem readStatus_some {content : Option Text} {status : DeploymentStatusFile}
    (hsafe : isSafeName name = true) (h : dir.lookup (fileName name) = some content)
    (hread : readRecord depths content = .ok status) :
    readStatus depths name dir = .ok (some status) := by
  simp only [readStatus, validateFraiseName, if_pos hsafe, bind, Except.bind, h, hread]
  rfl

/-- Reading looks at the file of the fraise only. -/
theorem readStatus_congr {dir' : Directory}
    (h : dir.lookup (fileName name) = dir'.lookup (fileName name)) :
    readStatus depths name dir = readStatus depths name dir' := by
  rw [readStatus, readStatus]
  cases hname : validateFraiseName (.str name) with
  | error e => rfl
  | ok name' =>
    obtain rfl : name = name' := by
      rw [validateFraiseName] at hname
      split_ifs at hname
      exact Except.ok.inj hname
    simp only [bind, Except.bind, h]

/-- A write that lands puts its status in its file. -/
theorem Write.onDisk_of_lands {i : Write} (h : i.Lands depths) (dir : Directory) :
    i.onDisk depths dir = put (fileName i.name) (some (contents i.status)) dir := by
  rw [Write.onDisk, writeStatus_ok i.fraiseName i.safe h.1 h.2 dir]

/-- A write that raises leaves the directory. -/
theorem Write.onDisk_of_not_lands {i : Write} (h : ¬i.Lands depths) (dir : Directory) :
    i.onDisk depths dir = dir := by
  -- A write that raises has not come to the directory.
  cases hwrite : writeStatus i.status depths i.world dir with
  | error e => rw [Write.onDisk, hwrite]
  | ok dir' =>
    refine absurd ?_ h
    cases hrefuses : i.world.refuses (fileName i.name) with
    | true =>
      cases (writeStatus_refused depths i.fraiseName i.safe hrefuses dir).symm.trans hwrite
    | false =>
      refine ⟨hrefuses, ?_⟩
      by_contra hdeep
      rw [writeStatus, i.fraiseName, validateFraiseName, if_pos i.safe] at hwrite
      change (if _ then _ else if _ then _ else _) = _ at hwrite
      rw [hrefuses, if_neg Bool.false_ne_true, if_pos (Nat.lt_of_not_le hdeep)] at hwrite
      cases hwrite

/-- After one write, what is read is the last record still. -/
theorem Reads.step (h : Reads depths dir statuses) (i : Write) :
    Reads depths (i.onDisk depths dir) (i.onStatuses depths statuses) := by
  intro name hsafe
  rw [Write.onStatuses]
  by_cases hlands : i.Lands depths
  · rw [Write.onDisk_of_lands hlands, if_pos hlands]
    -- The record of another name is in another file.
    by_cases hname : name = i.name
    · subst hname
      rw [lookup_put_self]
      exact readStatus_some hsafe (lookup_put_self _ _ _) (readRecord_contents i.proper hlands.2)
    · have hfile : fileName name ≠ fileName i.name :=
        fun heq => hname (List.append_cancel_right heq)
      rw [lookup_put_of_ne hname, readStatus_congr (lookup_put_of_ne hfile dir)]
      exact h name hsafe
  · rw [Write.onDisk_of_not_lands hlands, if_neg hlands]
    exact h name hsafe

/-- Before the first write no status is read. -/
theorem Reads.start (hnone : ∀ file ∈ dir.map Prod.fst, isStatusFile file = false) :
    Reads depths dir [] := by
  intro name hsafe
  refine readStatus_none hsafe (List.lookup_eq_none_iff.mpr fun entry hentry => ?_)
  refine bne_iff_ne.mpr fun heq : fileName name = entry.1 => ?_
  have hstatus : isStatusFile (fileName name) = true :=
    List.isSuffixOf_iff_suffix.mpr ⟨name, rfl⟩
  rw [heq, hnone entry.1 (List.mem_map_of_mem hentry)] at hstatus
  cases hstatus

/-- However many records are written from a directory without any, what is read for a fraise is the
record that was written last for it and could be written. -/
theorem reads_last_written (hnone : ∀ file ∈ dir.map Prod.fst, isStatusFile file = false)
    (writes : List Write) (hsafe : isSafeName name = true) :
    readStatus depths name (writes.foldl (Write.onDisk depths) dir) =
      .ok ((writes.foldl (Write.onStatuses depths) []).lookup name) := by
  suffices hrun : ∀ (dir : Directory) (statuses : Statuses), Reads depths dir statuses →
      Reads depths (writes.foldl (Write.onDisk depths) dir)
        (writes.foldl (Write.onStatuses depths) statuses) from
    hrun dir [] (Reads.start hnone) name hsafe
  induction writes with
  | nil => exact fun dir statuses h => h
  | cons i writes ih => exact fun dir statuses h => ih _ _ (h.step i)

/-- A record that is written, and the same where nothing can be written. -/
theorem reads_last_written_killed :
    let first : Write := ⟨text "api", killed, rfl, proper_killed, webhookStart⟩
    let writes := [first, { first with world := { webhookStart with refuses := fun _ => true } }]
    readStatus interpreter (text "api")
        (writes.foldl (Write.onDisk interpreter) [(text "README", none)]) =
      .ok ((writes.foldl (Write.onStatuses interpreter) []).lookup (text "api")) :=
  reads_last_written (by decide) _ (by decide)

end Store

end Fraisier.Deploy.Orphans
