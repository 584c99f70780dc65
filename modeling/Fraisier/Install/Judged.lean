import Fraisier.Install.Helper

/-!
# The helper writes what it judged

However the file system changes between two of its calls, the helper writes to each unit file the
bytes that it judged under the policy it loaded, in a directory that has the identity recorded at
its start; and before it writes anything, it has judged every source of the manifest and refused
nothing. A refusal while it executes, at a destination, is the end: the helper calls nothing after
it, so what it has written before stays.
-/

namespace Fraisier.Install

open Fraisier.Lib Interaction Str Fraisier.Unit

/-- The calls and answers of the helper. -/
abbrev Calls := History InstallCall.Answer

/-- A call that changes something. -/
def InstallCall.Acts : InstallCall → Prop
  | .writeFile _ _ _ => True
  | .writeMarker _ _ _ => True
  | .systemctl _ => True
  | .resolve _ | .loadPolicy | .readFile _ | .lock | .deadline | .openDir _ | .pathExists _ => False

/-- The program changes nothing. -/
abbrev OnlyLooks {α : Type} (p : InstallM α) : Prop := p.Makes (¬·.Acts) fun _ => True

/-- `check_app_unit_name` and `validate_unit` have nothing against the bytes. -/
def Unrefused (policy : RootPolicy) (name : Str) (data : ByteArray) : Prop :=
  ∃ text, decodeUtf8 data = some text ∧ checkAppUnitName name policy = none ∧
    validateUnit name text policy = some []

/-! ## Validation changes nothing -/

/-- Resolving looks only. -/
theorem onlyLooks_safeResolve (path : PurePath) : OnlyLooks (safeResolve path) := by
  refine (makes_ask id).bind fun r _ => ?_
  cases r with
  | path | notFound | raised => trivial

/-- Searching the allowlist looks only. -/
theorem onlyLooks_matchPrefix (prefix_ : AllowlistEntry → PurePath) (isMatch : PurePath → Bool)
    (entries : List AllowlistEntry) : OnlyLooks (matchPrefix prefix_ isMatch entries) := by
  induction entries with
  | nil => trivial
  | cons entry rest ih =>
    refine (onlyLooks_safeResolve _).bind fun root _ => ?_
    split
    · trivial
    · exact ih

/-- The check of a name calls nothing. -/
theorem onlyLooks_checkUnitBasename (basename : Str) (index : ℕ) :
    OnlyLooks (checkUnitBasename basename index) := by
  unfold checkUnitBasename
  split_ifs <;> trivial

/-- The check of a source looks only. -/
theorem onlyLooks_checkSource (sourcePath : Str) (allowlist : List AllowlistEntry) (index : ℕ) :
    OnlyLooks (checkSource sourcePath allowlist index) := by
  refine (makes_ask id).bind fun r _ => ?_
  cases r with
  | notFound | raised => trivial
  | path resolved =>
    refine (onlyLooks_matchPrefix _ _ _).bind fun entry _ => ?_
    split <;> trivial

/-- The check of a destination looks only. -/
theorem onlyLooks_checkDestParent (destPath : Str) (allowlist : List AllowlistEntry) (index : ℕ) :
    OnlyLooks (checkDestParent destPath allowlist index) := by
  refine (makes_ask id).bind fun r _ => ?_
  cases r with
  | notFound | raised => trivial
  | path parent =>
    refine (onlyLooks_matchPrefix _ _ _).bind fun entry _ => ?_
    split <;> trivial

/-- The check of a marker calls nothing. -/
theorem onlyLooks_checkMarker (marker : MarkerMeta) (index : ℕ) :
    OnlyLooks (checkMarker marker index) := by
  unfold checkMarker
  split <;> trivial

/-- Validating an operation looks only. -/
theorem onlyLooks_validateOperation (allowlist : List AllowlistEntry) (item : Operation × ℕ) :
    OnlyLooks (validateOperation allowlist item) := by
  unfold validateOperation
  split
  -- A unit to install is checked on both sides, a marker only on one.
  · unfold validateInstallFileOp
    split
    · trivial
    · refine (onlyLooks_checkUnitBasename _ _).bind fun _ _ => ?_
      refine (onlyLooks_checkSource _ _ _).bind fun _ _ => ?_
      refine (onlyLooks_checkDestParent _ _ _).bind fun _ _ => ?_
      split
      · exact onlyLooks_checkMarker _ _
      · trivial
  · refine (onlyLooks_checkUnitBasename _ _).bind fun _ _ => ?_
    refine (onlyLooks_checkDestParent _ _ _).bind fun _ _ => ?_
    exact onlyLooks_checkMarker _ _

/-- Validating a post-action calls nothing. -/
theorem onlyLooks_validatePostAction (installed : List Str) (item : PostAction × ℕ) :
    OnlyLooks (validatePostAction installed item) := by
  unfold validatePostAction
  split
  · split <;> trivial
  all_goals trivial

/-- `validate_manifest` changes nothing. -/
theorem onlyLooks_validateManifest (manifest : Manifest) (allowlist : List AllowlistEntry) :
    OnlyLooks (validateManifest manifest allowlist) := by
  unfold validateManifest
  split
  · trivial
  · refine (Makes.foldlM (I := fun _ _ => True) [] trivial fun _ item _ _ _ _ =>
      onlyLooks_validateOperation allowlist item).bind fun _ _ => ?_
    exact Makes.foldlM (I := fun _ _ => True) [] trivial fun _ item _ _ _ _ =>
      onlyLooks_validatePostAction _ item

/-! ## Judging -/

/-- Reading a source looks only. -/
theorem onlyLooks_readSource (sourcePath : Str) (resolved : ResolvedAllowlist) :
    OnlyLooks (readSource sourcePath resolved) := by
  refine (makes_ask id).bind fun r _ => ?_
  cases r with
  | notFound | raised => trivial
  | path source =>
    dsimp only
    split
    · trivial
    refine (makes_ask id).bind fun read _ => ?_
    cases read with
    | link | raised => trivial
    | bytes data =>
      dsimp only
      split <;> trivial

/-- Each source in `done` was judged, and refused nothing unless there is a reason. -/
def JudgedSources (policy : RootPolicy) (done : List (Operation × ℕ)) (acc : Judgement) : Prop :=
  (∀ i, acc.1.lookup i ≠ none → ∃ op, (op, i) ∈ done) ∧
    (acc.2 = [] → ∀ op i, (Operation.installFile op, i) ∈ done →
      ∃ data, acc.1.lookup i = some data ∧ Unrefused policy (unitName op.destPath) data)

/-- Nothing is refused only if there are no refusals. -/
theorem unrefused_of_refusalsOf {policy : RootPolicy} {name text : Str} {data : ByteArray}
    (hdecode : decodeUtf8 data = some text) (h : refusalsOf policy name text = some []) :
    Unrefused policy name data := by
  unfold refusalsOf at h
  obtain ⟨refusals, hvalid, happend⟩ := Option.map_eq_some_iff.mp h
  obtain ⟨hname, rfl⟩ := List.append_eq_nil_iff.mp happend
  exact ⟨text, hdecode, Option.toList_eq_nil_iff.mp hname, hvalid⟩

/-- Judging one source looks only, and keeps what the sources judged so far hold. -/
theorem judgeSource_makes {resolved : ResolvedAllowlist} {policy : RootPolicy}
    {done : List (Operation × ℕ)} {acc : Judgement} {item : Operation × ℕ}
    (hfresh : ∀ op, (op, item.2) ∉ done) (hj : JudgedSources policy done acc) :
    (judgeSource resolved policy acc item).Makes (¬·.Acts) (JudgedSources policy (done ++ [item])) := by
  obtain ⟨op, i⟩ := item
  -- Nothing is held under the index yet.
  have hnone : acc.1.lookup i = none := by
    by_contra hsome
    obtain ⟨op', hop'⟩ := hj.1 i hsome
    exact hfresh op' hop'
  unfold judgeSource
  cases op with
  -- A marker has no source.
  | writeMarker op =>
    refine ⟨fun j hj' => ?_, fun hnil op' j hmem => ?_⟩
    · obtain ⟨op', hop'⟩ := hj.1 j hj'
      exact ⟨op', List.mem_append_left _ hop'⟩
    · rcases List.mem_append.mp hmem with hold | hnew
      · exact hj.2 hnil op' j hold
      · simp at hnew
  | installFile op =>
    refine (onlyLooks_readSource _ _).bind fun data _ => ?_
    split
    · refine ⟨fun j hj' => ?_, fun hnil => ?_⟩
      · obtain ⟨op', hop'⟩ := hj.1 j hj'
        exact ⟨op', List.mem_append_left _ hop'⟩
      · simp at hnil
    · rename_i text hdecode
      split
      · trivial
      · rename_i refusals hrefusals
        refine ⟨fun j hj' => ?_, fun hnil op' j hmem => ?_⟩
        · by_cases hji : j = i
          · exact ⟨_, List.mem_append_right _ (by rw [hji]; exact List.mem_singleton_self _)⟩
          · have hold : acc.1.lookup j ≠ none := by
              intro hno
              rw [List.lookup_append, hno] at hj'
              simp [hji] at hj'
            obtain ⟨op', hop'⟩ := hj.1 j hold
            exact ⟨op', List.mem_append_left _ hop'⟩
        · obtain ⟨hacc, hmap⟩ := List.append_eq_nil_iff.mp hnil
          obtain rfl := List.map_eq_nil_iff.mp hmap
          rcases List.mem_append.mp hmem with hold | hnew
          · obtain ⟨d, hd, hun⟩ := hj.2 hacc op' j hold
            exact ⟨d, by rw [List.lookup_append, hd]; rfl, hun⟩
          · obtain ⟨hop, rfl⟩ := Prod.mk.inj (List.mem_singleton.mp hnew)
            obtain rfl := Operation.installFile.inj hop
            refine ⟨data, ?_, unrefused_of_refusalsOf hdecode hrefusals⟩
            rw [List.lookup_append, hnone]
            simp

/-- An operation comes once in the list of operations with their indices. -/
theorem index_fresh {manifest : Manifest} {done rest : List (Operation × ℕ)} {item : Operation × ℕ}
    (hsplit : manifest.operations.zipIdx = done ++ item :: rest) (op : Operation) :
    (op, item.2) ∉ done := by
  intro hmem
  have hnodup : (manifest.operations.zipIdx.map Prod.snd).Nodup := by
    rw [List.zipIdx_map_snd]
    exact List.nodup_range'
  rw [hsplit, List.map_append, List.map_cons] at hnodup
  have hindex : item.2 ∈ done.map Prod.snd := List.mem_map.mpr ⟨(op, item.2), hmem, rfl⟩
  exact (List.nodup_append.mp hnodup).2.2 _ hindex _ List.mem_cons_self rfl

/-- What `_judge_sources` returns: the bytes of every source, none of them refused. -/
def AllUnrefused (manifest : Manifest) (policy : RootPolicy) (contents : List (ℕ × ByteArray)) :
    Prop :=
  ∀ op i, (Operation.installFile op, i) ∈ manifest.operations.zipIdx →
    ∃ data, contents.lookup i = some data ∧ Unrefused policy (unitName op.destPath) data

/-- Judging the sources looks only, and returns the bytes of those that nothing is against. -/
theorem judgeSources_makes (manifest : Manifest) (resolved : ResolvedAllowlist)
    (policy : RootPolicy) :
    (judgeSources manifest resolved policy).Makes (¬·.Acts) (AllUnrefused manifest policy) := by
  unfold judgeSources
  have hstart : JudgedSources policy [] ([], []) := ⟨fun i hi => absurd rfl hi, fun _ => nofun⟩
  refine (Makes.foldlM (I := JudgedSources policy) [] hstart fun done item rest acc hsplit hj =>
    judgeSource_makes (index_fresh hsplit) hj).bind fun acc hj => ?_
  dsimp only
  split
  · trivial
  · rename_i hreasons
    exact hj.2 (not_not.mp hreasons)

/-- The admission looks only, and lets through what its policy has nothing against. -/
theorem accept_ends (allowlist : List AllowlistEntry) (resolved : ResolvedAllowlist)
    (manifest : Manifest) :
    (accept allowlist resolved manifest).Ends AnyAnswer []
      (fun contents h => (∀ e ∈ h, ¬e.1.Acts) ∧ ∃ policy, ⟨.loadPolicy, .policy policy⟩ ∈ h ∧
        AllUnrefused manifest policy contents)
      fun _ h => ∀ e ∈ h, ¬e.1.Acts := by
  unfold accept
  rw [ends_bind]
  refine ((onlyLooks_validateManifest manifest allowlist).ends AnyAnswer []).mono ?_ ?_
  -- The checks only look, and then the policy is read.
  · rintro - checks ⟨es, hes, hchecks, -⟩
    obtain rfl : checks = es := hes
    rw [ends_bind, loadPolicy, ends_bind, ends_ask]
    intro read _
    have hload : ∀ e ∈ checks ++ [(⟨.loadPolicy, read⟩ : Sigma InstallCall.Answer)],
        ¬e.1.Acts := by
      intro e he
      rcases List.mem_append.mp he with hold | hnew
      · exact hchecks e hold
      · rw [List.mem_singleton.mp hnew]
        exact id
    cases read with
    | raised | refused => exact hload
    | policy policy =>
      refine ((judgeSources_makes manifest resolved policy).ends AnyAnswer _).mono ?_ ?_
      · rintro contents _ ⟨es, rfl, hes, hcontents⟩
        refine ⟨fun e he => (List.mem_append.mp he).elim (hload e) (hes e), policy, ?_, hcontents⟩
        exact List.mem_append_left _ (List.mem_append_right _ (List.mem_singleton_self _))
      · rintro - _ ⟨es, rfl, hes⟩
        exact fun e he => (List.mem_append.mp he).elim (hload e) (hes e)
  · rintro - checks ⟨es, hes, hchecks⟩
    obtain rfl : checks = es := hes
    exact hchecks

/-! ## Execution -/

/-- A unit file is written in a recorded directory, under the name of an operation, with the bytes
that were judged for it. -/
def InstallCall.FromContents (resolved : ResolvedAllowlist) (manifest : Manifest)
    (contents : List (ℕ × ByteArray)) : InstallCall → Prop
  | .writeFile dir name data => (dir.path, dir.id) ∈ resolved.dests ∧
      ∃ op i, (Operation.installFile op, i) ∈ manifest.operations.zipIdx ∧
        name = unitName op.destPath ∧ contents.lookup i = some data
  | _ => True

variable {resolved : ResolvedAllowlist} {manifest : Manifest} {contents : List (ℕ × ByteArray)}

/-- What only looks writes nothing. -/
theorem fromContents_of_looks {α : Type} {p : InstallM α} {Q : α → Prop}
    (hp : p.Makes (¬·.Acts) Q) : p.Makes (·.FromContents resolved manifest contents) Q := by
  refine hp.mono (fun c hc => ?_) fun _ => id
  cases c with
  | writeFile => exact absurd trivial hc
  | _ => trivial

/-- A directory that was opened is a recorded one. -/
theorem openDest_makes (destPath : Str) :
    (openDest destPath resolved).Makes (¬·.Acts) fun dir => (dir.path, dir.id) ∈ resolved.dests := by
  refine (makes_ask id).bind fun r _ => ?_
  cases r with
  | notFound | raised => trivial
  | path parent =>
    dsimp only
    unfold openAndVerifyDestParent
    split
    · trivial
    -- The directory is looked up by its path, and its identity is compared.
    rename_i expected hfind
    refine (makes_ask id).bind fun d _ => ?_
    cases d with
    | raised => trivial
    | opened id =>
      dsimp only
      split
      · trivial
      · rename_i hid
        have hpath : expected.1 = parent := by simpa using List.find?_some hfind
        have hexpected : expected = (parent, id) := Prod.ext hpath (not_not.mp hid).symm
        have hmem := List.mem_of_find?_eq_some hfind
        rw [hexpected] at hmem
        exact hmem

/-- A marker is written from what was judged. -/
theorem writeMarkerIntoDirFd_makes (dir : OpenDir) (unit : Str) (marker : MarkerMeta) :
    (writeMarkerIntoDirFd dir unit marker).Makes (·.FromContents resolved manifest contents)
      fun _ => True := by
  refine (makes_ask trivial).bind fun r _ => ?_
  cases r with
  | done | link | raised => trivial

/-- A file is installed with the bytes that were judged. -/
theorem executeInstallFileOp_makes {op : InstallFileOp} {i : ℕ} {data : ByteArray}
    (hop : (Operation.installFile op, i) ∈ manifest.operations.zipIdx)
    (hdata : contents.lookup i = some data) :
    (executeInstallFileOp op resolved (some data)).Makes
      (·.FromContents resolved manifest contents) fun _ => True := by
  refine (fromContents_of_looks (openDest_makes _)).bind fun dir hdir => ?_
  have hgiven : (pure data : InstallM ByteArray).Makes (·.FromContents resolved manifest contents)
    (· = data) := makes_pure rfl
  refine hgiven.bind fun d hd => ?_
  obtain rfl : d = data := hd
  -- The bytes are those of the contents, and the directory is a recorded one.
  have hwrite : (writeIntoDirFd dir (unitName op.destPath) d).Makes
      (·.FromContents resolved manifest contents) fun _ => True := by
    refine (makes_ask ⟨hdir, op, i, hop, rfl, hdata⟩).bind fun r _ => ?_
    cases r with
    | done | link | raised => trivial
  refine hwrite.bind fun _ _ => ?_
  cases op.marker with
  | none => trivial
  | some marker => exact writeMarkerIntoDirFd_makes _ _ _

/-- Looking at the clock acts on nothing. -/
theorem onlyLooks_checkManifestDeadline (stage : String) (index : ℕ) :
    OnlyLooks (checkManifestDeadline stage index) := by
  refine (makes_ask id).bind fun late _ => ?_
  cases late with
  | true | false => trivial

/-- Looking for a marker acts on nothing. -/
theorem onlyLooks_markerPresent (unit : Str) (dests : List (PurePath × DirId)) :
    OnlyLooks (markerPresent unit dests) := by
  induction dests with
  | nil => trivial
  | cons dest rest ih =>
    refine (makes_ask id).bind fun present _ => ?_
    cases present with
    | true => trivial
    | false => exact ih

/-- A post-action comes from what was judged. -/
theorem executePostAction_makes (action : PostAction) :
    (executePostAction action resolved).Makes (·.FromContents resolved manifest contents)
      fun _ => True := by
  have hrun : (runPostAction action).Makes (·.FromContents resolved manifest contents)
      fun _ => True := by
    refine (makes_ask trivial).bind fun r _ => ?_
    cases r with
    | exited | timedOut | raised => trivial
  unfold executePostAction
  split
  · exact hrun
  · refine (fromContents_of_looks (onlyLooks_markerPresent _ _)).bind fun present _ => ?_
    cases present with
    | true => exact hrun
    | false => trivial

/-- The execution writes what was judged. -/
theorem executeManifest_makes {policy : RootPolicy} (hcontents : AllUnrefused manifest policy contents) :
    (executeManifest manifest resolved contents).Makes (·.FromContents resolved manifest contents)
      fun _ => True := by
  unfold executeManifest
  refine (Makes.foldlM (I := fun _ _ => True) [] trivial fun done item rest acc hsplit _ => ?_).bind
    fun acc _ => ?_
  -- The operations write what the contents hold for them, and the post-actions write nothing.
  · refine (fromContents_of_looks (onlyLooks_checkManifestDeadline _ _)).bind fun _ _ => ?_
    obtain ⟨op, i⟩ := item
    cases op with
    | writeMarker op =>
      refine ((fromContents_of_looks (openDest_makes _)).bind fun dir _ =>
        writeMarkerIntoDirFd_makes _ _ _).bind fun _ _ => trivial
    | installFile op =>
      have hop : (Operation.installFile op, i) ∈ manifest.operations.zipIdx := by
        rw [List.nil_append] at hsplit
        exact hsplit ▸ List.mem_append_right _ List.mem_cons_self
      obtain ⟨data, hdata, -⟩ := hcontents op i hop
      dsimp only
      rw [hdata]
      exact (executeInstallFileOp_makes hop hdata).bind fun _ _ => trivial
  · refine (Makes.foldlM (I := fun _ _ => True) [] trivial fun done item rest results _ _ => ?_).bind
      fun results _ => trivial
    refine (fromContents_of_looks (onlyLooks_checkManifestDeadline _ _)).bind fun _ _ => ?_
    exact (executePostAction_makes _).bind fun _ _ => trivial

/-! ## What stops the execution -/

/-- An answer on which the execution gives an operation or a post-action up: a destination that does
not resolve to a recorded directory, or is not the recorded one when it is opened; a file or a
marker that is not written; the end of the manifest's time; and a `systemctl` that does not run. -/
def StopsAt (resolved : ResolvedAllowlist) : Sigma InstallCall.Answer → Prop
  | ⟨.resolve _, .path parent⟩ => ∀ d ∈ resolved.dests, d.1 ≠ parent
  | ⟨.resolve _, _⟩ => True
  | ⟨.openDir _, .raised⟩ => True
  | ⟨.openDir dir, .opened id⟩ =>
    ∀ expected, resolved.dests.find? (·.1 = dir) = some expected → expected.2 ≠ id
  | ⟨.writeFile _ _ _, r⟩ => r ≠ .done
  | ⟨.writeMarker _ _ _, r⟩ => r ≠ .done
  | ⟨.deadline, late⟩ => late = true
  | ⟨.systemctl _, r⟩ => r = .raised
  | _ => False

/-- A refusal of the destination stops the program. -/
theorem openDest_halts (destPath : Str) :
    (openDest destPath resolved).Halts (StopsAt resolved) := by
  unfold openDest openAndVerifyDestParent
  refine halts_ask_bind (fun r => ?_) fun r hstop => ?_
  · cases r with
    | notFound | raised => exact halts_raise
    | path parent =>
      dsimp only
      split
      · exact halts_raise
      · rename_i expected hfind
        refine halts_ask_bind (fun d => ?_) fun d hstop => ?_
        · cases d with
          | raised => exact halts_raise
          | opened id => dsimp only; split_ifs <;> trivial
        · cases d with
          | raised => exact ⟨_, rfl⟩
          | opened id =>
            have hid : id ≠ expected.2 := fun heq => hstop expected hfind heq.symm
            exact ⟨_, if_pos hid⟩
  · cases r with
    | notFound | raised => exact ⟨_, rfl⟩
    | path parent =>
      dsimp only
      -- no recorded directory is the parent, so none is found
      have hnone : resolved.dests.find? (fun d => d.1 = parent) = none :=
        List.find?_eq_none.mpr fun d hd => by simpa using hstop d hd
      rw [hnone]
      exact ⟨_, rfl⟩

/-- A link in the marker's place stops the program. -/
theorem writeMarkerIntoDirFd_halts (dir : OpenDir) (unit : Str) (marker : MarkerMeta) :
    (writeMarkerIntoDirFd dir unit marker).Halts (StopsAt resolved) := by
  refine halts_ask_bind (fun r => ?_) fun r hstop => ?_
  · cases r <;> trivial
  · cases r with
    | done => exact absurd rfl hstop
    | link | raised => exact ⟨_, rfl⟩

/-- A link in the file's place stops the program. -/
theorem writeIntoDirFd_halts (dir : OpenDir) (name : Str) (data : ByteArray) :
    (writeIntoDirFd dir name data).Halts (StopsAt resolved) := by
  refine halts_ask_bind (fun r => ?_) fun r hstop => ?_
  · cases r <;> trivial
  · cases r with
    | done => exact absurd rfl hstop
    | link | raised => exact ⟨_, rfl⟩

/-- A deadline that has passed stops the program. -/
theorem checkManifestDeadline_halts (stage : String) (index : ℕ) :
    (checkManifestDeadline stage index).Halts (StopsAt resolved) := by
  refine halts_ask_bind (fun late => ?_) fun late hstop => ?_
  · cases late <;> trivial
  · obtain rfl : late = true := hstop
    exact ⟨_, rfl⟩

/-- Looking for a marker is stopped by no refusal. -/
theorem markerPresent_halts (unit : Str) (dests : List (PurePath × DirId)) :
    (markerPresent unit dests).Halts (StopsAt resolved) := by
  induction dests with
  | nil => exact halts_pure
  | cons dest rest ih =>
    refine halts_ask_bind (fun present => ?_) fun present hstop => False.elim hstop
    cases present with
    | true => exact halts_pure
    | false => exact ih

/-- A post-action is stopped by no refusal. -/
theorem executePostAction_halts (action : PostAction) :
    (executePostAction action resolved).Halts (StopsAt resolved) := by
  have hrun : (runPostAction action).Halts (StopsAt resolved) := by
    refine halts_ask_bind (fun r => ?_) fun r hstop => ?_
    · cases r <;> trivial
    · obtain rfl : r = .raised := hstop
      exact ⟨_, rfl⟩
  unfold executePostAction
  split
  · exact hrun
  · refine (markerPresent_halts _ _).bind fun present => ?_
    cases present with
    | true => exact hrun
    | false => exact halts_pure

/-- The execution calls nothing after an answer that stops it. The judged bytes are at hand, so it
reads no source, and what it resolves are destinations. -/
theorem executeManifest_halts {policy : RootPolicy}
    (hcontents : AllUnrefused manifest policy contents) :
    (executeManifest manifest resolved contents).Halts (StopsAt resolved) := by
  unfold executeManifest
  refine (Halts.foldlM fun acc item hitem => ?_).bind fun acc =>
    (Halts.foldlM fun results item _ => ?_).bind fun results => halts_pure
  -- The operations.
  · refine (checkManifestDeadline_halts _ _).bind fun _ => ?_
    obtain ⟨op, i⟩ := item
    cases op with
    | writeMarker op =>
      exact ((openDest_halts _).bind fun dir => writeMarkerIntoDirFd_halts _ _ _).bind
        fun _ => halts_pure
    | installFile op =>
      obtain ⟨data, hdata, -⟩ := hcontents op i hitem
      dsimp only
      rw [hdata]
      refine Halts.bind ?_ fun _ => halts_pure
      refine (openDest_halts _).bind fun dir => ?_
      refine (halts_pure : (pure data : InstallM ByteArray).Halts _).bind fun data => ?_
      refine (writeIntoDirFd_halts _ _ _).bind fun _ => ?_
      cases op.marker with
      | none => exact halts_pure
      | some marker => exact writeMarkerIntoDirFd_halts _ _ _
  -- The post-actions.
  · exact (checkManifestDeadline_halts _ _).bind fun _ =>
      (executePostAction_halts _).bind fun _ => halts_pure

/-- The part under the lock calls nothing after an answer that stops the execution. -/
theorem execute_ends {policy : RootPolicy} (hcontents : AllUnrefused manifest policy contents)
    (h : Calls) :
    (execute resolved manifest contents).Ends AnyAnswer h
      (fun _ h' => ∃ acts, h' = h ++ acts ∧ LastOnly (StopsAt resolved) acts)
      fun _ h' => ∃ acts, h' = h ++ acts ∧ LastOnly (StopsAt resolved) acts := by
  unfold execute
  rw [ends_bind, ends_ask]
  intro lock _
  cases lock with
  | raised | busy => exact ⟨_, rfl, lastOnly_singleton _⟩
  | taken =>
    dsimp only
    rw [ends_bind, ends_attempt]
    -- the lock comes before what the execution calls, and every way it ends calls nothing more
    have hlock : ∀ h', (∃ es, h' = h ++ [⟨.lock, .taken⟩] ++ es ∧ LastOnly (StopsAt resolved) es) →
        ∃ acts, h' = h ++ acts ∧ LastOnly (StopsAt resolved) acts := by
      rintro h' ⟨es, rfl, hes⟩
      exact ⟨⟨.lock, .taken⟩ :: es, List.append_assoc .., hes.cons id⟩
    refine ((executeManifest_halts hcontents).ends AnyAnswer _).mono (fun _ h' => hlock h') ?_
    intro e h' hes
    cases e with
    | rejected | timedOut | raised => exact hlock h' hes

/-! ## Requests -/

/-- The calls of a request: those of its admission, and those that follow it. -/
structure WritesJudged (allowlist : List AllowlistEntry) (resolved : ResolvedAllowlist)
    (manifest : Manifest) (admission acts : Calls) : Prop where
  /-- The admission changes nothing. -/
  looks : ∀ e ∈ admission, ¬e.1.Acts
  /-- Nothing follows it unless it refused nothing. -/
  admitted : acts ≠ [] → ∃ contents,
    (accept allowlist resolved manifest).Runs AnyAnswer [] admission (.ok contents)
  /-- What is written was judged, by the policy that was loaded, and goes to a recorded directory. -/
  written : ∀ dir name data r, ⟨.writeFile dir name data, r⟩ ∈ acts →
    (dir.path, dir.id) ∈ resolved.dests ∧
      ∃ policy, ⟨.loadPolicy, .policy policy⟩ ∈ admission ∧ Unrefused policy name data
  /-- What an operation or a post-action is given up on is the last call: nothing is taken back. -/
  stops : LastOnly (StopsAt resolved) acts

/-- However the file system answers, the helper acts only after an admission that refused nothing,
and writes only bytes that it judged, in directories with a recorded identity; and it calls nothing
after what it gives an operation up on. -/
theorem writes_judged (allowlist : List AllowlistEntry) (resolved : ResolvedAllowlist)
    (manifest : Manifest) :
    (handleManifest allowlist resolved manifest).Ends AnyAnswer []
      (fun _ h => ∃ admission acts, h = admission ++ acts ∧
        WritesJudged allowlist resolved manifest admission acts)
      fun _ h => ∃ admission acts, h = admission ++ acts ∧
        WritesJudged allowlist resolved manifest admission acts := by
  unfold handleManifest
  rw [ends_bind, ends_attempt]
  have hruns := ends_runs AnyAnswer (accept allowlist resolved manifest) []
  -- A refusal ends the admission, and nothing acts.
  have hrefused : ∀ h : Calls, (∀ e ∈ h, ¬e.1.Acts) → ∃ admission acts, h = admission ++ acts ∧
      WritesJudged allowlist resolved manifest admission acts := fun h hlooks =>
    ⟨h, [], (List.append_nil h).symm, hlooks, absurd rfl, nofun, lastOnly_nil⟩
  refine ((accept_ends allowlist resolved manifest).and hruns).mono ?_ ?_
  -- The admission held the bytes, and only these are written.
  · rintro contents h ⟨⟨hlooks, policy, hpolicy, hcontents⟩, es, hes, hrun⟩
    obtain rfl : h = es := hes
    have hacts : ∀ acts : Calls, (∀ e ∈ acts, e.1.FromContents resolved manifest contents) →
        LastOnly (StopsAt resolved) acts → ∃ admission acts', h ++ acts = admission ++ acts' ∧
          WritesJudged allowlist resolved manifest admission acts' := by
      refine fun acts hfrom hstops =>
        ⟨h, acts, rfl, hlooks, fun _ => ⟨contents, hrun⟩, ?_, hstops⟩
      intro dir name data r hmem
      obtain ⟨hdir, op, i, hop, rfl, hdata⟩ := hfrom _ hmem
      obtain ⟨data', hdata', hunrefused⟩ := hcontents op i hop
      obtain rfl := Option.some.inj (hdata.symm.trans hdata')
      exact ⟨hdir, policy, hpolicy, hunrefused⟩
    have hexecute : (execute resolved manifest contents).Makes
        (·.FromContents resolved manifest contents) fun _ => True := by
      refine (makes_ask trivial).bind fun lock _ => ?_
      cases lock with
      | raised | busy => trivial
      | taken =>
        refine (executeManifest_makes hcontents).attempt.bind fun r _ => ?_
        rcases r with (_ | _ | _) | _ <;> trivial
    refine ((hexecute.ends AnyAnswer h).and (execute_ends hcontents h)).mono ?_ ?_
    · rintro - _ ⟨⟨acts, rfl, hfrom, -⟩, acts', hsame, hstops⟩
      exact hacts acts hfrom (List.append_cancel_left hsame ▸ hstops)
    · rintro - _ ⟨⟨acts, rfl, hfrom⟩, acts', hsame, hstops⟩
      exact hacts acts hfrom (List.append_cancel_left hsame ▸ hstops)
  -- The admission refused.
  · rintro e h ⟨hlooks, -⟩
    cases e with
    | rejected | timedOut | raised => exact hrefused h hlooks

/-! ## A refusal after a write -/

/-- A policy that lets units run as `app`. -/
def appPolicy : RootPolicy where
  project := []
  scaffoldDir := []
  users := ["app".toList]
  groups := []
  execPrefixes := []
  readPaths := []
  directories := []

/-- A unit that it accepts. -/
def appUnit : ByteArray := "[Service]\nUser=app\n".toUTF8

/-- Where units are installed, and where they come from. -/
def unitDir : PurePath := .of "/etc/systemd/system".toList

/-- The sources of units. -/
def sourceDir : PurePath := .of "/srv/app".toList

/-- An operation that installs a unit. -/
def installUnit (name : String) : Operation := .installFile
  { sourcePath := "/srv/app/".toList ++ name.toList
    destPath := "/etc/systemd/system/".toList ++ name.toList
    mode := "0644".toList }

/-- A host on which `b.service` is a link, as a masked unit is. -/
def maskedHost : Calls → (c : InstallCall) → c.Answer
  | _, .resolve path => .path path
  | _, .loadPolicy => .policy appPolicy
  | _, .readFile _ => .bytes appUnit
  | _, .lock => .taken
  | _, .deadline => false
  | _, .openDir _ => .opened (1, 2)
  | _, .writeFile _ name _ => if name = "b.service".toList then .link else .done
  | _, .writeMarker _ _ _ => .done
  | _, .pathExists _ => false
  | _, .systemctl _ => .exited 0 []

/-- A unit file was written. -/
def wroteFile (unit : Str) : Sigma InstallCall.Answer → Bool
  | ⟨.writeFile _ name _, r⟩ => name = unit && r = .done
  | _ => false

/-- A request was rejected. -/
def isRejected : Except InstallError Response → Bool
  | .ok (.rejected _) => true
  | _ => false

set_option maxRecDepth 10000 in
/-- An operation is refused at its destination, and the file of the one before it is written. -/
theorem refused_after_write : ∃ es r,
    (handleManifest [⟨sourceDir, unitDir⟩] ⟨[(unitDir, (1, 2))], [sourceDir]⟩
      ⟨1, [installUnit "a.service", installUnit "b.service"], []⟩).Runs AnyAnswer [] es r ∧
    isRejected r = true ∧ ∃ e ∈ es, wroteFile "a.service".toList e = true := by
  refine ⟨_, _, @runs_run _ _ _ _ AnyAnswer maskedHost (fun _ _ => trivial) _ _, ?_, ?_⟩
  · decide
  · exact List.any_eq_true.mp (by decide)

end Fraisier.Install
